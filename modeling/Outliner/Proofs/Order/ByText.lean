import Outliner.Proofs.Order.Reading
import Outliner.Proofs.Reports.ByText

set_option autoImplicit false

/-!
# The order of elements of C and C++ sources

In a source that is read as a whole, functions are filed by their classes, and a class may begin
behind a function that belongs to it. So the marks do not come in the right order, but their blocks
do: a class with its members is one block, and each other mark is one.

## Main definitions

* `Outliner.Block` — marks that file one element at the top.
* `Outliner.Block.Files` — what the marks of a block do to a document.
* `Outliner.CFamily.Reading.blocks` — the blocks of a source.

## Main results

* `Outliner.Document.ofBlocks_ascends` — blocks in the order of their lines make a document whose
  groups ascend, at any depth.
* `Outliner.Definition.all_pairwise`, `Outliner.Signature.all_pairwise` — what is found in a text
  stands in the order of its places.
* `Outliner.CFamily.ofMarks_ascends` — the groups of a source ascend.
-/

namespace Outliner

/-! ## Blocks -/

/-- The groups of each class ascend. -/
def Ascending : Nat → Scope Element → Prop := fun _ members => members.Ascends

/-- Marks that file one element at the top. -/
structure Block where
  /-- The kind under which it is filed. -/
  kind : Kind
  /-- Its line. -/
  line : Nat
  /-- The marks. -/
  marks : List Mark

/-- Taken where no class is open, the marks of the block file one element at most. It has the line
of the block, and its members ascend. -/
def Block.Files (b : Block) : Prop :=
  ∀ document : Document, ∃ filed : Document,
    Draft.marks { document := document } b.marks = { document := filed }
      ∧ (filed.scope = document.scope
        ∨ ∃ e : Element, e.tag.line = b.line ∧ e.Throughout Ascending
          ∧ filed.scope = document.scope.add b.kind e)

/-- A block comes after all that is filed under its kind. -/
def Block.Follows (b : Block) (s : Scope Element) : Prop := ∀ x ∈ s.get b.kind, x.tag.line ≤ b.line

/-- Two blocks are in order: they are of different kinds, or the first one begins no later. -/
def Block.Precedes (b b' : Block) : Prop := b.kind = b'.kind → b.line ≤ b'.line

/-- Blocks of these kinds, those of each kind in the order of their lines. -/
structure Block.Arranged (kinds : List Kind) (blocks : List Block) : Prop where
  /-- They are of these kinds. -/
  kinds : ∀ b ∈ blocks, b.kind ∈ kinds
  /-- They are in order. -/
  order : blocks.Pairwise Block.Precedes

/-- No blocks are arranged. -/
lemma Block.arranged_nil : Block.Arranged [] [] := ⟨List.forall_mem_nil _, .nil⟩

/-- Blocks of another kind may come behind.

**Proof sketch.** Within each part the order is given. Between the parts there is nothing to
compare, since the kind behind is a new one. -/
lemma Block.Arranged.append {kinds : List Kind} {blocks further : List Block} {kind : Kind}
    (h : Block.Arranged kinds blocks) (hnew : kind ∉ kinds) (hkind : ∀ b ∈ further, b.kind = kind)
    (horder : further.Pairwise (·.line ≤ ·.line)) :
    Block.Arranged (kind :: kinds) (blocks ++ further) where
  kinds := by
    intro b hb
    rcases List.mem_append.1 hb with hb | hb
    · exact List.mem_cons_of_mem _ (h.kinds b hb)
    · rw [hkind b hb]
      exact List.mem_cons_self
  order := by
    have hfurther : further.Pairwise Block.Precedes := by
      refine horder.imp ?_
      intro b b' hle _
      exact hle
    refine List.pairwise_append.2 ⟨h.order, hfurther, fun b hb b' hb' heq => ?_⟩
    rw [hkind b' hb'] at heq
    exact absurd (heq ▸ h.kinds b hb) hnew

/-- What follows a scope and a block follows the scope with the element of the block. -/
lemma Block.Follows.add {b b' : Block} {s : Scope Element} (h : b'.Follows s) (hb : b.Precedes b')
    {e : Element} (he : e.tag.line = b.line) : b'.Follows (s.add b.kind e) := by
  intro x hx
  rw [Scope.get_add] at hx
  split at hx
  · next hkind =>
    rcases List.mem_append.1 hx with hx | hx
    · exact h x (hkind ▸ hx)
    · obtain rfl := List.mem_singleton.1 hx
      rw [he]
      exact hb hkind.symm
  · exact h x hx

/-- **Blocks in the order of their lines keep the order.**

**Proof sketch.** Induction on the blocks. The element of the first one comes to the end of its
group; the other blocks follow it. -/
theorem Draft.blocks_ascends {blocks : List Block} (hfiles : ∀ b ∈ blocks, b.Files)
    (horder : blocks.Pairwise Block.Precedes) {document : Document}
    (hfollows : ∀ b ∈ blocks, b.Follows document.scope) (hd : document.scope.Ascends)
    (hbelow : document.Throughout Ascending) :
    ∃ filed : Document,
      Draft.marks { document := document } (blocks.flatMap Block.marks) = { document := filed }
        ∧ filed.scope.Ascends ∧ filed.Throughout Ascending := by
  induction blocks generalizing document with
  | nil => exact ⟨document, rfl, hd, hbelow⟩
  | cons b blocks ih =>
    obtain ⟨hfirst, hrest⟩ := List.pairwise_cons.1 horder
    have hfilesRest : ∀ b' ∈ blocks, b'.Files :=
      fun b' hb' => hfiles b' (List.mem_cons_of_mem _ hb')
    have hfollowsRest : ∀ b' ∈ blocks, b'.Follows document.scope :=
      fun b' hb' => hfollows b' (List.mem_cons_of_mem _ hb')
    obtain ⟨filed, hmarks, hscope⟩ := hfiles b List.mem_cons_self document
    rw [List.flatMap_cons, Draft.marks_append, hmarks]
    rcases hscope with hscope | ⟨e, hline, he, hscope⟩
    · rw [← hscope] at hd hfollowsRest
      exact ih hfilesRest hrest hfollowsRest hd (by rwa [Document.Throughout, hscope])
    · have hlast : ∀ x ∈ document.scope.get b.kind, x.tag.line ≤ e.tag.line := by
        rw [hline]
        exact hfollows b List.mem_cons_self
      refine ih hfilesRest hrest (fun b' hb' => ?_) ?_ ?_
      · rw [hscope]
        exact (hfollowsRest b' hb').add (hfirst b' hb') hline
      · rw [hscope]
        exact hd.add hlast
      · rw [Document.Throughout, hscope]
        exact Scope.Each.add hbelow he

/-- Blocks in the order of their lines make a document whose groups ascend, at any depth. -/
theorem Document.ofBlocks_ascends (legend : Legend) {blocks : List Block}
    (hfiles : ∀ b ∈ blocks, b.Files) (horder : blocks.Pairwise Block.Precedes) :
    (ofMarks legend (blocks.flatMap Block.marks)).scope.Ascends
      ∧ (ofMarks legend (blocks.flatMap Block.marks)).Throughout Ascending := by
  have hfollows : ∀ b ∈ blocks, b.Follows (withLegend legend).scope := by
    intro b _ x hx
    obtain ⟨g, hg, -⟩ := Scope.mem_get hx
    rw [groups_withLegend] at hg
    exact absurd hg List.not_mem_nil
  obtain ⟨filed, hmarks, hascends, hbelow⟩ := Draft.blocks_ascends hfiles horder hfollows
    (forall_groups_withLegend legend _) (forall_groups_withLegend legend _)
  rw [ofMarks, hmarks]
  exact ⟨hascends, hbelow⟩

/-! ### The blocks of a source -/

/-- The mark of a name that is filed once is a block. -/
lemma Block.files_once (kind : Kind) (name : String) (line : Nat) :
    Block.Files ⟨kind, line, [.once kind name line]⟩ := by
  intro document
  rw [Draft.marks_cons, Draft.marks_nil, Draft.mark]
  split
  · exact ⟨document, rfl, .inl rfl⟩
  · exact ⟨document.add kind (Draft.leafOf kind name line), rfl,
      .inr ⟨Draft.leafOf kind name line, rfl, .leaf _, rfl⟩⟩

/-- The mark of a leaf is a block. -/
lemma Block.files_leaf (kind : Kind) (name : String) (line : Nat) :
    Block.Files ⟨kind, line, [.leaf kind name line]⟩ := fun document =>
  ⟨document.add kind (Draft.leafOf kind name line), rfl,
    .inr ⟨Draft.leafOf kind name line, rfl, .leaf _, rfl⟩⟩

/-- Leaves in the order of their lines become members of an open class, in this order.

**Proof sketch.** Induction on the leaves; each one comes to the end of its group. -/
lemma Draft.marks_leaves {kind : Kind} {leaves : List (String × Nat)}
    (horder : leaves.Pairwise (·.2 ≤ ·.2)) (document : Document) {o : OpenClass}
    (ho : (Element.ofClass o.body).Throughout Ascending)
    (hlast : ∀ x ∈ o.body.members.get kind, ∀ leaf ∈ leaves, x.tag.line ≤ leaf.2) :
    ∃ body : Class, body.tag = o.body.tag ∧ (Element.ofClass body).Throughout Ascending
      ∧ Draft.marks ⟨document, [o]⟩ (leaves.map fun leaf => .leaf kind leaf.1 leaf.2)
        = ⟨document, [⟨o.group, body⟩]⟩ := by
  induction leaves generalizing o with
  | nil => exact ⟨o.body, rfl, ho, rfl⟩
  | cons leaf leaves ih =>
    obtain ⟨hfirst, hrest⟩ := List.pairwise_cons.1 horder
    have hadded : (Element.ofClass (o.body.add kind (leafOf kind leaf.1 leaf.2))).Throughout
        Ascending := by
      refine Class.throughout_add ho (.leaf _) ?_
      refine Class.ascends_add (Element.Throughout.ofClass_iff.1 ho).1 fun x hx => ?_
      exact hlast x hx leaf List.mem_cons_self
    have hadd : ∀ x ∈ (o.body.add kind (leafOf kind leaf.1 leaf.2)).members.get kind,
        ∀ next ∈ leaves, x.tag.line ≤ next.2 := by
      intro x hx next hnext
      rw [Class.add, Scope.get_add, if_pos rfl] at hx
      rcases List.mem_append.1 hx with hx | hx
      · exact hlast x hx next (List.mem_cons_of_mem _ hnext)
      · rw [List.mem_singleton.1 hx, Element.line_withinScope]
        exact hfirst next hnext
    obtain ⟨body, htag, hbody, hmarks⟩ := ih hrest
      (o := ⟨o.group, o.body.add kind (leafOf kind leaf.1 leaf.2)⟩) hadded hadd
    exact ⟨body, htag, hbody, hmarks⟩

/-- A class is a block with its members, if these are leaves in the order of their lines.

**Proof sketch.** The class is opened without members. Its leaves are filed in the order of their
lines (`Draft.marks_leaves`), and leaving files the class in the document. -/
lemma Block.files_class {header : Header} (hgroup : header.group = .classes) {kind : Kind}
    {leaves : List (String × Nat)} (horder : leaves.Pairwise (·.2 ≤ ·.2)) :
    Block.Files ⟨.classes, header.tag.line,
      .enter header :: ((leaves.map fun leaf => .leaf kind leaf.1 leaf.2) ++ [.leave])⟩ := by
  intro document
  have hempty : (Element.ofClass header.toClass).Throughout Ascending :=
    (Draft.throughout_toClass header).imp fun _ _ h => h.ascends
  have hnone : ∀ x ∈ header.toClass.members.get kind, ∀ leaf ∈ leaves, x.tag.line ≤ leaf.2 := by
    intro x hx
    obtain ⟨g, hg, -⟩ := Scope.mem_get hx
    rw [Draft.groups_toClass] at hg
    exact absurd hg List.not_mem_nil
  obtain ⟨body, hbody, hmembers, hmarks⟩ := Draft.marks_leaves horder document
    (o := ⟨header.group, header.toClass⟩) hempty hnone
  refine ⟨document.addClass body, ?_, .inr ⟨.ofClass body, ?_, hmembers, rfl⟩⟩
  · rw [Draft.marks_cons, Draft.marks_append]
    change Draft.marks (Draft.marks ⟨document, [⟨header.group, header.toClass⟩]⟩ _) [.leave] = _
    rw [hmarks, Draft.marks_cons, Draft.marks_nil]
    simp [Draft.mark, Draft.leave, hgroup]
  · exact congrArg Tag.line (hbody.trans (Draft.toClass_eq header).1)

/-! ## Places in order -/

namespace Definition

/-- A definition is found at its place or behind it, and its body opens behind its name. -/
lemma withKeyword?_place {place : Nat} {text : List Char} {keyword : String} {d : Definition}
    (h : withKeyword? place text keyword = some d) : place ≤ d.place ∧ d.place ≤ d.opening := by
  obtain ⟨spaced, -, h⟩ := Option.bind_eq_some_iff.1 h
  dsimp only at h
  split at h
  · exact absurd h (by simp)
  · obtain ⟨name, -, h⟩ := Option.bind_eq_some_iff.1 h
    split at h
    · obtain rfl := Option.some.inj h
      have hbody := length_dropWhile_le (!endsHead ·)
        ((spaced.dropWhile isSpacing).drop name.length)
      rw [List.length_drop] at hbody
      dsimp only
      omega
    · exact absurd h (by simp)

/-- A definition at the front of a text begins at or behind its place and opens behind its
beginning. -/
lemma atFront?_place {place : Nat} {text : List Char} {d : Definition}
    (h : atFront? place text = some d) : place ≤ d.place ∧ d.place ≤ d.opening := by
  obtain ⟨keyword, -, hkeyword⟩ := List.exists_of_findSome?_eq_some h
  exact withKeyword?_place hkeyword

/-- Definitions are found in the order of their places.

**Proof sketch.** Induction on the search: after a definition it goes on behind the opening
brace. -/
lemma allFrom_pairwise (before : Option Char) (place : Nat) (text : List Char) :
    (allFrom before place text).Pairwise (·.place ≤ ·.place)
      ∧ ∀ d ∈ allFrom before place text, place ≤ d.place := by
  fun_induction allFrom before place text with
  | case1 => exact ⟨.nil, List.forall_mem_nil _⟩
  | case2 before place c text found hfound ih =>
    have hfront : atFront? place (c :: text) = some found := by
      split at hfound
      · exact absurd hfound (by simp)
      · exact hfound
    obtain ⟨hplace, hopening⟩ := atFront?_place hfront
    obtain ⟨horder, hbehind⟩ := ih
    constructor
    · refine List.pairwise_cons.2 ⟨fun d hd => ?_, horder⟩
      have := hbehind d hd
      omega
    · intro d hd
      rcases List.mem_cons.1 hd with rfl | hd
      · exact hplace
      · have := hbehind d hd
        omega
  | case3 before place c text hnone ih =>
    obtain ⟨horder, hbehind⟩ := ih
    exact ⟨horder, fun d hd => Nat.le_of_succ_le (hbehind d hd)⟩

/-- **Definitions are found in the order of their places.** -/
theorem all_pairwise (text : List Char) : (all text).Pairwise (·.place ≤ ·.place) :=
  (allFrom_pairwise none 0 text).1

end Definition

namespace Signature

/-- A name lies in front of what follows its run. -/
lemma readFront_place {text name : List Char} {before : Nat}
    (h : (readFront text).1 = some (name, before)) :
    before ≤ text.length - (readFront text).2.length := by
  have hrun : (text.takeWhile isHeadChar).length + (text.dropWhile isHeadChar).length
      = text.length := by
    rw [← List.length_append, List.takeWhile_append_dropWhile]
  have hrest := (readAfter_standsAt (text.takeWhile isHeadChar) (text.dropWhile isHeadChar)).1
  have hbefore : before < (text.takeWhile isHeadChar).length :=
    ((readAfter_standsAt _ _).2 name before h).place_lt
  have hlength : (readFront text).2.length ≤ (text.dropWhile isHeadChar).length :=
    hrest.length_le
  omega

/-- Signatures are found in the order of their places.

**Proof sketch.** Induction on the search: it goes on behind the run in which the name lies. -/
lemma allFrom_pairwise (place : Nat) (text : List Char) :
    (allFrom place text).Pairwise (·.place ≤ ·.place)
      ∧ ∀ s ∈ allFrom place text, place ≤ s.place := by
  fun_induction allFrom place text with
  | case1 => exact ⟨.nil, List.forall_mem_nil _⟩
  | case2 place c text front ih =>
    obtain ⟨horder, hbehind⟩ := ih
    cases hfront : front.1 with
    | none =>
      refine ⟨horder, fun s hs => ?_⟩
      have := hbehind s hs
      omega
    | some found =>
      obtain ⟨name, before⟩ := found
      have hbefore : before ≤ (c :: text).length - front.2.length := readFront_place hfront
      constructor
      · refine List.pairwise_cons.2 ⟨fun s hs => ?_, horder⟩
        have := hbehind s hs
        dsimp only
        omega
      · intro s hs
        rcases List.mem_cons.1 hs with rfl | hs
        · exact Nat.le_add_right place before
        · have := hbehind s hs
          omega

/-- **Signatures are found in the order of their places.** -/
theorem all_pairwise (text : List Char) : (all text).Pairwise (·.place ≤ ·.place) :=
  (allFrom_pairwise 0 text).1

end Signature

/-- A place further on is on no smaller line. -/
lemma Place.line_mono (text : List Char) {place place' : Nat} (h : place ≤ place') :
    line text place ≤ line text place' := by
  have hfront : text.take place <+: text.take place' := List.take_prefix_take_left h
  exact hfront.sublist.count_le '\n'

/-! ## C and C++ sources -/

namespace CFamily

/-- What is found in a text stands in the order of the lines. -/
structure Reading.Ordered (r : Reading) : Prop where
  /-- The name spaces do. -/
  nameSpaces : r.nameSpaces.Pairwise (·.2 ≤ ·.2)
  /-- The classes do. -/
  bodies : r.bodies.Pairwise (·.line ≤ ·.line)
  /-- The functions do. -/
  functions : r.functions.Pairwise (·.2 ≤ ·.2)
  /-- The text substitutions do. -/
  macros : r.macros.Pairwise (·.2 ≤ ·.2)

/-- What is found in a text is in order. -/
lemma Reading.ordered_ofText (text : List Char) : (ofText text).Ordered where
  nameSpaces := by
    refine List.pairwise_map.2 (((Definition.all_pairwise text).filter _).imp fun h => ?_)
    exact Place.line_mono text h
  bodies := by
    refine List.pairwise_map.2 (((Definition.all_pairwise text).filter _).imp fun h => ?_)
    exact Place.line_mono text h
  functions := by
    refine List.pairwise_map.2 (((Signature.all_pairwise text).filter _).imp fun h => ?_)
    exact Place.line_mono text h
  macros := by
    refine eachLine_pairwise Prod.snd (fun i content found hfound => ?_) (splitLines text)
    obtain ⟨name, -, rfl⟩ := Option.map_eq_some_iff.1 (Option.mem_toList.1 hfound)
    rfl

/-- The name and the line of each function that belongs to an owner. -/
def Reading.leavesOf (owner : Option Nat) (r : Reading) : List (String × Nat) :=
  (r.functions.filter fun f => f.1.owner == owner).map fun f => (.ofList f.1.name, f.2)

/-- The functions of an owner are marked as leaves. -/
lemma Reading.functionsOf_eq (kind : Kind) (owner : Option Nat) (r : Reading) :
    r.functionsOf kind owner = (r.leavesOf owner).map fun leaf => .leaf kind leaf.1 leaf.2 := by
  rw [functionsOf, leavesOf, List.map_map]
  rfl

/-- The leaves of an owner stand in the order of their lines. -/
lemma Reading.Ordered.leavesOf {r : Reading} (hr : r.Ordered) (owner : Option Nat) :
    (r.leavesOf owner).Pairwise (·.2 ≤ ·.2) :=
  List.pairwise_map.2 (hr.functions.filter _)

/-- The block of a class. -/
def Reading.bodyBlock (r : Reading) (index : Nat) (body : Body) : Block where
  kind := .classes
  line := body.line
  marks := .enter body.header
    :: (((r.leavesOf (some index)).map fun leaf => .leaf .methods leaf.1 leaf.2) ++ [.leave])

/-- The blocks of what is found: each class with its members is one, and each other mark. -/
def Reading.blocks (r : Reading) : List Block :=
  r.nameSpaces.map (fun n => ⟨.namespaces, n.2, [.once .namespaces (.ofList n.1) n.2]⟩)
    ++ (r.leavesOf none).map (fun leaf => ⟨.functions, leaf.2, [.leaf .functions leaf.1 leaf.2]⟩)
    ++ r.bodies.mapIdx r.bodyBlock
    ++ r.macros.map (fun m => ⟨.macros, m.2, [.leaf .macros (.ofList m.1) m.2]⟩)

/-- The marks of a text are those of its blocks. -/
lemma Reading.marks_eq_blocks (r : Reading) : r.marks = r.blocks.flatMap Block.marks := by
  have hbodies : (r.bodies.mapIdx fun index body =>
      Mark.enter body.header :: (r.functionsOf .methods (some index) ++ [.leave])).flatten
        = (r.bodies.mapIdx r.bodyBlock).flatMap Block.marks := by
    rw [List.flatMap_def, List.mapIdx_eq_zipIdx_map, List.mapIdx_eq_zipIdx_map, List.map_map]
    congr 2
    funext ⟨body, index⟩
    simp only [Function.comp, functionsOf_eq]
    rfl
  rw [Reading.marks, Reading.blocks, List.flatMap_append, List.flatMap_append, List.flatMap_append,
    hbodies, functionsOf_eq, List.flatMap_map, List.flatMap_map, List.flatMap_map, List.map_eq_flatMap,
    List.map_eq_flatMap, List.map_eq_flatMap]

/-- Each block of a text is filed as blocks are. -/
lemma Reading.files_blocks {r : Reading} (hr : r.Ordered) : ∀ b ∈ r.blocks, b.Files := by
  intro b hb
  simp only [Reading.blocks, List.mem_append] at hb
  rcases hb with ((hb | hb) | hb) | hb
  · obtain ⟨n, -, rfl⟩ := List.mem_map.1 hb
    exact Block.files_once _ _ _
  · obtain ⟨leaf, -, rfl⟩ := List.mem_map.1 hb
    exact Block.files_leaf _ _ _
  · obtain ⟨i, hi, rfl⟩ := List.mem_mapIdx.1 hb
    exact Block.files_class rfl (hr.leavesOf (some i))
  · obtain ⟨m, -, rfl⟩ := List.mem_map.1 hb
    exact Block.files_leaf _ _ _

/-- The blocks are in order: each kind is found in the order of its lines.

**Proof sketch.** The blocks are those of four kinds, one kind after the other. -/
lemma Reading.pairwise_blocks {r : Reading} (hr : r.Ordered) :
    r.blocks.Pairwise Block.Precedes := by
  have hbodies : (r.bodies.mapIdx r.bodyBlock).Pairwise (·.line ≤ ·.line) := by
    refine List.pairwise_iff_getElem.2 fun i j hi hj hij => ?_
    rw [List.getElem_mapIdx, List.getElem_mapIdx]
    rw [List.length_mapIdx] at hi hj
    exact List.pairwise_iff_getElem.1 hr.bodies i j hi hj hij
  have hclasses : ∀ b ∈ r.bodies.mapIdx r.bodyBlock, b.kind = .classes := by
    intro b hb
    obtain ⟨_, _, rfl⟩ := List.mem_mapIdx.1 hb
    rfl
  have harranged : Block.Arranged [.macros, .classes, .functions, .namespaces] r.blocks := by
    refine (((Block.arranged_nil.append ?_ ?_ ?_).append ?_ ?_ ?_).append ?_ hclasses hbodies).append
      ?_ ?_ ?_
    · decide
    · exact List.forall_mem_map.2 fun _ _ => rfl
    · exact List.pairwise_map.2 hr.nameSpaces
    · decide
    · exact List.forall_mem_map.2 fun _ _ => rfl
    · exact List.pairwise_map.2 (hr.leavesOf none)
    · decide
    · decide
    · exact List.forall_mem_map.2 fun _ _ => rfl
    · exact List.pairwise_map.2 hr.macros
  exact harranged.order

/-- **The groups of a source ascend**, those of its classes too. -/
theorem ofMarks_ascends (legend : Legend) (lines : List (List Char)) :
    (Document.ofMarks legend (marks lines)).scope.Ascends
      ∧ (Document.ofMarks legend (marks lines)).Throughout Ascending := by
  have hordered := Reading.ordered_ofText (Masking.mask (joinLines lines))
  rw [marks, Reading.marks_eq_blocks]
  exact Document.ofBlocks_ascends legend (Reading.files_blocks hordered)
    (Reading.pairwise_blocks hordered)

end CFamily

end Outliner
