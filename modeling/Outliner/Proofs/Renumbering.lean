import Outliner.Draft
import Outliner.Proofs.Display

set_option autoImplicit false

/-!
# Other line numbers

What marks make of a document does not depend on the lines they name: no operation compares lines or
counts with them. So if all lines are numbered in another way, the same document comes out, with the
other numbers.

## Main definitions

* `Outliner.Element.renumber`, `Outliner.Document.renumber`, `Outliner.Mark.renumber` — an element,
  a document and a mark with other line numbers.

## Main results

* `Outliner.Draft.mark_renumber`, `Outliner.Draft.marks_renumber` — a mark, and a list of marks,
  does the same to a draft under other numbers.
* `Outliner.Document.ofMarks_renumber` — so does a whole source.
-/

namespace Outliner

variable (f : Nat → Nat)

/-! ## Definitions -/

/-- The tag with the line that `f` tells. -/
def Tag.renumber (tag : Tag) : Tag := { tag with line := f tag.line }

namespace Element

mutual

/-- The tree with the lines that `f` tells. -/
def renumber : Element → Element
  | leaf tag => leaf (tag.renumber f)
  | branch tag ⟨groups, descriptions, priorities⟩ =>
    branch (tag.renumber f) ⟨renumberGroups groups, descriptions, priorities⟩

/-- The groups with the lines that `f` tells. -/
def renumberGroups : List (Group Element) → List (Group Element)
  | [] => []
  | ⟨kind, items⟩ :: groups => ⟨kind, renumberItems items⟩ :: renumberGroups groups

/-- The elements with the lines that `f` tells. -/
def renumberItems : List Element → List Element
  | [] => []
  | e :: items => e.renumber :: renumberItems items

end

end Element

/-- The class with the lines that `f` tells. -/
def Class.renumber (c : Class) : Class := ⟨c.tag.renumber f, c.members.map (Element.renumber f)⟩

/-- The document with the lines that `f` tells. -/
def Document.renumber (d : Document) : Document :=
  { d with scope := d.scope.map (Element.renumber f) }

/-- The header with the line that `f` tells. -/
def Header.renumber (header : Header) : Header := { header with tag := header.tag.renumber f }

/-- The mark with the line that `f` tells. -/
def Mark.renumber : Mark → Mark
  | .leaf kind name line => .leaf kind name (f line)
  | .atTop kind name line => .atTop kind name (f line)
  | .once kind name line => .once kind name (f line)
  | .enter header => .enter (header.renumber f)
  | .leave => .leave
  | .forget => .forget
  | .method owner name line => .method owner name (f line)
  | .qualified owner owned free name line => .qualified owner owned free name (f line)

/-- The open class with the lines that `f` tells. -/
def OpenClass.renumber (o : OpenClass) : OpenClass := ⟨o.group, o.body.renumber f⟩

/-- The draft with the lines that `f` tells. -/
def Draft.renumber (d : Draft) : Draft :=
  ⟨d.document.renumber f, d.opened.map (OpenClass.renumber f)⟩

/-! ## Elements and classes -/

namespace Element

/-- The items of a group are renumbered one by one. -/
lemma renumberItems_eq_map (items : List Element) :
    renumberItems f items = items.map (renumber f) := by
  induction items with
  | nil => simp [renumberItems]
  | cons e items ih => simp [renumberItems, ih]

/-- The groups of a scope are renumbered one by one. -/
lemma renumberGroups_eq_map (groups : List (Group Element)) :
    renumberGroups f groups
      = groups.map fun group => ⟨group.kind, group.items.map (renumber f)⟩ := by
  induction groups with
  | nil => simp [renumberGroups]
  | cons group groups ih => simp [renumberGroups, ih, renumberItems_eq_map]

/-- A leaf under other numbers. -/
@[simp] lemma renumber_leaf (tag : Tag) : (leaf tag).renumber f = leaf (tag.renumber f) := by
  rw [renumber]

/-- A branch under other numbers, with its members. -/
@[simp] lemma renumber_branch (tag : Tag) (members : Scope Element) :
    (branch tag members).renumber f = branch (tag.renumber f) (members.map (renumber f)) := by
  rw [renumber, renumberGroups_eq_map, Scope.map]

/-- The tag of an element is renumbered with it. -/
@[simp] lemma tag_renumber (e : Element) : (e.renumber f).tag = e.tag.renumber f := by
  cases e with
  | leaf tag => rw [renumber_leaf]; rfl
  | branch tag members => rw [renumber_branch]; rfl

/-- Other numbers leave the name alone. -/
@[simp] lemma name_renumber (e : Element) : Named.name (e.renumber f) = Named.name e := by
  show (e.renumber f).tag.name = e.tag.name
  rw [tag_renumber]
  rfl

/-- An element under other numbers is a class if it was one. -/
lemma class?_renumber (e : Element) : (e.renumber f).class? = e.class?.map (Class.renumber f) := by
  cases e with
  | leaf tag => rw [renumber_leaf]; rfl
  | branch tag members => rw [renumber_branch]; rfl

/-- Other numbers leave scopes alone. -/
lemma renumber_withinScope (scope : String) (e : Element) :
    (e.withinScope scope).renumber f = (e.renumber f).withinScope scope := by
  cases e with
  | leaf tag => rw [withinScope, renumber_leaf, renumber_leaf]; rfl
  | branch tag members => rw [withinScope, renumber_branch, renumber_branch]; rfl

/-- A class under other numbers, as an element. -/
@[simp] lemma renumber_ofClass (c : Class) :
    (ofClass c).renumber f = ofClass (c.renumber f) := renumber_branch f c.tag c.members

/-- A change of classes that goes with the other numbers goes with them where it is applied to an
element. -/
lemma renumber_modifyClass {change change' : Class → Class}
    (h : ∀ c, (change c).renumber f = change' (c.renumber f)) (e : Element) :
    (e.modifyClass change).renumber f = (e.renumber f).modifyClass change' := by
  cases e with
  | leaf tag => rw [modifyClass, renumber_leaf]; rfl
  | branch tag members =>
    rw [modifyClass, renumber_ofClass, renumber_branch, h]
    rfl

end Element

/-! ## Scopes -/

namespace Scope

variable {α β : Type} (g : α → β)

/-- Mapping an item that is added to a scope. -/
lemma map_add (kind : Kind) (item : α) (s : Scope α) :
    (s.add kind item).map g = (s.map g).add kind (g item) := by
  obtain ⟨groups, descriptions, priorities⟩ := s
  simp only [add, map, mk.injEq, and_self, and_true]
  induction groups with
  | nil => simp [Group.file]
  | cons group groups ih =>
    by_cases hkind : group.kind = kind
    · simp [Group.file, hkind]
    · simp [Group.file, hkind, ih]

/-- Mapping an item that is changed within a scope.

**Proof sketch.** Two inductions, on the groups of the scope and on the items of the group that is
changed, because the change is made at one index of one group. -/
lemma map_modifyAt {change : α → α} {change' : β → β} (h : ∀ a, g (change a) = change' (g a))
    (kind : Kind) (index : Nat) (s : Scope α) :
    (s.modifyAt kind index change).map g = (s.map g).modifyAt kind index change' := by
  have hitems : ∀ items : List α,
      (items.modify index change).map g = (items.map g).modify index change' := by
    intro items
    induction items generalizing index with
    | nil => simp
    | cons a items ih =>
      cases index with
      | zero => simp [h]
      | succ index => simp [ih]
  obtain ⟨groups, descriptions, priorities⟩ := s
  simp only [modifyAt, modify, map, mk.injEq, and_self, and_true]
  induction groups with
  | nil => rfl
  | cons group groups ih =>
    by_cases hkind : group.kind = kind
    · simp [Group.revise, hkind, hitems]
    · simp [Group.revise, hkind, ih]

/-- Where names are kept, a scope contains the same names. -/
lemma contains_map [Named α] [Named β] (hname : ∀ a, Named.name (g a) = Named.name a) (kind : Kind)
    (name : String) (s : Scope α) : (s.map g).contains kind name = s.contains kind name := by
  simp only [contains, Named.occurs, get_map, List.any_map]
  congr 1
  funext item
  rw [Function.comp_apply, hname]

end Scope

namespace Class

/-- A class that begins has its tag under other numbers. -/
lemma renumber_empty (tag : Tag) : (empty tag).renumber f = empty (tag.renumber f) := rfl

/-- A member is added to a class under its other number. -/
lemma renumber_add (kind : Kind) (member : Element) (c : Class) :
    (c.add kind member).renumber f = (c.renumber f).add kind (member.renumber f) := by
  rw [add, add, renumber, Scope.map_add, Element.renumber_withinScope]
  rfl

end Class

/-- A header under another number makes a class under another number. -/
lemma Header.toClass_renumber (header : Header) :
    (header.renumber f).toClass = header.toClass.renumber f := by
  suffices h : ∀ (labels : List (Kind × String)) (c : Class),
      labels.foldl (fun c label => c.modifyMembers (·.describe label.1 label.2)) (c.renumber f)
        = (labels.foldl (fun c label => c.modifyMembers (·.describe label.1 label.2)) c).renumber f from
    h header.labels (.empty header.tag)
  intro labels
  induction labels with
  | nil => exact fun c => rfl
  | cons label labels ih => exact fun c => ih (c.modifyMembers (·.describe label.1 label.2))

/-! ## Documents -/

namespace Document

/-- The elements under a kind are renumbered. -/
@[simp] lemma get_renumber (kind : Kind) (d : Document) :
    (d.renumber f).scope.get kind = (d.scope.get kind).map (Element.renumber f) :=
  Scope.get_map _ _ kind

/-- An element is added to a document under its other number. -/
lemma renumber_add (kind : Kind) (e : Element) (d : Document) :
    (d.add kind e).renumber f = (d.renumber f).add kind (e.renumber f) := by
  rw [add, renumber, Scope.map_add]
  rfl

/-- A class is added to a document under its other number. -/
lemma renumber_addClass (c : Class) (d : Document) :
    (d.addClass c).renumber f = (d.renumber f).addClass (c.renumber f) := by
  rw [addClass, renumber, Scope.map_add, Element.renumber_ofClass, addClass, get_renumber,
    List.length_map]
  rfl

/-- Other numbers leave alone which class is the last one. -/
lemma renumber_forgetLastClass (d : Document) :
    d.forgetLastClass.renumber f = (d.renumber f).forgetLastClass := rfl

/-- Other numbers leave alone which names are under a kind. -/
lemma contains_renumber (kind : Kind) (name : String) (d : Document) :
    (d.renumber f).contains kind name = d.contains kind name :=
  Scope.contains_map _ (Element.name_renumber f) kind name d.scope

/-- Other numbers leave alone which class is called by a name. -/
lemma isClassNamed_renumber (name : String) (e : Element) :
    isClassNamed name (e.renumber f) = isClassNamed name e := by
  rw [isClassNamed, Element.class?_renumber, Option.any_map]
  rfl

/-- The classes of a name are where they were. -/
lemma classIndex?_renumber (name : String) (d : Document) :
    (d.renumber f).classIndex? name = d.classIndex? name := by
  rw [classIndex?, get_renumber, List.findIdx?_map, classIndex?]
  congr 1
  funext e
  exact isClassNamed_renumber f name e

/-- Other numbers leave alone whether a class is called by a name. -/
lemma isSome_classNamed?_renumber (name : String) (d : Document) :
    ((d.renumber f).classNamed? name).isSome = (d.classNamed? name).isSome := by
  rw [classNamed?_eq_bind, classNamed?_eq_bind, classIndex?_renumber, get_renumber]
  cases d.classIndex? name with
  | none => rfl
  | some index =>
    rw [Option.bind_some, Option.bind_some, List.getElem?_map]
    cases (d.scope.get .classes)[index]? with
    | none => rfl
    | some e => simp [Element.class?_renumber]

/-- A change of a class that goes with the other numbers goes with them where it is applied to the
first class of a name. -/
lemma renumber_modifyClassNamed {change change' : Class → Class}
    (h : ∀ c, (change c).renumber f = change' (c.renumber f)) (name : String) (d : Document) :
    (d.modifyClassNamed name change).renumber f
      = (d.renumber f).modifyClassNamed name change' := by
  rw [modifyClassNamed, modifyClassNamed, classIndex?_renumber]
  cases d.classIndex? name with
  | none => rfl
  | some index =>
    simp only [modifyClassAt, renumber]
    rw [Scope.map_modifyAt _ (Element.renumber_modifyClass f h)]

/-- The descriptions of a legend have no line numbers.

**Proof sketch.** Induction on the legend, from any document that other numbers leave alone, because
each entry of the legend is added to what the ones before it made. -/
lemma renumber_withLegend (legend : Legend) :
    (withLegend legend).renumber f = withLegend legend := by
  suffices h : ∀ (legend : Legend) (d : Document), d.renumber f = d →
      (legend.foldl (fun d entry =>
        (d.describe entry.kind entry.description).prioritise entry.kind entry.priority) d).renumber f
        = legend.foldl (fun d entry =>
          (d.describe entry.kind entry.description).prioritise entry.kind entry.priority) d from
    h legend {} rfl
  intro legend
  induction legend with
  | nil => exact fun d hd => hd
  | cons entry legend ih =>
    refine fun d hd => ih _ ?_
    have hdescribed := congrArg
      (fun d : Document =>
        (d.describe entry.kind entry.description).prioritise entry.kind entry.priority) hd
    exact hdescribed

end Document

/-! ## Drafts -/

namespace Draft

/-- A leaf is made under the other number. -/
lemma renumber_leafOf (kind : Kind) (name : String) (line : Nat) :
    (leafOf kind name line).renumber f = leafOf kind name (f line) :=
  Element.renumber_leaf f _

/-- An element is filed under its other number. -/
lemma renumber_file (kind : Kind) (e : Element) (d : Draft) :
    (d.file kind e).renumber f = (d.renumber f).file kind (e.renumber f) := by
  obtain ⟨document, opened⟩ := d
  cases opened with
  | nil =>
    rw [file, renumber, Document.renumber_add]
    rfl
  | cons innermost outer =>
    simp only [file, renumber, List.map_cons, OpenClass.renumber, Class.renumber_add]

/-- The open class is left under other numbers. -/
lemma renumber_leave (d : Draft) : d.leave.renumber f = (d.renumber f).leave := by
  obtain ⟨document, opened⟩ := d
  match opened with
  | [] => rfl
  | [innermost] =>
    by_cases hgroup : innermost.group = .classes
    · simp only [leave, renumber, List.map_cons, List.map_nil, OpenClass.renumber, hgroup, if_true,
        Document.renumber_addClass]
    · simp only [leave, renumber, List.map_cons, List.map_nil, OpenClass.renumber, hgroup, if_false,
        Document.renumber_add, Element.renumber_ofClass]
  | innermost :: next :: outer =>
    rw [leave, renumber_file, Element.renumber_ofClass]
    rfl

/-- A class to which a leaf is added, under other numbers. -/
lemma renumber_add_leafOf (kind : Kind) (name : String) (line : Nat) (c : Class) :
    (c.add kind (leafOf kind name line)).renumber f
      = (c.renumber f).add kind (leafOf kind name (f line)) := by
  rw [Class.renumber_add, renumber_leafOf]

/-- **A mark does the same under other numbers.**

**Proof sketch.** By cases on the mark. Whether a name is there already, and whether a class is
called by a name, does not depend on the numbers; what is added or entered is renumbered. -/
theorem mark_renumber (d : Draft) (m : Mark) :
    (d.mark m).renumber f = (d.renumber f).mark (m.renumber f) := by
  cases m with
  | leaf kind name line =>
    rw [mark, renumber_file, renumber_leafOf]
    rfl
  | atTop kind name line =>
    rw [mark, renumber, Document.renumber_add, renumber_leafOf]
    rfl
  | once kind name line =>
    have hcontains : (d.renumber f).document.contains kind name = d.document.contains kind name :=
      Document.contains_renumber f kind name d.document
    rw [mark, Mark.renumber, mark, hcontains]
    split
    · rfl
    · rw [renumber, Document.renumber_add, renumber_leafOf]
      rfl
  | enter header =>
    rw [mark, Mark.renumber, mark, Header.toClass_renumber]
    rfl
  | leave => exact renumber_leave f d
  | forget => rfl
  | method owner name line =>
    have hsome : ((d.renumber f).document.classNamed? owner).isSome
        = (d.document.classNamed? owner).isSome :=
      Document.isSome_classNamed?_renumber f owner d.document
    simp only [mark, Mark.renumber, hsome]
    rw [renumber, Document.renumber_modifyClassNamed f (renumber_add_leafOf f .methods name line)]
    split
    · rfl
    · rw [Document.renumber_addClass, Class.renumber_empty]
      rfl
  | qualified owner owned free name line =>
    have hsome : ((d.renumber f).document.classNamed? owner).isSome
        = (d.document.classNamed? owner).isSome :=
      Document.isSome_classNamed?_renumber f owner d.document
    simp only [mark, Mark.renumber, hsome]
    split
    · rw [renumber, Document.renumber_modifyClassNamed f (renumber_add_leafOf f owned name line)]
      rfl
    · rw [renumber_file, renumber_leafOf]

/-- Marks do the same under other numbers.

**Proof sketch.** Induction on the marks, with `mark_renumber` for the first one. -/
theorem marks_renumber (d : Draft) (list : List Mark) :
    (d.marks list).renumber f = (d.renumber f).marks (list.map (Mark.renumber f)) := by
  induction list generalizing d with
  | nil => rfl
  | cons m list ih => rw [marks_cons, ih, mark_renumber, List.map_cons, marks_cons]

/-- What is open at the end is filed under other numbers. -/
lemma finish_renumber (d : Draft) : d.finish.renumber f = (d.renumber f).finish := by
  have hleave : (List.replicate d.opened.length Mark.leave).map (Mark.renumber f)
      = List.replicate d.opened.length .leave := List.map_replicate
  have hlength : (d.renumber f).opened.length = d.opened.length := List.length_map _
  have hmarks := marks_renumber f d (List.replicate d.opened.length .leave)
  rw [hleave] at hmarks
  rw [finish, finish, hlength, ← hmarks]
  rfl

end Draft

/-- **Marks with other numbers make the same document with the other numbers.** -/
theorem Document.ofMarks_renumber (legend : Legend) (list : List Mark) :
    ofMarks legend (list.map (Mark.renumber f)) = (ofMarks legend list).renumber f := by
  have hstart : Draft.renumber f { document := withLegend legend }
      = { document := withLegend legend } := by
    rw [Draft.renumber, renumber_withLegend]
    rfl
  rw [ofMarks, ofMarks, Draft.finish_renumber, Draft.marks_renumber, hstart]

end Outliner
