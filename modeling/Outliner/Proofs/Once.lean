import Mathlib.Order.Bounds.Basic
import Mathlib.Order.ConditionallyCompleteLattice.Basic
import Mathlib.Order.Lattice.Nat
import Outliner.Proofs.Built
import Outliner.Proofs.Order.Marks
import Outliner.Proofs.Reading

set_option autoImplicit false

/-!
# Elements that are reported once

Under some kinds a name is reported once, however often it is met. Each time it is met, the group is
searched for it, and it is filed if it is not there. The group therefore has no name twice; and
since the lines of a source are read in order, each name stands there with the first of the lines on
which it was met.

Classes that are known by their methods alone are reported in the same way: the first method of a
class is met before the class is there, and the class begins with it.

## Main definitions

* `Outliner.FirstMet` — entries that have each name once, with the first of its lines.
* `Outliner.FirstLeaves`, `Outliner.FirstMethods` — groups with such entries: of leaves, and of
  classes that begin with a method.
* `Outliner.metOn`, `Outliner.methodOn` — the lines on which a name, and a method of an owner, is
  met.
* `Outliner.Mark.OnceUnder`, `Outliner.Mark.OnceBefore`, `Outliner.Mark.ByMethod` — what the marks
  of a source have to be like for this.

## Main results

* `Outliner.FirstMet.once` — the search before filing keeps the entries as they should be.
* `Outliner.Document.firstLeaves_ofMarks`, `Outliner.Document.firstMethods_ofMarks` — the groups of
  a document are such groups.
-/

namespace Outliner

/-! ## Groups -/

/-- The name and the line of an element. -/
def Element.entry (e : Element) : String × Nat := (e.name, e.tag.line)

/-- There is one entry for each name that was met, with the first of the lines on which it was
met. -/
structure FirstMet (met : String → Set Nat) (entries : List (String × Nat)) : Prop where
  /-- No two entries have one name. -/
  nodup : (entries.map Prod.fst).Nodup
  /-- The entries are the names that were met, each with the first of its lines. -/
  mem_iff : ∀ name line, (name, line) ∈ entries ↔ IsLeast (met name) line

/-- An item with a value of its own can be added to items with values of their own. -/
lemma nodup_map_concat {α β : Type} {f : α → β} {l : List α} {a : α} (h : (l.map f).Nodup)
    (hnew : f a ∉ l.map f) : ((l ++ [a]).map f).Nodup := by
  rw [List.map_append, List.nodup_append]
  refine ⟨h, List.nodup_singleton _, fun x hx y hy heq => hnew ?_⟩
  obtain rfl := List.mem_singleton.1 hy
  exact heq ▸ hx

/-- A line that is not the first one does not count. -/
lemma isLeast_insert_iff {s : Set Nat} {line line' : Nat} (h : ∃ first, IsLeast s first)
    (hlast : ∀ l ∈ s, l ≤ line) : IsLeast (insert line s) line' ↔ IsLeast s line' := by
  obtain ⟨first, hfirst⟩ := h
  have hinsert : IsLeast (insert line s) first := by
    refine ⟨Set.mem_insert_of_mem line hfirst.1, fun l hl => ?_⟩
    rcases Set.mem_insert_iff.1 hl with rfl | hl
    · exact hlast first hfirst.1
    · exact hfirst.2 hl
  constructor
  · intro hline
    rwa [hline.unique hinsert]
  · intro hline
    rwa [hline.unique hfirst]

namespace FirstMet

variable {met met' : String → Set Nat} {entries entries' : List (String × Nat)} {name : String}
  {line : Nat}

/-- Where nothing was met, there is no entry. -/
lemma empty (hmet : ∀ n, met n = ∅) : FirstMet met [] :=
  ⟨List.nodup_nil, fun n l => by simp [hmet, IsLeast]⟩

/-- A name has an entry if it was met at all. -/
lemma mem_names_iff (h : FirstMet met entries) (name : String) :
    name ∈ entries.map Prod.fst ↔ ∃ line, IsLeast (met name) line := by
  simp [← h.mem_iff]

/-- A name that has an entry already gets no other. -/
lemma of_met (h : FirstMet met entries) (hmet : ∃ first, IsLeast (met name) first)
    (hlast : ∀ l ∈ met name, l ≤ line) (hhere : met' name = insert line (met name))
    (helse : ∀ n, n ≠ name → met' n = met n) : FirstMet met' entries := by
  refine ⟨h.nodup, fun n l => (h.mem_iff n l).trans ?_⟩
  by_cases hn : n = name
  · rw [hn, hhere, isLeast_insert_iff hmet hlast]
  · rw [helse n hn]

/-- A name that is met for the first time gets an entry with its line.

**Proof sketch.** The name was not met before, so the set of its lines is the one line, which is the
least one. Nothing changes for the other names. -/
lemma of_new (h : FirstMet met entries) (hnew : ¬∃ first, IsLeast (met name) first)
    (hhere : met' name = insert line (met name)) (helse : ∀ n, n ≠ name → met' n = met n) :
    FirstMet met' (entries ++ [(name, line)]) := by
  have hempty : met name = ∅ := by
    by_contra hmet
    exact hnew ⟨_, isLeast_csInf (Set.nonempty_iff_ne_empty.2 hmet)⟩
  refine ⟨nodup_map_concat h.nodup fun hname => hnew ((h.mem_names_iff name).1 hname), ?_⟩
  intro n l
  rw [List.mem_append, List.mem_singleton, Prod.mk.injEq, h.mem_iff]
  by_cases hn : n = name
  · subst hn
    have hfirst : IsLeast (met' n) l ↔ l = line := by
      rw [hhere, hempty, insert_empty_eq]
      exact ⟨fun hl => hl.unique isLeast_singleton, fun hl => hl ▸ isLeast_singleton⟩
    rw [hfirst]
    exact ⟨fun hl => hl.elim (fun hl => absurd ⟨l, hl⟩ hnew) And.right, fun hl => .inr ⟨rfl, hl⟩⟩
  · rw [helse n hn]
    exact ⟨fun hl => hl.resolve_right fun heq => hn heq.1, .inl⟩

/-- **Searching for a name before filing it keeps the entries as they should be**, if the line is
not smaller than those on which the name was met before. -/
theorem once (h : FirstMet met entries) (hlast : ∀ l ∈ met name, l ≤ line)
    (hhere : met' name = insert line (met name)) (helse : ∀ n, n ≠ name → met' n = met n)
    (hold : name ∈ entries.map Prod.fst → entries' = entries)
    (hnew : name ∉ entries.map Prod.fst → entries' = entries ++ [(name, line)]) :
    FirstMet met' entries' := by
  by_cases hname : name ∈ entries.map Prod.fst
  · rw [hold hname]
    exact h.of_met ((h.mem_names_iff name).1 hname) hlast hhere helse
  · rw [hnew hname]
    exact h.of_new (fun hmet => hname ((h.mem_names_iff name).2 hmet)) hhere helse

/-- No two elements with these entries have one name. -/
lemma nodup_names {group : List Element} (h : FirstMet met (group.map Element.entry)) :
    (group.map Element.name).Nodup := by
  have hnodup := h.nodup
  rwa [List.map_map] at hnodup

end FirstMet

/-- A name is found in a group if it has an entry there. -/
lemma Named.occurs_iff_mem_names (name : String) (group : List Element) :
    Named.occurs name group ↔ name ∈ (group.map Element.entry).map Prod.fst := by
  simp [Named.occurs, Element.entry, Named.name]

/-- The group of a kind has one leaf for each name that was met, with the first of the lines on
which it was met. -/
structure FirstLeaves (kind : Kind) (met : String → Set Nat) (group : List Element) : Prop where
  /-- Each name is there once. -/
  entries : FirstMet met (group.map Element.entry)
  /-- The elements are leaves. -/
  leaves : ∀ e ∈ group, e = Draft.leafOf kind e.name e.tag.line

/-- The group holds a leaf for each name, with the first line on which it was met. -/
lemma FirstLeaves.mem_iff {kind : Kind} {met : String → Set Nat} {group : List Element}
    (h : FirstLeaves kind met group) (e : Element) :
    e ∈ group ↔ ∃ name line, e = Draft.leafOf kind name line ∧ IsLeast (met name) line := by
  constructor
  · intro he
    exact ⟨e.name, e.tag.line, h.leaves e he, (h.entries.mem_iff _ _).1 (List.mem_map_of_mem he)⟩
  · rintro ⟨name, line, rfl, hline⟩
    obtain ⟨e, he, hentry⟩ := List.mem_map.1 ((h.entries.mem_iff name line).2 hline)
    obtain ⟨rfl, rfl⟩ := Prod.mk.inj hentry
    exact h.leaves e he ▸ he

/-! ## Marks -/

/-- What the mark reports under the kind it reports once. -/
def Mark.OnceUnder (kind : Kind) (m : Mark) : Prop :=
  (m.All fun r => r.group ≠ kind) ∨ ∃ name line, m = .once kind name line

/-- What the marks report once under the kind stands in the order of the lines. -/
def Mark.OnceBefore (kind : Kind) (m m' : Mark) : Prop :=
  ∀ name line name' line', m = .once kind name line → m' = .once kind name' line' → line ≤ line'

/-- The lines on which a name is met, by the marks of a source. -/
def metOn (kind : Kind) (list : List Mark) (name : String) : Set Nat :=
  {line | Mark.once kind name line ∈ list}

/-- Marks that come in the right order report in the order of the lines. -/
lemma onceBefore_of_precedes {entered : Kind → Prop} {list : List Mark} {kind : Kind}
    (h : list.Pairwise (Mark.Precedes entered)) : list.Pairwise (Mark.OnceBefore kind) := by
  refine h.imp fun hle => ?_
  rintro name line name' line' rfl rfl
  exact hle _ (List.mem_singleton_self _) _ (List.mem_singleton_self _) (.inl rfl)

namespace Draft

variable {kind : Kind} {d : Draft}

/-- A draft whose group of the kind lists what is met once, and in which no class is open that will
be filed under the kind. -/
structure ListsFirst (kind : Kind) (met : String → Set Nat) (d : Draft) : Prop where
  /-- The group is as it should be. -/
  group : FirstLeaves kind met (d.document.get kind)
  /-- Nothing else will come to it. -/
  opened : kind ∉ d.opened.map OpenClass.group

/-- The group of the kind is left alone, and nothing is opened that will be filed there. -/
structure Spares (kind : Kind) (d d' : Draft) : Prop where
  /-- The group is the same. -/
  group : d'.document.get kind = d.document.get kind
  /-- Nothing will come to it. -/
  opened : kind ∉ d'.opened.map OpenClass.group

/-- Filing under another kind leaves the group alone. -/
lemma spares_file {other : Kind} (hother : other ≠ kind) (e : Element)
    (hopened : kind ∉ d.opened.map OpenClass.group) : d.Spares kind (d.file other e) := by
  obtain ⟨document, opened⟩ := d
  cases opened with
  | nil =>
    exact ⟨by simp [file, Document.get, Document.add, Scope.get_add, hother.symm], hopened⟩
  | cons innermost outer => exact ⟨rfl, hopened⟩

/-- Leaving a class leaves the group alone.

**Proof sketch.** If another class is open, the class is filed there. If none is, it is added to the
document under its own kind, which is another one. -/
lemma spares_leave (hopened : kind ∉ d.opened.map OpenClass.group) : d.Spares kind d.leave := by
  obtain ⟨document, opened⟩ := d
  cases opened with
  | nil => exact ⟨rfl, hopened⟩
  | cons innermost outer =>
    rw [List.map_cons, List.mem_cons, not_or] at hopened
    obtain ⟨hinnermost, houter⟩ := hopened
    cases outer with
    | nil =>
      refine ⟨?_, houter⟩
      by_cases hclass : innermost.group = .classes
      · simp [leave, hclass, Document.get, Document.addClass, Scope.get_add, hclass ▸ hinnermost]
      · simp [leave, hclass, Document.get, Document.add, Scope.get_add, hinnermost]
    | cons holder outer =>
      have hfile := spares_file (d := ⟨document, holder :: outer⟩) (Ne.symm hinnermost)
        (.ofClass innermost.body) houter
      exact ⟨hfile.group, hfile.opened⟩

/-- Changing a class leaves the groups of other kinds alone. -/
lemma get_modifyClassNamed (hclass : kind ≠ .classes) (name : String) (change : Class → Class)
    (d : Document) : (d.modifyClassNamed name change).get kind = d.get kind := by
  rw [Document.modifyClassNamed]
  split
  · simp [Document.get, Document.modifyClassAt, Scope.get_modifyAt, hclass]
  · rfl

/-- A mark that reports nothing under the kind leaves its group alone.

**Proof sketch.** By the mark: all of them file, add or change something under another kind. -/
theorem spares_mark (hclass : kind ≠ .classes) {m : Mark} (hm : m.All fun r => r.group ≠ kind)
    (hopened : kind ∉ d.opened.map OpenClass.group) : d.Spares kind (d.mark m) := by
  cases m with
  | leaf other name line => exact spares_file (Mark.all_leaf.1 hm) _ hopened
  | atTop other name line =>
    have hother : kind ≠ other := Ne.symm (Mark.all_atTop.1 hm)
    exact ⟨by simp [mark, Document.get, Document.add, Scope.get_add, hother], hopened⟩
  | once other name line =>
    have hother : kind ≠ other := Ne.symm (Mark.all_once.1 hm)
    rw [mark]
    split
    · exact ⟨rfl, hopened⟩
    · exact ⟨by simp [Document.get, Document.add, Scope.get_add, hother], hopened⟩
  | enter header =>
    have hheader : header.group ≠ kind := Mark.all_enter.1 hm
    exact ⟨rfl, List.not_mem_cons_of_ne_of_not_mem hheader.symm hopened⟩
  | leave => exact spares_leave hopened
  | forget => exact ⟨rfl, hopened⟩
  | method owner name line =>
    refine ⟨?_, hopened⟩
    simp only [mark]
    rw [get_modifyClassNamed hclass]
    split
    · rfl
    · simp [Document.get, Document.addClass, Scope.get_add, hclass]
  | qualified owner owned free name line =>
    rw [mark]
    split
    · exact ⟨get_modifyClassNamed hclass _ _ _, hopened⟩
    · exact spares_file (Mark.all_qualified.1 hm).2 _ hopened

/-- A name that is in its group already is not filed there again. -/
lemma get_mark_once_of_mem {name : String} (line : Nat)
    (h : name ∈ ((d.document.get kind).map Element.entry).map Prod.fst) :
    (d.mark (.once kind name line)).document.get kind = d.document.get kind := by
  have hoccurs := (Named.occurs_iff_mem_names name (d.document.get kind)).2 h
  rw [mark, if_pos (show d.document.contains kind name from hoccurs)]

/-- A name that is not in its group comes to the end of it. -/
lemma get_mark_once_of_not_mem {name : String} (line : Nat)
    (h : name ∉ ((d.document.get kind).map Element.entry).map Prod.fst) :
    (d.mark (.once kind name line)).document.get kind
      = d.document.get kind ++ [leafOf kind name line] := by
  have hnew := fun hoccurs => h ((Named.occurs_iff_mem_names name (d.document.get kind)).1 hoccurs)
  rw [mark, if_neg (show ¬d.document.contains kind name from hnew)]
  exact (Scope.get_add ..).trans (if_pos rfl)

/-- A mark that reports a name once keeps the group as it should be.

**Proof sketch.** If the name is there, nothing is added, and it was met before. If it is not, it is
added with the line on which it is met for the first time. -/
lemma ListsFirst.mark_once {list : List Mark} (hd : d.ListsFirst kind (metOn kind list))
    {name : String} {line : Nat} (hlast : ∀ l ∈ metOn kind list name, l ≤ line) :
    (d.mark (.once kind name line)).ListsFirst kind
      (metOn kind (list ++ [.once kind name line])) := by
  refine ⟨⟨hd.group.entries.once hlast ?_ ?_ (fun hold => ?_) fun hnew => ?_, ?_⟩, ?_⟩
  · ext l
    simp [metOn, or_comm]
  · intro n hn
    ext l
    simp [metOn, hn]
  · rw [get_mark_once_of_mem line hold]
  · rw [get_mark_once_of_not_mem line hnew, List.map_append]
    rfl
  · by_cases hname : name ∈ ((d.document.get kind).map Element.entry).map Prod.fst
    · rw [get_mark_once_of_mem line hname]
      exact hd.group.leaves
    · rw [get_mark_once_of_not_mem line hname, List.forall_mem_append, List.forall_mem_singleton]
      exact ⟨hd.group.leaves, rfl⟩
  · rw [Draft.mark]
    split
    · exact hd.opened
    · exact hd.opened

/-- A mark keeps the group as it should be, whether it reports something under the kind or not. -/
theorem ListsFirst.mark (hclass : kind ≠ .classes) {list : List Mark} {m : Mark}
    (hd : d.ListsFirst kind (metOn kind list)) (honce : m.OnceUnder kind)
    (hbefore : ∀ m' ∈ list, m'.OnceBefore kind m) :
    (d.mark m).ListsFirst kind (metOn kind (list ++ [m])) := by
  by_cases hm : ∃ name line, m = .once kind name line
  · obtain ⟨name, line, rfl⟩ := hm
    exact hd.mark_once fun l hl => hbefore _ hl name l name line rfl rfl
  · have hspares := spares_mark hclass (honce.resolve_right hm) hd.opened
    have hmet : metOn kind (list ++ [m]) = metOn kind list := by
      ext name line
      have hne : Mark.once kind name line ≠ m := fun h => hm ⟨name, line, h.symm⟩
      simp [metOn, hne]
    rw [hmet]
    exact ⟨hspares.group.symm ▸ hd.group, hspares.opened⟩

/-- **A list of marks in order keeps the group as it should be.**

**Proof sketch.** Induction on the list from its end: the marks taken before say on which lines a
name was met, and none of these is greater than the line of the next mark. -/
theorem listsFirst_marks (hclass : kind ≠ .classes) (hd : d.ListsFirst kind (metOn kind []))
    {list : List Mark} (honce : ∀ m ∈ list, m.OnceUnder kind)
    (hbefore : list.Pairwise (Mark.OnceBefore kind)) :
    (d.marks list).ListsFirst kind (metOn kind list) := by
  induction list using List.reverseRecOn with
  | nil => exact hd
  | append_singleton list m ih =>
    obtain ⟨hlist, -, hlast⟩ := List.pairwise_append.1 hbefore
    rw [List.forall_mem_append, List.forall_mem_singleton] at honce
    rw [marks_append]
    exact (ih honce.1 hlist).mark hclass honce.2 fun m' hm' => hlast m' hm' m List.mem_cons_self

/-- The classes that are still open at the end of a source are not filed under the kind. -/
lemma ListsFirst.finish {met : String → Set Nat} (hd : d.ListsFirst kind met) :
    FirstLeaves kind met (d.finish.get kind) := by
  have hleave : ∀ (n : Nat) (d : Draft), d.ListsFirst kind met →
      (d.marks (List.replicate n .leave)).ListsFirst kind met := by
    intro n
    induction n with
    | zero => exact fun d hd => hd
    | succ n ih =>
      intro d hd
      have hspares := spares_leave hd.opened
      rw [List.replicate_succ, marks_cons]
      exact ih d.leave ⟨hspares.group.symm ▸ hd.group, hspares.opened⟩
  exact (hleave d.opened.length d hd).group

end Draft

/-- The legend files nothing. -/
lemma Document.get_withLegend (legend : Legend) (kind : Kind) :
    (withLegend legend).get kind = [] := by
  rw [get, Scope.get, Scope.group?, groups_withLegend]
  rfl

/-- **A name is listed once, where it is met first**, under a kind under which the marks of a source
report nothing in any other way, each no later than the next. -/
theorem Document.firstLeaves_ofMarks (legend : Legend) {kind : Kind} (hclass : kind ≠ .classes)
    {list : List Mark} (honce : ∀ m ∈ list, m.OnceUnder kind)
    (hbefore : list.Pairwise (Mark.OnceBefore kind)) :
    FirstLeaves kind (metOn kind list) ((Document.ofMarks legend list).get kind) := by
  have hstart : Draft.ListsFirst kind (metOn kind []) { document := withLegend legend } := by
    refine ⟨?_, List.not_mem_nil⟩
    rw [get_withLegend]
    exact ⟨.empty fun n => by ext l; simp [metOn], List.forall_mem_nil _⟩
  exact (Draft.listsFirst_marks hclass hstart honce hbefore).finish

/-! ## Classes that begin with a method -/

/-- There is one class for each owner of a method that was met, and it begins with the first of its
methods. -/
structure FirstMethods (met : String → Set Nat) (group : List Element) : Prop where
  /-- Each owner is there once. -/
  entries : FirstMet met (group.map Element.entry)
  /-- The elements are classes with a first method, which tells their line. -/
  methods : ∀ e ∈ group, ∃ (c : Class) (m : Element) (further : List Element),
    e = .ofClass c ∧ c.members.get .methods = m :: further ∧ m.tag.line = c.tag.line

/-- The lines on which a method of an owner is met, by the marks of a source. -/
def methodOn (list : List Mark) (owner : String) : Set Nat :=
  {line | ∃ name, Mark.method owner name line ∈ list}

/-- A change of one item that keeps a value keeps all of them. -/
lemma map_modify_of_same {α β : Type} {f : α → β} {change : α → α}
    (h : ∀ a, f (change a) = f a) (l : List α) (i : Nat) : (l.modify i change).map f = l.map f := by
  refine List.ext_getElem? fun j => ?_
  rw [List.getElem?_map, List.getElem?_map, List.getElem?_modify]
  cases l[j]? with
  | none => rfl
  | some a => by_cases hij : i = j <;> simp [hij, h]

/-- Adding a member leaves the name and the line of a class alone. -/
lemma Element.entry_modifyClass_add (kind : Kind) (member e : Element) :
    (e.modifyClass (·.add kind member)).entry = e.entry := by
  cases e <;> rfl

/-- There is no place of a class of a name where there is no class of it. -/
lemma Document.classIndex?_eq_none {d : Document} {name : String}
    (h : d.classNamed? name = none) : d.classIndex? name = none := by
  refine List.findIdx?_eq_none_iff.2 fun e he => ?_
  rw [Bool.eq_false_iff]
  intro hnamed
  obtain ⟨c, hc, hname⟩ := (Option.any_eq_true _ _).1 hnamed
  exact List.find?_eq_none.1 h c (List.mem_filterMap.2 ⟨e, he, hc⟩) hname

/-- A class that is filed and then edited by its name, which no other class has, stands at the end
of the classes as it is edited. -/
lemma Document.get_modifyClassNamed_addClass {d : Document} {c : Class}
    (h : d.classIndex? c.name = none) (change : Class → Class) :
    ((d.addClass c).modifyClassNamed c.name change).get .classes
      = d.get .classes ++ [.ofClass (change c)] := by
  have hget : (d.addClass c).scope.get .classes = d.scope.get .classes ++ [.ofClass c] :=
    (Scope.get_add ..).trans (if_pos rfl)
  have hindex : (d.addClass c).classIndex? c.name = some (d.scope.get .classes).length := by
    rw [classIndex?] at h
    rw [classIndex?, hget, List.findIdx?_append, h]
    simp [List.findIdx?_cons, isClassNamed]
  simp only [modifyClassNamed, hindex, modifyClassAt, get, Scope.get_modifyAt, if_true, hget]
  rw [List.modify_eq_take_drop, List.take_left, List.drop_left]
  rfl

namespace Draft

variable {d : Draft} {owner : String}

/-- A method of a class that is there is added to it. -/
lemma get_mark_method_of_some {c : Class} (hc : d.document.classNamed? owner = some c)
    (name : String) (line : Nat) :
    ∃ i, (d.mark (.method owner name line)).document.get .classes
      = (d.document.get .classes).modify i
        (Element.modifyClass (·.add .methods (leafOf .methods name line))) := by
  obtain ⟨i, hi, -⟩ := Document.classIndex?_of_classNamed? hc
  refine ⟨i, ?_⟩
  simp [mark, hc, Document.modifyClassNamed, hi, Document.get, Document.modifyClassAt,
    Scope.get_modifyAt]

/-- A method of a class that is not there comes with a new class to the end of the classes. -/
lemma get_mark_method_of_none (hc : d.document.classNamed? owner = none) (name : String)
    (line : Nat) :
    (d.mark (.method owner name line)).document.get .classes
      = d.document.get .classes ++ [.ofClass ((Class.empty ⟨owner, line, .classes, none⟩).add
        .methods (leafOf .methods name line))] := by
  rw [mark, hc]
  exact Document.get_modifyClassNamed_addClass (c := .empty ⟨owner, line, .classes, none⟩)
    (Document.classIndex?_eq_none hc) (·.add .methods (leafOf .methods name line))

end Draft

namespace FirstMethods

variable {met met' : String → Set Nat} {d : Draft}

/-- Where all elements are classes, a name is one of theirs if there is a class of the name. -/
lemma mem_names_iff (h : FirstMethods met (d.document.get .classes)) (name : String) :
    name ∈ ((d.document.get .classes).map Element.entry).map Prod.fst
      ↔ (d.document.classNamed? name).isSome := by
  rw [Document.classNamed?, List.find?_isSome, List.map_map, List.mem_map]
  constructor
  · rintro ⟨e, he, rfl⟩
    obtain ⟨c, m, further, rfl, -⟩ := h.methods e he
    exact ⟨c, List.mem_filterMap.2 ⟨_, he, Element.class?_ofClass c⟩, beq_self_eq_true _⟩
  · rintro ⟨c, hc, hname⟩
    obtain ⟨e, he, hclass⟩ := List.mem_filterMap.1 hc
    obtain rfl := Element.eq_ofClass hclass
    exact ⟨_, he, beq_iff_eq.1 hname⟩

/-- **A class begins with its first method.** A method is added to the class of its owner, or else
to a new one that begins on its line.

**Proof sketch.** If there is a class of the owner, the method is added to it, behind its first one,
and its entry stays. If there is none, a class is added that begins with the method, on its line. -/
theorem mark_method (h : FirstMethods met (d.document.get .classes)) {owner : String}
    (name : String) {line : Nat} (hlast : ∀ l ∈ met owner, l ≤ line)
    (hhere : met' owner = insert line (met owner)) (helse : ∀ n, n ≠ owner → met' n = met n) :
    FirstMethods met' ((d.mark (.method owner name line)).document.get .classes) := by
  have hnames := h.mem_names_iff owner
  cases hc : d.document.classNamed? owner with
  | some c =>
    rw [hc] at hnames
    obtain ⟨i, hget⟩ := Draft.get_mark_method_of_some hc name line
    rw [hget]
    refine ⟨h.entries.once hlast hhere helse (fun _ => ?_) fun hnew => ?_, fun e he => ?_⟩
    · exact map_modify_of_same (Element.entry_modifyClass_add .methods _) _ i
    · exact absurd (hnames.2 rfl) hnew
    · rcases mem_modify he with hmem | ⟨b, hb, rfl⟩
      · exact h.methods e hmem
      · obtain ⟨c, m, further, rfl, hmethods, hline⟩ := h.methods b (List.mem_of_getElem? hb)
        refine ⟨c.add .methods (Draft.leafOf .methods name line), m, further
          ++ [(Draft.leafOf .methods name line).withinScope c.name], rfl, ?_, hline⟩
        simp [Class.add, Scope.get_add, hmethods]
  | none =>
    rw [hc] at hnames
    rw [Draft.get_mark_method_of_none hc name line]
    refine ⟨h.entries.once hlast hhere helse (fun hold => ?_) fun _ => ?_, ?_⟩
    · exact absurd (hnames.1 hold) (by simp)
    · rw [List.map_append]
      rfl
    · rw [List.forall_mem_append, List.forall_mem_singleton]
      exact ⟨h.methods, _, _, [], rfl, rfl, rfl⟩

end FirstMethods

/-- The mark reports classes by their methods alone. -/
def Mark.ByMethod : Mark → Prop
  | .method _ _ _ => True
  | .leaf kind _ _ => kind ≠ .classes
  | _ => False

/-- A draft in which no class is open, and those that are filed begin with their first methods. -/
structure Draft.ListsMethods (met : String → Set Nat) (d : Draft) : Prop where
  /-- The classes are as they should be. -/
  group : FirstMethods met (d.document.get .classes)
  /-- No class is open. -/
  opened : d.opened = []

/-- A mark keeps the classes as they should be.

**Proof sketch.** A method is `mark_method`, as the lines come in order, and a leaf of another kind
leaves the classes alone. There are no other marks. -/
theorem Draft.ListsMethods.mark {d : Draft} {list : List Mark} {m : Mark}
    (hd : d.ListsMethods (methodOn list)) (hm : m.ByMethod) {entered : Kind → Prop}
    (hbefore : ∀ m' ∈ list, m'.Precedes entered m) :
    (d.mark m).ListsMethods (methodOn (list ++ [m])) := by
  cases m with
  | method owner name line =>
    refine ⟨hd.group.mark_method name ?_ ?_ ?_, hd.opened⟩
    · rintro l ⟨name', hl⟩
      exact hbefore _ hl _ List.mem_cons_self _ List.mem_cons_self (.inl rfl)
    · ext l
      simp [methodOn, exists_or, or_comm]
    · intro n hn
      ext l
      simp [methodOn, hn]
  | leaf kind name line =>
    have hnone : .classes ∉ d.opened.map OpenClass.group := by simp [hd.opened]
    have hspares := spares_file (d := d) hm (leafOf kind name line) hnone
    have hmet : methodOn (list ++ [.leaf kind name line]) = methodOn list := by
      ext owner l
      simp [methodOn]
    refine ⟨?_, ?_⟩
    · rw [hmet, Draft.mark, hspares.group]
      exact hd.group
    · rw [Draft.mark, file, hd.opened]
  | _ => exact hm.elim

/-- **A class that is known by its methods is listed once, on the line of the first of them**, if
the methods are met in the order of the lines.

**Proof sketch.** Induction on the marks from their end. None of them opens a class, so nothing is
left to be filed at the end. -/
theorem Document.firstMethods_ofMarks (legend : Legend) {list : List Mark}
    (hmarks : ∀ m ∈ list, m.ByMethod) {entered : Kind → Prop}
    (hbefore : list.Pairwise (Mark.Precedes entered)) :
    FirstMethods (methodOn list) ((Document.ofMarks legend list).get .classes) := by
  have hstart : Draft.ListsMethods (methodOn []) { document := withLegend legend } := by
    refine ⟨?_, rfl⟩
    rw [get_withLegend]
    exact ⟨.empty fun n => by ext l; simp [methodOn], List.forall_mem_nil _⟩
  have hrun : Draft.ListsMethods (methodOn list)
      (Draft.marks { document := withLegend legend } list) := by
    induction list using List.reverseRecOn with
    | nil => exact hstart
    | append_singleton list m ih =>
      obtain ⟨hlist, -, hlast⟩ := List.pairwise_append.1 hbefore
      rw [List.forall_mem_append, List.forall_mem_singleton] at hmarks
      rw [Draft.marks_append]
      exact (ih hmarks.1 hlist).mark hmarks.2 fun m' hm' => hlast m' hm' m List.mem_cons_self
  rw [ofMarks, Draft.finish, hrun.opened]
  exact hrun.group

end Outliner
