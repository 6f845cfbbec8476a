import Mathlib.Data.List.Perm.Basic
import Mathlib.Tactic.Lemma
import Outliner.Document

set_option autoImplicit false

/-!
# Where the elements of a tree stand

A tree of elements is laid out as a list with one entry for each element: its tag, the kind under
which it is filed, and the tags of the classes that hold it. Members come after the element that
holds them, each group in the order of insertion.

Changes of a tree are then changes of a list. Up to the order of the list, filing an element adds
the entries of that element and touches no other.

## Main definitions

* `Outliner.Occurrence` — an element with its place in a tree.
* `Outliner.Element.occurrences`, `Outliner.Scope.occurrences`, `Outliner.Document.occurrences` —
  all elements of a tree.
* `Outliner.Tag.heldBy` — a tag that learns which class holds it.

## Main results

* `Outliner.Element.length_occurrences` — there are as many occurrences as elements.
* `Outliner.Scope.occurrences_add` — filing an element adds its occurrences.
* `Outliner.Document.occurrences_modifyClassNamed_of_some` — so does filing it in a class of a name.
-/

namespace Outliner

/-- An element with its place in a tree. -/
structure Occurrence where
  /-- What is known of the element itself. -/
  tag : Tag
  /-- The kind under which it is filed. -/
  group : Kind
  /-- The tags of the classes that hold it, the innermost one first. -/
  holders : List Tag
deriving DecidableEq, Repr

/-- The tag of an element that belongs to the innermost of the holders, unless it belongs to another
class already. -/
def Tag.heldBy (holders : List Tag) (tag : Tag) : Tag :=
  match holders with
  | [] => tag
  | holder :: _ => { tag with scope := some (tag.scope.getD holder.name) }

namespace Element

mutual

/-- The element and all elements below it, where the element is filed under the kind `group` and
held by the classes `holders`. -/
def occurrences (holders : List Tag) (group : Kind) : Element → List Occurrence
  | leaf tag => [⟨tag, group, holders⟩]
  | branch tag ⟨groups, _, _⟩ => ⟨tag, group, holders⟩ :: occurrencesInGroups (tag :: holders) groups

/-- All elements of the groups. -/
def occurrencesInGroups (holders : List Tag) : List (Group Element) → List Occurrence
  | [] => []
  | ⟨kind, items⟩ :: groups =>
    occurrencesInItems holders kind items ++ occurrencesInGroups holders groups

/-- All elements of the list, where its items are filed under the kind `group`. -/
def occurrencesInItems (holders : List Tag) (group : Kind) : List Element → List Occurrence
  | [] => []
  | e :: items => e.occurrences holders group ++ occurrencesInItems holders group items

end

end Element

/-- The elements of a group, members of members included. -/
def Group.occurrences (holders : List Tag) (group : Group Element) : List Occurrence :=
  group.items.flatMap (Element.occurrences holders group.kind)

/-- The elements of a scope, members of members included. -/
def Scope.occurrences (holders : List Tag) (s : Scope Element) : List Occurrence :=
  s.groups.flatMap (Group.occurrences holders)

/-- The elements of a document at all depths. -/
def Document.occurrences (d : Document) : List Occurrence := d.scope.occurrences []

namespace Element

/-- Several items occur one after the other. -/
lemma occurrencesInItems_eq_flatMap (holders : List Tag) (group : Kind) (items : List Element) :
    occurrencesInItems holders group items = items.flatMap (occurrences holders group) := by
  induction items with
  | nil => simp [occurrencesInItems]
  | cons e items ih => simp [occurrencesInItems, ih]

/-- Several groups occur one after the other. -/
lemma occurrencesInGroups_eq_flatMap (holders : List Tag) (groups : List (Group Element)) :
    occurrencesInGroups holders groups = groups.flatMap (Group.occurrences holders) := by
  induction groups with
  | nil => simp [occurrencesInGroups]
  | cons g groups ih =>
    simp [occurrencesInGroups, ih, occurrencesInItems_eq_flatMap, Group.occurrences]

/-- An element without members occurs once. -/
@[simp] lemma occurrences_leaf (holders : List Tag) (group : Kind) (tag : Tag) :
    (leaf tag).occurrences holders group = [⟨tag, group, holders⟩] := by
  rw [occurrences]

/-- An element with members occurs itself, and then its members occur, held by it. -/
@[simp] lemma occurrences_branch (holders : List Tag) (group : Kind) (tag : Tag)
    (members : Scope Element) :
    (branch tag members).occurrences holders group =
      ⟨tag, group, holders⟩ :: members.occurrences (tag :: holders) := by
  rw [occurrences, occurrencesInGroups_eq_flatMap, Scope.occurrences]

/-- **Induction over a tree**: what holds of a leaf, and of a branch as soon as it holds of all its
members, holds of every element. -/
@[elab_as_elim]
theorem inductionOn {motive : Element → Prop} (e : Element) (leaf : ∀ tag, motive (.leaf tag))
    (branch : ∀ (tag : Tag) (members : Scope Element),
      (∀ g ∈ members.groups, ∀ member ∈ g.items, motive member) → motive (.branch tag members)) :
    motive e :=
  match e with
  | .leaf tag => leaf tag
  | .branch tag members =>
    branch tag members fun g _hg member _hm => inductionOn member leaf branch
termination_by sizeOf e
decreasing_by
  have hs : sizeOf members.groups < sizeOf members := by
    cases members
    simp only [Scope.mk.sizeOf_spec]
    omega
  have hi : sizeOf g.items < sizeOf g := by
    cases g
    simp only [Group.mk.sizeOf_spec]
    omega
  have := List.sizeOf_lt_of_mem _hg
  have := List.sizeOf_lt_of_mem _hm
  simp only [Element.branch.sizeOf_spec]
  omega

end Element

/-- An element made from a class is that class as an element. -/
lemma Element.eq_ofClass {e : Element} {c : Class} (h : e.class? = some c) : e = .ofClass c := by
  cases e with
  | leaf tag => simp [class?] at h
  | branch tag members =>
    obtain rfl : (⟨tag, members⟩ : Class) = c := by simpa [class?] using h
    rfl

/-! ## Counting -/

namespace Element

/-- A list has as many occurrences as elements, if each item has. -/
lemma length_flatMap_occurrences {holders : List Tag} {group : Kind} {items : List Element}
    (h : ∀ e ∈ items, (e.occurrences holders group).length = e.count) :
    (items.flatMap (occurrences holders group)).length = countItems items := by
  induction items with
  | nil => rw [countItems, List.flatMap_nil, List.length_nil]
  | cons e items ih =>
    have hitems := ih fun e he => h e (List.mem_cons_of_mem _ he)
    rw [countItems, List.flatMap_cons, List.length_append, hitems, h e List.mem_cons_self]

end Element

/-- A scope has as many occurrences as elements, if each of its elements has. -/
lemma Scope.length_occurrences_of_items {s : Scope Element}
    (h : ∀ g ∈ s.groups, ∀ e ∈ g.items, ∀ holders group,
      (e.occurrences holders group).length = e.count) (holders : List Tag) :
    (s.occurrences holders).length = s.count := by
  obtain ⟨groups, descriptions, priorities⟩ := s
  show (groups.flatMap (Group.occurrences holders)).length = Element.countGroups groups
  induction groups with
  | nil => rw [Element.countGroups, List.flatMap_nil, List.length_nil]
  | cons g groups ih =>
    have hgroup : (g.occurrences holders).length = Element.countItems g.items :=
      Element.length_flatMap_occurrences fun e he => h g List.mem_cons_self e he holders g.kind
    have hgroups := ih fun g hg => h g (List.mem_cons_of_mem _ hg)
    rw [Element.countGroups, List.flatMap_cons, List.length_append, hgroup, hgroups]

/-- A tree has as many occurrences as elements. -/
theorem Element.length_occurrences (e : Element) (holders : List Tag) (group : Kind) :
    (e.occurrences holders group).length = e.count := by
  induction e using Element.inductionOn generalizing holders group with
  | leaf tag => simp
  | branch tag members ih =>
    rw [occurrences_branch, List.length_cons, Scope.length_occurrences_of_items ih, count_branch,
      Nat.add_comm]

/-- A scope has as many occurrences as elements. -/
theorem Scope.length_occurrences (s : Scope Element) (holders : List Tag) :
    (s.occurrences holders).length = s.count :=
  Scope.length_occurrences_of_items (fun _ _ e _ => e.length_occurrences) holders

/-! ## Filing -/

/-- The element, known to belong to the innermost of the holders unless it belongs to another class
already. -/
def Element.heldBy (holders : List Tag) : Element → Element
  | leaf tag => leaf (tag.heldBy holders)
  | branch tag members => branch (tag.heldBy holders) members

/-- To belong to a class does not change the line. -/
@[simp] lemma Tag.line_heldBy (holders : List Tag) (tag : Tag) :
    (tag.heldBy holders).line = tag.line := by
  cases holders <;> rfl

/-- Nor does it change the kind. -/
@[simp] lemma Tag.kind_heldBy (holders : List Tag) (tag : Tag) :
    (tag.heldBy holders).kind = tag.kind := by
  cases holders <;> rfl

/-- Nor does it change the name. -/
@[simp] lemma Tag.name_heldBy (holders : List Tag) (tag : Tag) :
    (tag.heldBy holders).name = tag.name := by
  cases holders <;> rfl

/-- An element that no class holds is as it was. -/
@[simp] lemma Element.heldBy_nil (e : Element) : e.heldBy [] = e := by
  cases e <;> rfl

/-- Filing an element in a class makes it belong to this class. -/
lemma Element.withinScope_eq_heldBy (holder : Tag) (holders : List Tag) (e : Element) :
    e.withinScope holder.name = e.heldBy (holder :: holders) := by
  cases e <;> rfl

namespace Scope

/-- Filing an element adds its occurrences and touches no other.

**Proof sketch.** Induction on the groups. Where the kind has its group, the element comes to its
end, so its occurrences move to the end past those of the later groups. -/
theorem occurrences_add (holders : List Tag) (kind : Kind) (e : Element) (s : Scope Element) :
    ((s.add kind e).occurrences holders).Perm
      (s.occurrences holders ++ e.occurrences holders kind) := by
  obtain ⟨groups, descriptions, priorities⟩ := s
  show ((Group.file kind e groups).flatMap (Group.occurrences holders)).Perm
    (groups.flatMap (Group.occurrences holders) ++ e.occurrences holders kind)
  induction groups with
  | nil => simp [Group.file, Group.occurrences]
  | cons g groups ih =>
    by_cases hk : g.kind = kind
    · subst hk
      simp only [Group.file, if_true, List.flatMap_cons, Group.occurrences, List.flatMap_append,
        List.flatMap_nil, List.append_nil, List.append_assoc]
      exact List.Perm.append_left _ List.perm_append_comm
    · simp only [Group.file, hk, if_false, List.flatMap_cons, List.append_assoc]
      exact List.Perm.append_left _ ih

end Scope

/-- Changing one item of a list adds to what the items have together what it adds to the item.

**Proof sketch.** Induction on the list, up to the place of the item. -/
lemma flatMap_modify_perm {α β : Type} {l : List α} {i : Nat} {a : α} (hi : l[i]? = some a)
    {f : α → α} {g : α → List β} {new : List β} (h : (g (f a)).Perm (g a ++ new)) :
    ((l.modify i f).flatMap g).Perm (l.flatMap g ++ new) := by
  induction l generalizing i with
  | nil => simp at hi
  | cons b l ih =>
    cases i with
    | zero =>
      obtain rfl : b = a := by simpa using hi
      simp only [List.modify_zero_cons, List.flatMap_cons, List.append_assoc]
      exact (h.append_right _).trans (by
        rw [List.append_assoc]
        exact List.Perm.append_left _ List.perm_append_comm)
    | succ i =>
      simp only [List.modify_succ_cons, List.flatMap_cons, List.append_assoc]
      exact List.Perm.append_left _ (ih (by simpa using hi))

/-- Changing one item of a kind adds to the occurrences what it adds to those of the item.

**Proof sketch.** Induction on the groups, up to the one of the kind, in which one item is changed
(`flatMap_modify_perm`). -/
lemma Scope.occurrences_modifyAt {s : Scope Element} {kind : Kind} {i : Nat} {e : Element}
    (hi : (s.get kind)[i]? = some e) {f : Element → Element} {holders : List Tag}
    {new : List Occurrence}
    (h : ((f e).occurrences holders kind).Perm (e.occurrences holders kind ++ new)) :
    ((s.modifyAt kind i f).occurrences holders).Perm (s.occurrences holders ++ new) := by
  obtain ⟨groups, descriptions, priorities⟩ := s
  show ((Group.revise kind (List.modify · i f) groups).flatMap (Group.occurrences holders)).Perm
    (groups.flatMap (Group.occurrences holders) ++ new)
  simp only [get, group?] at hi
  induction groups with
  | nil => simp at hi
  | cons g groups ih =>
    by_cases hk : g.kind = kind
    · subst hk
      simp only [List.find?_cons, beq_self_eq_true, Option.map_some, Option.getD_some] at hi
      simp only [Group.revise, if_true, List.flatMap_cons, Group.occurrences, List.append_assoc]
      refine ((flatMap_modify_perm hi h).append_right _).trans ?_
      rw [List.append_assoc]
      exact List.Perm.append_left _ List.perm_append_comm
    · have hb : (g.kind == kind) = false := by simpa using hk
      simp only [List.find?_cons, hb] at hi
      simp only [Group.revise, hk, if_false, List.flatMap_cons, List.append_assoc]
      exact List.Perm.append_left _ (ih hi)

namespace Document

/-- Forgetting the last class does not change what occurs. -/
@[simp] lemma occurrences_forgetLastClass (d : Document) :
    d.forgetLastClass.occurrences = d.occurrences := rfl

/-- Adding an element adds what occurs of it. -/
theorem occurrences_add (kind : Kind) (e : Element) (d : Document) :
    (d.add kind e).occurrences.Perm (d.occurrences ++ e.occurrences [] kind) :=
  Scope.occurrences_add [] kind e d.scope

/-- So does adding a class. -/
theorem occurrences_addClass (c : Class) (d : Document) :
    (d.addClass c).occurrences.Perm (d.occurrences ++ (Element.ofClass c).occurrences [] .classes) :=
  Scope.occurrences_add [] .classes (.ofClass c) d.scope

/-- The first class of a name is the class at the place that `classIndex?` tells.

**Proof sketch.** Induction on the classes. An element of another name is passed over in both ways,
and so is one that is no class. -/
theorem classNamed?_eq_bind (name : String) (d : Document) :
    d.classNamed? name =
      (d.classIndex? name).bind fun i => (d.scope.get .classes)[i]?.bind Element.class? := by
  rw [classNamed?, classIndex?]
  induction d.scope.get .classes with
  | nil => simp
  | cons e items ih =>
    by_cases hname : isClassNamed name e = true
    · obtain ⟨c, hc, hcname⟩ := (Option.any_eq_true _ _).1 hname
      simp [List.findIdx?_cons, hname, hc, beq_iff_eq.1 hcname]
    · have htail : (List.filterMap Element.class? (e :: items)).find? (·.name == name) =
          (items.filterMap Element.class?).find? (·.name == name) := by
        cases hc : e.class? with
        | none => simp [hc]
        | some c =>
          have hne : (c.name == name) = false := by simpa [isClassNamed, hc] using hname
          simp [hc, hne]
      rw [htail, ih, List.findIdx?_cons, if_neg hname, Option.bind_map]
      rfl

/-- Where there is a class of a name, `classIndex?` tells the place of the first one. -/
lemma classIndex?_of_classNamed? {name : String} {d : Document} {c : Class}
    (h : d.classNamed? name = some c) :
    ∃ i, d.classIndex? name = some i ∧ (d.scope.get .classes)[i]? = some (.ofClass c) := by
  rw [classNamed?_eq_bind] at h
  obtain ⟨i, hi, h⟩ := Option.bind_eq_some_iff.1 h
  obtain ⟨e, he, hc⟩ := Option.bind_eq_some_iff.1 h
  exact ⟨i, hi, by rw [he, Element.eq_ofClass hc]⟩

/-- Filing a leaf in the first class of a name adds one occurrence, held by that class.

**Proof sketch.** The class stands at one place among the classes, and changing the element there
adds to the tree what it adds to the element (`Scope.occurrences_modifyAt`). The element is a
branch, and the leaf is filed in its members (`Scope.occurrences_add`). -/
theorem occurrences_modifyClassNamed_of_some {name : String} {d : Document} {c : Class}
    (hc : d.classNamed? name = some c) (kind : Kind) (tag : Tag) :
    (d.modifyClassNamed name (·.add kind (.leaf tag))).occurrences.Perm
      (d.occurrences ++ [⟨tag.heldBy [c.tag], kind, [c.tag]⟩]) := by
  obtain ⟨i, hi, he⟩ := classIndex?_of_classNamed? hc
  rw [modifyClassNamed, hi]
  refine Scope.occurrences_modifyAt he ?_
  simp only [Element.modifyClass, Element.ofClass, Class.add, Element.occurrences_branch,
    List.cons_append]
  refine List.Perm.cons _ ((Scope.occurrences_add _ _ _ _).trans (List.Perm.append_left _ ?_))
  rw [show c.name = c.tag.name from rfl, Element.withinScope_eq_heldBy c.tag [], Element.heldBy,
    Element.occurrences_leaf]

/-- So it does where it is only known that there is a class of the name. -/
theorem occurrences_modifyClassNamed_add {name : String} {d : Document}
    (h : (d.classNamed? name).isSome) (kind : Kind) (tag : Tag) :
    ∃ holder : Tag, holder.name = name ∧
      (d.modifyClassNamed name (·.add kind (.leaf tag))).occurrences.Perm
        (d.occurrences ++ [⟨tag.heldBy [holder], kind, [holder]⟩]) := by
  obtain ⟨c, hc⟩ := Option.isSome_iff_exists.1 h
  have hname : c.name = name := by simpa using List.find?_some hc
  exact ⟨c.tag, hname, occurrences_modifyClassNamed_of_some hc kind tag⟩

end Document

end Outliner
