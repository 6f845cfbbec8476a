import Outliner.Proofs.Listing
import Outliner.Proofs.Renumbering

set_option autoImplicit false

/-!
# The order of elements

Elements are filed when their end is met, so it does not go without saying that they stand in a
group in the order of their lines. This module says what it means for a tree to be in order and
which changes keep it so.

## Main definitions

* `Outliner.Scope.Ascends`, `Outliner.Scope.BeginsFrom` — the lines of each group do not decrease,
  and none is smaller than a given one.
* `Outliner.Element.Throughout`, `Outliner.Document.Throughout` — what holds of each class of a
  tree.

## Main results

* `Outliner.Scope.Ascends.add` — an element that begins no earlier than those of its kind keeps the
  order.
* `Outliner.Class.inOrder_add` — so does a member that begins no earlier than its class.
-/

namespace Outliner

/-! ## Definitions -/

namespace Scope

/-- The property holds of each element of the scope. -/
def Each (Q : Element → Prop) (s : Scope Element) : Prop := ∀ g ∈ s.groups, ∀ e ∈ g.items, Q e

/-- In each group the elements stand in the order of their lines. -/
def Ascends (s : Scope Element) : Prop :=
  ∀ g ∈ s.groups, (g.items.map fun e => e.tag.line).Pairwise (· ≤ ·)

/-- No element begins before the line. -/
def BeginsFrom (line : Nat) (s : Scope Element) : Prop := s.Each fun e => line ≤ e.tag.line

/-- The members of a class that begins on the line are in order. -/
structure InOrder (line : Nat) (s : Scope Element) : Prop where
  /-- In each group they stand in the order of their lines. -/
  ascends : s.Ascends
  /-- None begins before the class. -/
  beginsFrom : s.BeginsFrom line

end Scope

/-- The property holds of the line and the members of each class in the tree, at any depth. -/
inductive Element.Throughout (P : Nat → Scope Element → Prop) : Element → Prop
  /-- In a leaf there is no class. -/
  | leaf (tag : Tag) : Throughout P (.leaf tag)
  /-- It holds of the class itself, and of each class below. -/
  | branch {tag : Tag} {members : Scope Element} (here : P tag.line members)
      (below : ∀ g ∈ members.groups, ∀ e ∈ g.items, Throughout P e) :
      Throughout P (.branch tag members)

/-- The property holds of the line and the members of each class of the document, at any depth. -/
def Document.Throughout (P : Nat → Scope Element → Prop) (d : Document) : Prop :=
  d.scope.Each (Element.Throughout P)

/-! ## Scopes -/

namespace Scope

variable {Q : Element → Prop} {s : Scope Element} {kind : Kind} {e : Element}

/-- What holds of each element of a scope holds of each of a kind. -/
lemma Each.get (h : s.Each Q) (he : e ∈ s.get kind) : Q e := by
  obtain ⟨g, hg, -, he⟩ := mem_get he
  exact h g hg e he

/-- Filing an element of which it holds keeps this true.

**Proof sketch.** Induction on the groups, up to the one of the kind. -/
lemma Each.add (h : s.Each Q) (he : Q e) : (s.add kind e).Each Q := by
  obtain ⟨groups, descriptions, priorities⟩ := s
  intro g hg
  simp only [Scope.add] at hg
  induction groups with
  | nil =>
    obtain rfl := List.mem_singleton.1 hg
    exact List.forall_mem_singleton.2 he
  | cons group groups ih =>
    have hfirst : ∀ x ∈ group.items, Q x := h group List.mem_cons_self
    rw [Group.file] at hg
    split at hg
    · rcases List.mem_cons.1 hg with rfl | hg
      · exact List.forall_mem_append.2 ⟨hfirst, List.forall_mem_singleton.2 he⟩
      · exact h g (List.mem_cons_of_mem _ hg)
    · rcases List.mem_cons.1 hg with rfl | hg
      · exact hfirst
      · exact ih (fun g hg => h g (List.mem_cons_of_mem _ hg)) hg

/-- An element that begins no earlier than those of its kind comes to the end of its group.

**Proof sketch.** Induction on the groups, up to the one of the kind. There the new line comes
behind lines that are not greater; in all other groups nothing changes. -/
lemma Ascends.add (h : s.Ascends) (hlast : ∀ x ∈ s.get kind, x.tag.line ≤ e.tag.line) :
    (s.add kind e).Ascends := by
  obtain ⟨groups, descriptions, priorities⟩ := s
  intro g hg
  simp only [Scope.add] at hg
  induction groups with
  | nil =>
    obtain rfl := List.mem_singleton.1 hg
    exact List.pairwise_singleton _ _
  | cons group groups ih =>
    have hfirst : (group.items.map fun e => e.tag.line).Pairwise (· ≤ ·) :=
      h group List.mem_cons_self
    rw [Group.file] at hg
    split at hg
    · next hkind =>
      rcases List.mem_cons.1 hg with rfl | hg
      · rw [List.map_append, List.pairwise_append]
        refine ⟨hfirst, List.pairwise_singleton _ _, ?_⟩
        intro line hline other hother
        obtain ⟨x, hx, rfl⟩ := List.mem_map.1 hline
        obtain rfl := List.mem_singleton.1 hother
        refine hlast x ?_
        simpa [Scope.get, group?, hkind] using hx
      · exact h g (List.mem_cons_of_mem _ hg)
    · next hkind =>
      rcases List.mem_cons.1 hg with rfl | hg
      · exact hfirst
      · refine ih (fun g hg => h g (List.mem_cons_of_mem _ hg)) (fun x hx => ?_) hg
        refine hlast x ?_
        simpa [Scope.get, group?, hkind] using hx

/-- Where one element is changed, each element of its kind is as it was or as it is changed.

**Proof sketch.** In a list only the item at the place is changed. Induction on the groups leads to
the one of the kind. -/
lemma Each.modifyAt (h : s.Each Q) {change : Element → Element}
    (hchange : ∀ x ∈ s.get kind, Q (change x)) (index : Nat) :
    (s.modifyAt kind index change).Each Q := by
  have hitems : ∀ items : List Element, (∀ x ∈ items, Q x) → (∀ x ∈ items, Q (change x)) →
      ∀ x ∈ items.modify index change, Q x := by
    intro items hitems hchanged x hx
    obtain ⟨i, hi, rfl⟩ := List.mem_iff_getElem.1 hx
    rw [List.getElem_modify]
    rw [List.length_modify] at hi
    split
    · exact hchanged _ (List.getElem_mem hi)
    · exact hitems _ (List.getElem_mem hi)
  obtain ⟨groups, descriptions, priorities⟩ := s
  intro g hg
  simp only [Scope.modifyAt, modify] at hg
  induction groups with
  | nil => exact absurd hg List.not_mem_nil
  | cons group groups ih =>
    have hfirst : ∀ x ∈ group.items, Q x := h group List.mem_cons_self
    rw [Group.revise] at hg
    split at hg
    · next hkind =>
      rcases List.mem_cons.1 hg with rfl | hg
      · refine hitems _ hfirst fun x hx => hchange x ?_
        simpa [Scope.get, group?, hkind] using hx
      · exact h g (List.mem_cons_of_mem _ hg)
    · next hkind =>
      rcases List.mem_cons.1 hg with rfl | hg
      · exact hfirst
      · refine ih (fun g hg => h g (List.mem_cons_of_mem _ hg)) (fun x hx => ?_) hg
        refine hchange x ?_
        simpa [Scope.get, group?, hkind] using hx

/-- A scope ascends where it does so with lines in the place of the elements. -/
lemma ascends_of_map {s' : Scope Element}
    (hmap : s'.map (fun e => e.tag.line) = s.map fun e => e.tag.line) (h : s.Ascends) :
    s'.Ascends := by
  intro g hg
  have hlines : (⟨g.kind, g.items.map fun e => e.tag.line⟩ : Group Nat)
      ∈ (s'.map fun e => e.tag.line).groups := List.mem_map_of_mem hg
  rw [hmap] at hlines
  obtain ⟨g', hg', heq⟩ := List.mem_map.1 hlines
  have hitems : (g'.items.map fun e => e.tag.line) = g.items.map fun e => e.tag.line :=
    congrArg Group.items heq
  rw [← hitems]
  exact h g' hg'

/-- A change of one element that keeps its line keeps all lines.

**Proof sketch.** Seen by their lines, the change of the element is no change, so the scope of the
lines is left as it is. -/
lemma map_line_modifyAt {change : Element → Element} (hline : ∀ e, (change e).tag.line = e.tag.line)
    (kind : Kind) (index : Nat) (s : Scope Element) :
    (s.modifyAt kind index change).map (fun e => e.tag.line) = s.map fun e => e.tag.line := by
  have hid : ∀ groups : List (Group Nat),
      Group.revise kind (List.modify · index id) groups = groups := by
    intro groups
    induction groups with
    | nil => rfl
    | cons group groups ih =>
      rw [Group.revise, ih, List.modify_id]
      split
      · next hkind => rw [← hkind]
      · rfl
  have hmap := map_modifyAt (fun e => e.tag.line)
    (show ∀ e, (change e).tag.line = id e.tag.line from hline) kind index s
  rw [hmap, Scope.modifyAt, modify, hid]

end Scope

/-! ## Classes -/

namespace Element.Throughout

variable {P : Nat → Scope Element → Prop}

/-- What holds throughout an element still holds if less is claimed. -/
lemma imp {Q : Nat → Scope Element → Prop} (h : ∀ line s, P line s → Q line s) {e : Element}
    (he : e.Throughout P) : e.Throughout Q := by
  induction he with
  | leaf tag => exact .leaf tag
  | branch here below ih => exact .branch (h _ _ here) ih

/-- To belong to a scope does not matter to what holds throughout an element. -/
lemma withinScope {e : Element} (he : e.Throughout P) (scope : String) :
    (e.withinScope scope).Throughout P := by
  cases he with
  | leaf tag => exact .leaf _
  | branch here below => exact .branch here below

/-- For a class, to hold throughout is to hold of its own line and members and throughout each
member. -/
lemma ofClass_iff {c : Class} : (ofClass c).Throughout P
    ↔ P c.tag.line c.members ∧ c.members.Each (Element.Throughout P) := by
  constructor
  · intro h
    rw [ofClass] at h
    cases h with
    | branch here below => exact ⟨here, below⟩
  · rintro ⟨here, below⟩
    exact .branch here below

end Element.Throughout

/-- To belong to a scope does not change the line. -/
lemma Element.line_withinScope (scope : String) (e : Element) :
    (e.withinScope scope).tag.line = e.tag.line := by
  cases e <;> rfl

/-- A member that is added does not change the line. -/
lemma Element.line_modifyClass_add (kind : Kind) (member : Element) (e : Element) :
    (e.modifyClass (·.add kind member)).tag.line = e.tag.line := by
  cases e <;> rfl

/-- A class with a new member is as it should be where its members are, and the new one is. -/
lemma Class.throughout_add {P : Nat → Scope Element → Prop} {c : Class} {kind : Kind}
    {member : Element} (hc : (Element.ofClass c).Throughout P) (hmember : member.Throughout P)
    (here : P c.tag.line (c.add kind member).members) :
    (Element.ofClass (c.add kind member)).Throughout P := by
  obtain ⟨-, below⟩ := Element.Throughout.ofClass_iff.1 hc
  exact Element.Throughout.ofClass_iff.2 ⟨here, below.add (hmember.withinScope c.name)⟩

/-- The members of a class keep their order with one that begins no earlier than those of its
kind. -/
lemma Class.ascends_add {c : Class} (hc : c.members.Ascends) {kind : Kind} {member : Element}
    (hlast : ∀ x ∈ c.members.get kind, x.tag.line ≤ member.tag.line) :
    (c.add kind member).members.Ascends := by
  refine Scope.Ascends.add hc fun x hx => ?_
  rw [Element.line_withinScope]
  exact hlast x hx

/-- A class that is in order stays so with a member that begins no earlier than the class and no
earlier than the members of its kind. -/
lemma Class.inOrder_add {c : Class} (hc : (Element.ofClass c).Throughout Scope.InOrder)
    {kind : Kind}
    {member : Element} (hmember : member.Throughout Scope.InOrder)
    (hclass : c.tag.line ≤ member.tag.line)
    (hlast : ∀ x ∈ c.members.get kind, x.tag.line ≤ member.tag.line) :
    (Element.ofClass (c.add kind member)).Throughout Scope.InOrder := by
  obtain ⟨here, -⟩ := Element.Throughout.ofClass_iff.1 hc
  refine Class.throughout_add hc hmember ⟨Class.ascends_add here.ascends hlast, ?_⟩
  refine here.beginsFrom.add ?_
  rw [Element.line_withinScope]
  exact hclass

end Outliner
