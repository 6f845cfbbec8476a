import Mathlib.Data.List.Perm.Lattice
import Mathlib.Data.List.Nodup
import Outliner.Proofs.StableSort

set_option autoImplicit false

/-!
# How a scope is listed

A scope is listed by headings. Given an order of kinds, there is one heading for each kind of it
that has items, and the items stand below it by name. At the top of a document the kinds are ordered
by priority, and within a class by their role.

## Main definitions

* `Outliner.Scope.usedKinds` — the kinds that have items.
* `Outliner.Kind.byRole` — kinds in the order in which they are shown within a class.
* `Outliner.Heading.map` — a heading with its items replaced.

## Main results

* `Outliner.Scope.isStableSort_kinds_byPriority`, `Outliner.Scope.kinds_byRole` — which headings
  there are, and in what order.
* `Outliner.Scope.mem_headings` — what stands below a heading.
* `Outliner.Scope.flatMap_headings_perm` — a listing has each item of the scope exactly once, if no
  kind has two groups.
-/

namespace Outliner

variable {α β γ : Type}

/-- The kinds that have items, in the order of their first use. -/
def Scope.usedKinds (s : Scope α) : List Kind := s.kinds.filter fun kind => !(s.get kind).isEmpty

/-- Variables, then methods, then the other kinds in the order in which they are given. -/
def Kind.byRole (kinds : List Kind) : List Kind :=
  kinds.filter (· = .vars) ++ kinds.filter (· = .methods)
    ++ kinds.filter fun kind => kind ≠ .vars ∧ kind ≠ .methods

/-- The heading with every item replaced by its image. -/
def Heading.map (f : α → β) (heading : Heading α) : Heading β :=
  ⟨heading.kind, heading.description, heading.priority, heading.items.map f⟩

/-- Leaving out what contributes nothing changes nothing. -/
lemma flatMap_filter_of_nil {l : List α} {p : α → Bool} {f : α → List β}
    (h : ∀ a ∈ l, p a = false → f a = []) : (l.filter p).flatMap f = l.flatMap f := by
  induction l with
  | nil => rfl
  | cons a l ih =>
    have ih := ih fun b hb => h b (List.mem_cons_of_mem a hb)
    by_cases hp : p a = true
    · simp [hp, ih]
    · simp [hp, ih, h a List.mem_cons_self (by simpa using hp)]

namespace Scope

/-! ## The items of a kind -/

/-- The items of a kind are those of a group of this kind. -/
lemma mem_get {kind : Kind} {a : α} {s : Scope α} (h : a ∈ s.get kind) :
    ∃ g ∈ s.groups, g.kind = kind ∧ a ∈ g.items := by
  rw [get, group?] at h
  cases hg : s.groups.find? (·.kind == kind) with
  | none => simp [hg] at h
  | some g =>
    refine ⟨g, List.mem_of_find?_eq_some hg, by simpa using List.find?_some hg, ?_⟩
    simpa [hg] using h

/-- Where no kind has two groups, the items of a kind are those of its group. -/
lemma get_of_mem_groups {s : Scope α} (h : s.kinds.Nodup) {g : Group α} (hg : g ∈ s.groups) :
    s.get g.kind = g.items := by
  obtain ⟨groups, descriptions, priorities⟩ := s
  simp only [kinds] at h hg
  simp only [get, group?]
  induction groups with
  | nil => simp at hg
  | cons first groups ih =>
    rw [List.map_cons, List.nodup_cons] at h
    rcases List.mem_cons.1 hg with rfl | hmem
    · simp
    · have hne : (first.kind == g.kind) = false := by
        rw [beq_eq_false_iff_ne]
        exact fun heq => h.1 (heq ▸ List.mem_map_of_mem hmem)
      simpa [List.find?_cons, hne] using ih h.2 hmem

/-- A kind that is not in use has no items. -/
lemma get_eq_nil_of_not_mem_kinds {kind : Kind} {s : Scope α} (h : kind ∉ s.kinds) :
    s.get kind = [] := by
  refine List.eq_nil_iff_forall_not_mem.2 fun a ha => ?_
  obtain ⟨g, hg, rfl, -⟩ := mem_get ha
  exact h (List.mem_map_of_mem hg)

/-- A change of one item of a kind touches the items of no other kind.

**Proof sketch.** Induction on the groups, up to the one of the kind. -/
lemma get_modifyAt (kind other : Kind) (i : Nat) (change : α → α) (s : Scope α) :
    (s.modifyAt kind i change).get other
      = if other = kind then (s.get kind).modify i change else s.get other := by
  obtain ⟨groups, descriptions, priorities⟩ := s
  simp only [modifyAt, modify, get, group?]
  induction groups with
  | nil => simp [Group.revise]
  | cons g groups ih =>
    by_cases hg : g.kind = kind
    · subst hg
      by_cases hother : other = g.kind
      · simp [Group.revise, hother]
      · simp [Group.revise, hother, beq_eq_false_iff_ne.2 (Ne.symm hother)]
    · by_cases hhere : g.kind = other
      · subst hhere
        simp [Group.revise, hg]
      · simpa [Group.revise, hg, List.find?_cons, beq_eq_false_iff_ne.2 hhere,
          beq_eq_false_iff_ne.2 hg] using ih

/-- Where no kind has two groups, going through the groups is going through the items of each kind
in use. -/
lemma flatMap_kinds_get {s : Scope α} (h : s.kinds.Nodup) (f : α → List β) :
    (s.kinds.flatMap fun kind => (s.get kind).flatMap f) = s.groups.flatMap (·.items.flatMap f) := by
  rw [kinds, List.flatMap_map]
  exact List.flatMap_congr fun g hg => by rw [get_of_mem_groups h hg]

/-! ## Headings -/

section Named

variable [Named α] [Named β]

/-- There is a heading for each of the given kinds that has items. -/
lemma kinds_headings (order : List Kind) (s : Scope α) :
    (s.headings order).map Heading.kind = order.filter fun kind => !(s.get kind).isEmpty := by
  rw [headings, List.filter_map, List.map_map]
  have hid : Heading.kind ∘ s.heading = id := rfl
  rw [hid, List.map_id]
  refine List.filter_congr fun kind _ => ?_
  have hempty : (s.sorted kind).isEmpty = (s.get kind).isEmpty :=
    (Named.isStableSort_sort (s.get kind)).perm.isEmpty_eq
  simp [heading, hempty]

/-- Below a heading stand the items of its kind in the order of their names, and there are some. -/
lemma mem_headings {order : List Kind} {s : Scope α} {heading : Heading α}
    (h : heading ∈ s.headings order) :
    heading.items ≠ [] ∧ heading.description = s.description heading.kind
      ∧ heading.priority = s.priority heading.kind ∧ heading.items = s.sorted heading.kind := by
  obtain ⟨hmem, hitems⟩ := List.mem_filter.1 h
  obtain ⟨kind, -, rfl⟩ := List.mem_map.1 hmem
  exact ⟨by simpa using hitems, rfl, rfl, rfl⟩

/-- A listing by an order in which every kind of the scope stands exactly once holds each item
exactly once.

**Proof sketch.** A heading without items contributes nothing, so all kinds of the order may be gone
through; a kind that is not in use contributes nothing either, so the kinds in use may be. Sorting
the items of a kind permutes them. -/
theorem flatMap_headings_perm {order : List Kind} {s : Scope α} (hs : s.kinds.Nodup)
    (horder : order.Nodup) (hsub : s.kinds ⊆ order) (f : α → List γ) :
    ((s.headings order).flatMap (·.items.flatMap f)).Perm
      (s.groups.flatMap (·.items.flatMap f)) := by
  have hheadings : (s.headings order).flatMap (·.items.flatMap f)
      = order.flatMap fun kind => (s.sorted kind).flatMap f := by
    rw [headings, flatMap_filter_of_nil, List.flatMap_map]
    · rfl
    · intro heading _ hempty
      simp [show heading.items = [] by simpa using hempty]
  have hsorted : (order.flatMap fun kind => (s.sorted kind).flatMap f).Perm
      (order.flatMap fun kind => (s.get kind).flatMap f) :=
    List.Perm.flatMap_left order fun kind _ =>
      (Named.isStableSort_sort (s.get kind)).perm.flatMap_right f
  have hfilter : (order.filter (· ∈ s.kinds)).flatMap (fun kind => (s.get kind).flatMap f)
      = order.flatMap fun kind => (s.get kind).flatMap f := by
    refine flatMap_filter_of_nil fun kind _ hkind => ?_
    rw [get_eq_nil_of_not_mem_kinds (by simpa using hkind), List.flatMap_nil]
  have hused : (order.filter (· ∈ s.kinds)).Perm s.kinds := by
    refine (List.perm_ext_iff_of_nodup (horder.filter _) hs).2 fun kind => ?_
    simp only [List.mem_filter, decide_eq_true_eq]
    exact ⟨And.right, fun h => ⟨hsub h, h⟩⟩
  rw [hheadings, ← flatMap_kinds_get hs]
  refine hsorted.trans ?_
  rw [← hfilter]
  exact hused.flatMap_right _

/-- At the top, the headings are those of the kinds that have items, the higher priority first. -/
theorem isStableSort_kinds_byPriority (s : Scope α) :
    IsStableSort (· ≥ ·) s.priority s.usedKinds (s.byPriority.map Heading.kind) := by
  rw [byPriority, kinds_headings]
  exact s.isStableSort_kindsByPriority.filter _

/-- Within a class, the headings are those of the kinds that have items, ordered by role.

**Proof sketch.** Variables and methods are always asked for, but have a heading only if they have
items. They have items only if they are in use, and then they stand exactly once among the kinds. -/
theorem kinds_byRole {s : Scope α} (hs : s.kinds.Nodup) :
    s.byRole.map Heading.kind = Kind.byRole s.usedKinds := by
  have hnodup : s.usedKinds.Nodup := hs.filter _
  have hfixed : ∀ fixed : Kind, [fixed].filter (fun kind => !(s.get kind).isEmpty)
      = s.usedKinds.filter (· = fixed) := by
    intro fixed
    by_cases hmem : fixed ∈ s.usedKinds
    · have hused : (s.get fixed).isEmpty = false := by
        simpa using (List.mem_filter.1 hmem).2
      rw [List.filter_eq, List.count_eq_one_of_mem hnodup hmem]
      simp [hused]
    · have hempty : s.get fixed = [] := by
        by_contra hne
        have hkind : fixed ∈ s.kinds := by
          by_contra hkind
          exact hne (get_eq_nil_of_not_mem_kinds hkind)
        exact hmem (List.mem_filter.2 ⟨hkind, by simpa using hne⟩)
      have hnone : s.usedKinds.filter (· = fixed) = [] := by
        refine List.filter_eq_nil_iff.2 fun kind hkind heq => hmem ?_
        rwa [← (by simpa using heq : kind = fixed)]
      simp [hempty, hnone]
  rw [byRole, kinds_headings, kindsByRole, Kind.byRole, List.filter_append]
  congr 1
  · rw [show ([Kind.vars, Kind.methods] : List Kind) = [.vars] ++ [.methods] from rfl,
      List.filter_append, hfixed, hfixed]
  · rw [usedKinds, List.filter_comm]
    refine List.filter_congr fun kind _ => ?_
    by_cases hvars : kind = .vars <;> by_cases hmethods : kind = .methods <;> simp [hvars, hmethods]

end Named

end Scope

end Outliner
