import Mathlib.Data.List.Perm.Basic
import Mathlib.Data.String.Basic
import Mathlib.Tactic.Lemma
import Outliner.Scope

set_option autoImplicit false

/-!
# Stable sorting by a key

A list is sorted by a key when the keys follow each other in order, and the sorting is stable when
items of one key keep the order they had. Both together determine which items there are, and how
often, so that nothing more has to be said about a view that is sorted.

## Main definitions

* `Outliner.IsStableSort` — one list is another one in the order of a key.

## Main results

* `Outliner.IsStableSort.perm` — sorting loses and doubles nothing.
* `Outliner.IsStableSort.unique` — there is one way to sort a list.
* `Outliner.Named.isStableSort_sort` — items are shown in the order of their names.
* `Outliner.Named.sort_filterMap` — selecting items before sorting is selecting them afterwards.
* `Outliner.Scope.isStableSort_kindsByPriority` — kinds are shown with the higher priority first.
-/

namespace Outliner

variable {α β κ : Type} [DecidableEq κ]

/-- The list `sorted` holds the items of `items` in the order `r` of their keys, and items of one
key in the order they have in `items`. -/
structure IsStableSort (r : κ → κ → Prop) (key : α → κ) (items sorted : List α) : Prop where
  /-- The keys are in order. -/
  ordered : sorted.Pairwise fun a b => r (key a) (key b)
  /-- The items of each key are the same ones in the same order. -/
  stable : ∀ k, sorted.filter (key · = k) = items.filter (key · = k)

namespace IsStableSort

variable {r : κ → κ → Prop} {key : α → κ} {items sorted : List α}

/-- Sorting loses and doubles nothing: an item occurs as often as among the items of its key. -/
theorem perm (h : IsStableSort r key items sorted) : sorted.Perm items := by
  classical
  refine List.perm_iff_count.2 fun a => ?_
  have hcount : ∀ l : List α, (l.filter (key · = key a)).count a = l.count a :=
    fun l => List.count_filter (by simp)
  rw [← hcount sorted, h.stable, hcount]

/-- Leaving out items before sorting is leaving them out afterwards. -/
theorem filter (h : IsStableSort r key items sorted) (p : α → Bool) :
    IsStableSort r key (items.filter p) (sorted.filter p) where
  ordered := h.ordered.sublist List.filter_sublist
  stable k := by rw [List.filter_comm, h.stable, List.filter_comm]

/-- Selecting and replacing items before sorting is doing so afterwards, if what replaces an item
has its key.

**Proof sketch.** The order is kept because keys are. The items that remain for a key are selected
from those that had it, in the order in which these were. -/
theorem filterMap (h : IsStableSort r key items sorted) {f : α → Option β} {key' : β → κ}
    (hkey : ∀ a b, f a = some b → key' b = key a) :
    IsStableSort r key' (items.filterMap f) (sorted.filterMap f) where
  ordered := by
    refine List.pairwise_filterMap.2 (h.ordered.imp fun hr b hb b' hb' => ?_)
    rwa [hkey _ b hb, hkey _ b' hb']
  stable k := by
    have hselect : ∀ l : List α,
        (l.filterMap f).filter (key' · = k) = (l.filter (key · = k)).filterMap f := by
      intro l
      rw [List.filter_filterMap, List.filterMap_filter]
      refine List.filterMap_congr fun a _ => ?_
      cases hf : f a with
      | none => simp
      | some b => simp [Option.filter, hkey a b hf]
    rw [hselect, h.stable, hselect]

/-- **There is one way to sort a list** by an order in which no two keys come before each other.

**Proof sketch.** The first items of two sorted lists come before each other, so they have one key.
Among the items of that key both come first, so they are the same item. -/
theorem unique (hanti : ∀ x y, r x y → r y x → x = y) {sorted' : List α}
    (h : IsStableSort r key items sorted) (h' : IsStableSort r key items sorted') :
    sorted = sorted' := by
  have hsame : ∀ k, sorted.filter (key · = k) = sorted'.filter (key · = k) :=
    fun k => (h.stable k).trans (h'.stable k).symm
  have hperm : sorted.Perm sorted' := h.perm.trans h'.perm.symm
  have hordered := h.ordered
  have hordered' := h'.ordered
  clear h h'
  induction sorted generalizing sorted' with
  | nil => exact hperm.nil_eq
  | cons a l ih =>
    cases sorted' with
    | nil => exact absurd hperm.eq_nil (List.cons_ne_nil a l)
    | cons b l' =>
      obtain ⟨hfirst, hrest⟩ := List.pairwise_cons.1 hordered
      obtain ⟨hfirst', hrest'⟩ := List.pairwise_cons.1 hordered'
      have hkey : key a = key b := by
        rcases List.mem_cons.1 (hperm.mem_iff.1 List.mem_cons_self) with rfl | ha
        · rfl
        · rcases List.mem_cons.1 (hperm.mem_iff.2 List.mem_cons_self) with rfl | hb
          · rfl
          · exact hanti _ _ (hfirst b hb) (hfirst' a ha)
      obtain rfl : a = b := by
        have hhead := congrArg List.head? (hsame (key a))
        simpa [hkey] using hhead
      refine congrArg (a :: ·) (ih (fun k => ?_) hperm.cons_inv hrest hrest')
      have hfilter := hsame k
      rw [List.filter_cons, List.filter_cons] at hfilter
      split at hfilter
      · exact (List.cons.inj hfilter).2
      · exact hfilter

end IsStableSort

/-- Merge sort is stable, for an order of the keys in which any two keys compare.

**Proof sketch.** The items of one key are in order as they stand, so they are a sublist of the
sorted list, hence of its items of that key. There are as many of these. -/
theorem isStableSort_mergeSort {r : κ → κ → Prop} {key : α → κ} {le : α → α → Bool}
    (hle : ∀ a b, le a b = true ↔ r (key a) (key b)) (htrans : ∀ x y z, r x y → r y z → r x z)
    (htotal : ∀ x y, r x y ∨ r y x) (items : List α) :
    IsStableSort r key items (items.mergeSort le) := by
  have hleTrans : ∀ a b c, le a b = true → le b c = true → le a c = true := by
    intro a b c hab hbc
    exact (hle a c).2 (htrans _ _ _ ((hle a b).1 hab) ((hle b c).1 hbc))
  have hleTotal : ∀ a b, (le a b || le b a) = true := by
    intro a b
    simpa [hle] using htotal (key a) (key b)
  refine ⟨(List.pairwise_mergeSort hleTrans hleTotal items).imp fun h => (hle _ _).1 h,
    fun k => ?_⟩
  have hpairwise : (items.filter (key · = k)).Pairwise fun a b => le a b = true := by
    refine List.pairwise_of_forall_mem_list fun a ha b hb => ?_
    have hak : key a = k := by simpa using (List.mem_filter.1 ha).2
    have hbk : key b = k := by simpa using (List.mem_filter.1 hb).2
    rw [hle, hak, hbk]
    exact (htotal k k).elim id id
  have hsub : (items.filter (key · = k)).Sublist ((items.mergeSort le).filter (key · = k)) := by
    have := List.sublist_mergeSort hleTrans hleTotal hpairwise List.filter_sublist
    simpa [List.filter_filter] using this.filter (key · = k)
  exact (hsub.eq_of_length ((List.mergeSort_perm items le).filter _).length_eq.symm).symm

/-! ## The sorted views of a scope -/

namespace Named

variable [Named α] [Named β]

/-- Items are compared by their names. -/
lemma le_iff (a b : α) : Named.le a b = true ↔ name a ≤ name b := by
  simp [Named.le]

/-- Items are shown in the order of their names, equal names in the order of insertion. -/
theorem isStableSort_sort (items : List α) : IsStableSort (· ≤ ·) name items (sort items) :=
  isStableSort_mergeSort le_iff (fun _ _ _ => le_trans) le_total items

/-- **Selecting items before sorting is selecting them afterwards**, if what is selected of an item
has its name. -/
theorem sort_filterMap {f : α → Option β} (hf : ∀ a b, f a = some b → name b = name a)
    (items : List α) : sort (items.filterMap f) = (sort items).filterMap f :=
  (isStableSort_sort _).unique (fun _ _ => le_antisymm) ((isStableSort_sort items).filterMap hf)

/-- Sorting does not depend on anything but the names. -/
theorem sort_map {f : α → β} (hf : ∀ a, name (f a) = name a) (items : List α) :
    sort (items.map f) = (sort items).map f := by
  refine (List.map_mergeSort fun a _ b _ => ?_).symm
  simp [Named.le, hf]

end Named

/-- The kinds in use are shown with the higher priority first, kinds of one priority in the order of
their first use. -/
theorem Scope.isStableSort_kindsByPriority (s : Scope α) :
    IsStableSort (· ≥ ·) s.priority s.kinds s.kindsByPriority :=
  isStableSort_mergeSort (fun a b => by simp) (fun _ _ _ => ge_trans) (fun x y => le_total y x)
    s.kinds

end Outliner
