import Mathlib.Tactic.Lemma
import Outliner.Proofs.Filing

set_option autoImplicit false

/-!
# Scopes that are left from the inside

A reader that works line by line knows its open scopes by a number each: an indentation, or how many
braces were open. The numbers grow inward, so the scopes that a line leaves, those whose numbers
reach a bound, are the innermost ones.

## Main definitions

* `Outliner.nest` — the tags of scopes that stand within each other.

## Main results

* `Outliner.dropWhile_eq_filter` — leaving from the inside leaves all scopes that reach the bound.
* `Outliner.Draft.leave_replicate` — what leaving scopes does to a draft.
-/

namespace Outliner

/-- The tags of scopes that stand within each other, the innermost one first, where each is told
without those around it. -/
def nest : List Tag → List Tag
  | [] => []
  | tag :: outer => tag.heldBy (nest outer) :: nest outer

/-- Leaving the innermost scopes changes nothing in those around them. -/
lemma drop_nest (left outer : List Tag) : (nest (left ++ outer)).drop left.length = nest outer := by
  induction left with
  | nil => rfl
  | cons tag left ih => exact ih

/-- A scope begins on its line, whatever holds it. -/
lemma map_line_nest (tags : List Tag) : (nest tags).map Tag.line = tags.map Tag.line := by
  induction tags with
  | nil => rfl
  | cons tag outer ih => rw [nest, List.map_cons, List.map_cons, Tag.line_heldBy, ih]

/-- **Where the values descend, those that reach a bound stand in front.** -/
lemma dropWhile_eq_filter {α : Type} {l : List α} {f : α → Nat}
    (h : l.Pairwise fun a b => f b < f a) (n : Nat) :
    l.dropWhile (fun a => n ≤ f a) = l.filter fun a => f a < n := by
  induction l with
  | nil => rfl
  | cons a l ih =>
    obtain ⟨hfirst, hrest⟩ := List.pairwise_cons.1 h
    rcases Nat.lt_or_ge (f a) n with ha | ha
    · have hall : ∀ b ∈ l, decide (f b < n) = true := fun b hb =>
        decide_eq_true (Nat.lt_trans (hfirst b hb) ha)
      rw [List.dropWhile_cons_of_neg (by simpa using ha),
        List.filter_cons_of_pos (by simpa using ha), List.filter_eq_self.2 hall]
    · rw [List.dropWhile_cons_of_pos (by simpa using ha),
        List.filter_cons_of_neg (by simpa using ha), ih hrest]

/-- Leaving scopes takes their tags off the holders and changes no element. -/
lemma Draft.leave_replicate (n : Nat) (d : Draft) :
    holdersOf (d.marks (List.replicate n .leave)).opened = (holdersOf d.opened).drop n
      ∧ (d.marks (List.replicate n .leave)).occurrences.Perm d.occurrences := by
  induction n generalizing d with
  | zero => exact ⟨rfl, List.Perm.refl _⟩
  | succ n ih =>
    obtain ⟨hholders, hoccurrences⟩ := ih d.leave
    rw [List.replicate_succ, Draft.marks_cons]
    refine ⟨?_, hoccurrences.trans d.occurrences_leave⟩
    rw [show d.mark .leave = d.leave from rfl, hholders, Draft.holdersOf_leave, List.drop_tail]

end Outliner
