import Outliner.Draft

set_option autoImplicit false

/-!
# Reading line by line

Most sources are read one line after the other, with a state carried from each line to the next.
Lines are counted from zero.

## Main definitions

* `Outliner.eachLine` — what is found on lines read independently of each other.
* `Outliner.readLines` — what is found on lines read with a state.

## Main results

* `Outliner.readLines_append` — the lines read first decide only in what state the others are read.
* `Outliner.readLines_take_succ` — reading one more line.
-/

namespace Outliner

variable {σ α : Type}

/-- All that is found on lines read independently of each other. -/
def eachLine (read : Nat → List Char → List α) (lines : List (List Char)) : List α :=
  (lines.mapIdx read).flatten

/-- The state after the lines and all that is found on them, where the first line has the number
`first`. -/
def readLines (read : σ → Nat → List Char → σ × List α) (first : Nat) (state : σ) :
    List (List Char) → σ × List α
  | [] => (state, [])
  | line :: lines =>
    let here := read state first line
    let further := readLines read (first + 1) here.1 lines
    (further.1, here.2 ++ further.2)

/-- Lines are read in order: the ones behind are read in the state in which the ones in front leave
the reader. -/
theorem readLines_append (read : σ → Nat → List Char → σ × List α) (first : Nat) (state : σ)
    (a b : List (List Char)) :
    readLines read first state (a ++ b) =
      ((readLines read (first + a.length) (readLines read first state a).1 b).1,
        (readLines read first state a).2
          ++ (readLines read (first + a.length) (readLines read first state a).1 b).2) := by
  induction a generalizing first state with
  | nil => simp [readLines]
  | cons line a ih =>
    simp only [List.cons_append, readLines, ih, List.length_cons, List.append_assoc]
    rw [Nat.add_right_comm first 1 a.length, Nat.add_assoc first a.length 1]

/-- One more line of a source is read in the state in which the lines before it leave the reader. -/
theorem readLines_take_succ (read : σ → Nat → List Char → σ × List α) (state : σ)
    {lines : List (List Char)} {k : Nat} {text : List Char} (htext : lines[k]? = some text) :
    readLines read 0 state (lines.take (k + 1)) =
      ((read (readLines read 0 state (lines.take k)).1 k text).1,
        (readLines read 0 state (lines.take k)).2
          ++ (read (readLines read 0 state (lines.take k)).1 k text).2) := by
  obtain ⟨hk, rfl⟩ := List.getElem?_eq_some_iff.1 htext
  have hlength : 0 + (lines.take k).length = k := by
    rw [Nat.zero_add, List.length_take_of_le (Nat.le_of_lt hk)]
  rw [List.take_succ_eq_append_getElem hk, readLines_append, hlength]
  simp only [readLines, List.append_nil]

end Outliner
