import Outliner.Cursor

set_option autoImplicit false

/-!
# Walking along a line

Much of reading is a walk: look at the next character, decide, move on, until the line ends. A step
sees the state, the cursor and the next character; it gives the state and the cursor after it, and
what it found. A step that does not move on ends the walk, so that every walk ends; the steps of
this library all move on, and for such steps `Cursor.walk_step` is the whole rule.

## Main definitions

* `Outliner.Cursor.Step` — the outcome of one step.
* `Outliner.Cursor.walk` — the walk to the end of the line.

## Main results

* `Outliner.Cursor.walk_step` — a walk is its first step and the walk from there.
-/

namespace Outliner.Cursor

/-- The outcome of one step: the state and the cursor after it, and what it found. -/
structure Step (σ α : Type) where
  /-- The state after the step. -/
  state : σ
  /-- The cursor after the step. -/
  cursor : Cursor
  /-- What the step found, in order. -/
  found : List α := []

variable {σ α : Type}

/-- Walks to the end of the line, and gives the last state and all that was found. -/
def walk (step : σ → Cursor → Char → Step σ α) (state : σ) (c : Cursor) : σ × List α :=
  match c.peek? with
  | none => (state, [])
  | some ch =>
    let here := step state c ch
    if here.cursor.after.length < c.after.length then
      let further := walk step here.state here.cursor
      (further.1, here.found ++ further.2)
    else (here.state, here.found)
termination_by c.after.length

/-- At the end of the line a walk is over. -/
theorem walk_end (step : σ → Cursor → Char → Step σ α) (state : σ) {c : Cursor} (h : c.after = []) :
    walk step state c = (state, []) := by
  rw [walk]
  simp [peek?, h]

/-- A walk goes on from where a step that moves on has led, and what the step finds comes first. -/
theorem walk_step (step : σ → Cursor → Char → Step σ α) (state : σ) {c : Cursor} {ch : Char}
    {rest : List Char} (h : c.after = ch :: rest)
    (moves : (step state c ch).cursor.after.length < c.after.length) :
    walk step state c =
      ((walk step (step state c ch).state (step state c ch).cursor).1,
        (step state c ch).found
          ++ (walk step (step state c ch).state (step state c ch).cursor).2) := by
  rw [walk]
  simp [peek?, h] at moves ⊢
  intro stuck
  omega

end Outliner.Cursor
