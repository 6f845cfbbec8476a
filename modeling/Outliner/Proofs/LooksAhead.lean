import Mathlib.Tactic.Lemma
import Outliner.Proofs.Passage

set_option autoImplicit false

/-!
# Steps that look ahead

A step along a line that asks only what follows the cursor does the same wherever its text stands.
Then what a walk finds in a text does not depend on the text in front of it, so a text that is read
behind another one is read like a line of its own.

## Main definitions

* `Outliner.Cursor.LooksAhead` — a move that depends only on what follows the cursor.
* `Outliner.Cursor.Step.LooksAhead` — a step that does.

## Main results

* `Outliner.Cursor.walk_of_looksAhead` — such steps find the same behind any text.
-/

namespace Outliner.Cursor

variable {σ α : Type}

/-- The move depends only on what follows the cursor. -/
def LooksAhead (move : Cursor → Cursor) : Prop :=
  ∀ text, ∃ n, ∀ before, move ⟨before, text⟩ = (⟨before, text⟩ : Cursor).forward n

/-- What is done at a cursor depends only on what follows it. -/
def Step.LooksAhead (act : Cursor → Step σ α) : Prop :=
  ∀ text, ∃ s n found, ∀ before,
    act ⟨before, text⟩
      = { state := s, cursor := (⟨before, text⟩ : Cursor).forward n, found := found }

/-- A pattern at the cursor is seen ahead. -/
lemma eat?_mk (pattern before text : List Char) :
    (⟨before, text⟩ : Cursor).eat? pattern
      = if Outliner.startsWith pattern text then
          some ((⟨before, text⟩ : Cursor).forward pattern.length)
        else none := rfl

/-! ## Moves -/

namespace LooksAhead

variable {move further : Cursor → Cursor}

/-- Staying where it is looks ahead. -/
lemma stay : LooksAhead fun c => c := fun _ => ⟨0, fun _ => rfl⟩

/-- Skipping blanks looks ahead. -/
lemma skipBlanks : LooksAhead skipBlanks :=
  fun text => ⟨(text.takeWhile isBlank).length, fun _ => rfl⟩

/-- Two moves may be made one after the other. -/
lemma comp (h : LooksAhead move) (h' : LooksAhead further) :
    LooksAhead fun c => further (move c) := by
  intro text
  obtain ⟨m, hm⟩ := h text
  obtain ⟨n, hn⟩ := h' (text.drop m)
  refine ⟨m + n, fun before => ?_⟩
  show further (move ⟨before, text⟩) = _
  rw [hm, ← forward_forward]
  exact hn _

/-- A move may be made behind a pattern, and another one where it does not stand. -/
lemma eat? (h : LooksAhead move) (pattern : List Char) (h' : LooksAhead further) :
    LooksAhead fun c =>
      match c.eat? pattern with
      | some inside => move inside
      | none => further c := by
  intro text
  by_cases hstarts : Outliner.startsWith pattern text = true
  · obtain ⟨n, hn⟩ := h (text.drop pattern.length)
    refine ⟨pattern.length + n, fun before => ?_⟩
    simp only [eat?_mk, if_pos hstarts, ← forward_forward]
    exact hn _
  · obtain ⟨n, hn⟩ := h' text
    refine ⟨n, fun before => ?_⟩
    simp only [eat?_mk, if_neg hstarts]
    exact hn before

/-- Eating a pattern looks ahead. -/
lemma eat (pattern : List Char) : LooksAhead (·.eat pattern) := by
  intro text
  by_cases hstarts : Outliner.startsWith pattern text = true
  · exact ⟨pattern.length, fun before => by simp only [Cursor.eat, eat?_mk, if_pos hstarts]; rfl⟩
  · exact ⟨0, fun before => by simp only [Cursor.eat, eat?_mk, if_neg hstarts]; rfl⟩

end LooksAhead

/-! ## Steps -/

namespace Step.LooksAhead

variable {onward : Cursor → Cursor} {act other : Cursor → Step σ α}

/-- Two ways to say what is done. -/
lemma congr (h : Step.LooksAhead act) (heq : ∀ c, other c = act c) : Step.LooksAhead other := by
  rwa [funext heq]

/-- A move may find something that follows the cursor. -/
lemma move (h : Cursor.LooksAhead onward) (s : σ) (found : List Char → List α) :
    Step.LooksAhead fun c => { state := s, cursor := onward c, found := found c.after } := by
  intro text
  obtain ⟨n, hn⟩ := h text
  exact ⟨s, n, found text, fun before => by simp only [hn before]⟩

/-- A move may be made before something is done. -/
lemma after (h : Step.LooksAhead act) (hmove : Cursor.LooksAhead onward) :
    Step.LooksAhead fun c => act (onward c) := by
  intro text
  obtain ⟨m, hm⟩ := hmove text
  obtain ⟨s, n, found, hn⟩ := h (text.drop m)
  refine ⟨s, m + n, found, fun before => ?_⟩
  show act (onward ⟨before, text⟩) = _
  rw [hm, ← forward_forward]
  exact hn _

/-- Something may be done behind a pattern, and something else where it does not stand. -/
lemma eat? (h : Step.LooksAhead act) (pattern : List Char) (h' : Step.LooksAhead other) :
    Step.LooksAhead fun c => (c.eat? pattern).elim (other c) act := by
  intro text
  by_cases hstarts : Outliner.startsWith pattern text = true
  · obtain ⟨s, n, found, hn⟩ := h (text.drop pattern.length)
    refine ⟨s, pattern.length + n, found, fun before => ?_⟩
    simp only [eat?_mk, if_pos hstarts, ← forward_forward]
    exact hn _
  · obtain ⟨s, n, found, hn⟩ := h' text
    refine ⟨s, n, found, fun before => ?_⟩
    simp only [eat?_mk, if_neg hstarts]
    exact hn before

/-- Something may be done behind a word. -/
lemma span (p : Char → Bool) {act : List Char → Cursor → Step σ α}
    (h : ∀ word, Step.LooksAhead (act word)) :
    Step.LooksAhead fun c => act (c.span p).1 (c.span p).2 := by
  intro text
  have hmove : Cursor.LooksAhead fun c => (c.span p).2 :=
    fun text => ⟨(text.takeWhile p).length, fun _ => rfl⟩
  exact (h (text.takeWhile p)).after hmove text

/-- Something may be done beyond a pattern, and something else where it does not occur.

**Proof sketch.** Whether the pattern occurs, and how far away, is told from the text after the
cursor. Either way the cursor goes forward, and what is done there looks ahead. -/
lemma beyond (h : Step.LooksAhead act) (pattern : List Char) (h' : Step.LooksAhead other) :
    Step.LooksAhead fun c =>
      match c.beyond pattern with
      | (true, here) => act here
      | (false, stop) => other stop := by
  intro text
  cases hoffset : offset? pattern text with
  | some m =>
    obtain ⟨s, n, found, hn⟩ := h (text.drop (m + pattern.length))
    refine ⟨s, m + pattern.length + n, found, fun before => ?_⟩
    rw [← forward_forward]
    simp only [Cursor.beyond, hoffset]
    exact hn _
  | none =>
    obtain ⟨s, n, found, hn⟩ := h' (text.drop text.length)
    refine ⟨s, text.length + n, found, fun before => ?_⟩
    rw [← forward_forward]
    simp only [Cursor.beyond, hoffset]
    exact hn _

end Step.LooksAhead

/-- **What a walk finds depends only on what follows the cursor**, if that holds of its steps.

**Proof sketch.** Induction on the number of characters that are left. -/
theorem walk_of_looksAhead {step : σ → Cursor → Char → Step σ α}
    (h : ∀ s ch, Step.LooksAhead (step s · ch)) (s : σ) (before before' text : List Char) :
    walk step s ⟨before, text⟩ = walk step s ⟨before', text⟩ := by
  induction hn : text.length using Nat.strong_induction_on generalizing s before before' text with
  | _ n ih =>
    cases text with
    | nil => rw [walk_end step s rfl, walk_end step s rfl]
    | cons ch text =>
      obtain ⟨s', m, found, hstep⟩ := h s ch (ch :: text)
      rw [walk, walk]
      simp only [peek?, List.head?_cons, hstep, length_after_forward]
      split
      · next hmoves =>
        have hrest := ih _ (hn ▸ hmoves) s' (((ch :: text).take m).reverse ++ before)
          (((ch :: text).take m).reverse ++ before') ((ch :: text).drop m) (by simp [← hn])
        simp only [forward, hrest]
      · rfl

end Outliner.Cursor
