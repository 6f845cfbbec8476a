import Mathlib.Tactic.Lemma
import Outliner.Reader
import Outliner.Proofs.Checked.Cursor
import Outliner.Proofs.Words

set_option autoImplicit false

/-!
# Passages along a line

A line that was written down piece by piece is read piece by piece: each piece is passed over from
one state to the next, and what is found in the pieces is found on the line. Where a piece says
whatever it likes, an invariant of the steps says what is left of the state behind it. With the
lines of a source it is the same.

## Main definitions

* `Outliner.Cursor.HoldsWord` — a word stands on a line.
* `Outliner.Cursor.Passes` — the walk passes over a piece of a line.

## Main results

* `Outliner.Cursor.Passes.append` — two pieces are passed over one after the other.
* `Outliner.Cursor.Passes.walk_start` — a line that is passed over is walked along.
* `Outliner.Cursor.walk_silent` — an invariant of steps that find nothing holds at the end of a
  line.
* `Outliner.readLines_cons_of`, `Outliner.readLines_append_of` — lines are read one after the other.
-/

namespace Outliner.Cursor

/-! ## Moves over what was written -/

/-- Going forward over a text leaves it behind, turned around. -/
lemma forward_over (before text rest : List Char) :
    (⟨before, text ++ rest⟩ : Cursor).forward text.length = ⟨text.reverse ++ before, rest⟩ := by
  rw [forward, List.take_left, List.drop_left]

/-- What does not occur on the line does not come next. -/
lemma startsWith_eq_false {pattern : List Char} {c : Cursor} (h : ¬ pattern <:+: c.line) :
    c.startsWith pattern = false := by
  rw [Bool.eq_false_iff]
  intro hstarts
  obtain ⟨rest, hrest⟩ := startsWith_iff.1 hstarts
  have hnext : pattern <+: c.after := ⟨rest, hrest.symm⟩
  exact h (hnext.isInfix.trans c.after_suffix.isInfix)

/-- What begins with another character does not come next. -/
lemma startsWith_of_ne {ch sign : Char} (h : ch ≠ sign) (before rest pattern : List Char) :
    (⟨before, ch :: rest⟩ : Cursor).startsWith (sign :: pattern) = false := by
  rw [Bool.eq_false_iff]
  intro hstarts
  obtain ⟨tail, htail⟩ := startsWith_iff.1 hstarts
  exact h (List.cons_eq_cons.1 htail).1

/-- A word of a class of characters ends where a character of another class comes. -/
lemma span_word {p : Char → Bool} {word rest : List Char} (hword : word.all p = true)
    (hrest : rest.head?.any p = false) (before : List Char) :
    (⟨before, word ++ rest⟩ : Cursor).span p = (word, ⟨word.reverse ++ before, rest⟩) := by
  rw [span, takeWhile_word hword hrest, forward_over]

/-! ## Words that stand on a line -/

/-- The word stands on the line: it begins where a word may begin, and goes as far as the characters
of words go. -/
def HoldsWord (p : Char → Bool) (word line : List Char) : Prop :=
  ∃ n < line.length, ((start line).forward n).isAtWordStart = true
    ∧ (((start line).forward n).span p).1 = word

instance (p : Char → Bool) (word line : List Char) : Decidable (HoldsWord p word line) :=
  inferInstanceAs (Decidable (∃ n < line.length, _))

/-- Each place on a line is reached from its start. -/
lemma forward_start (c : Cursor) : (start c.line).forward c.before.length = c := by
  obtain ⟨before, after⟩ := c
  simp [start, forward, line, consumed]

/-- A word at the cursor stands on the line. -/
lemma holdsWord_span (p : Char → Bool) {c : Cursor} {ch : Char} (hch : c.peek? = some ch)
    (hstart : c.isAtWordStart = true) : HoldsWord p (c.span p).1 c.line := by
  obtain ⟨text, hafter⟩ := List.head?_eq_some_iff.1 hch
  refine ⟨c.before.length, ?_, ?_, ?_⟩
  · simp [line, consumed, hafter]
  · rwa [forward_start]
  · rw [forward_start]

/-! ## Passages -/

variable {σ α : Type} {step : σ → Cursor → Char → Step σ α}

/-- From the state `s` the walk passes over the text to the state `s'` and finds what is said, where
`before` stands before the text, the nearest character first, and `rest` after it. -/
def Passes (step : σ → Cursor → Char → Step σ α) (s : σ) (before text rest : List Char) (s' : σ)
    (found : List α) : Prop :=
  walk step s ⟨before, text ++ rest⟩ =
    ((walk step s' ⟨text.reverse ++ before, rest⟩).1,
      found ++ (walk step s' ⟨text.reverse ++ before, rest⟩).2)

namespace Passes

variable {s s' s'' : σ} {before text further rest : List Char} {found later : List α}

/-- Over nothing a walk passes without a step. -/
lemma nil : Passes step s before [] rest s [] := rfl

/-- **Two pieces are passed over one after the other.** -/
lemma append (h : Passes step s before text (further ++ rest) s' found)
    (h' : Passes step s' (text.reverse ++ before) further rest s'' later) :
    Passes step s before (text ++ further) rest s'' (found ++ later) := by
  rw [Passes] at h h' ⊢
  rw [List.append_assoc, h, h', List.reverse_append, List.append_assoc, List.append_assoc]

/-- Where nothing is found in the first piece, what is found is found in the second. -/
lemma append_silent (h : Passes step s before text (further ++ rest) s' [])
    (h' : Passes step s' (text.reverse ++ before) further rest s'' found) :
    Passes step s before (text ++ further) rest s'' found :=
  h.append h'

/-- A step passes over the characters by which it moves. -/
lemma of_step {ch : Char}
    (h : step s ⟨before, ch :: text ++ rest⟩ ch
      = { state := s', cursor := ⟨(ch :: text).reverse ++ before, rest⟩, found := found }) :
    Passes step s before (ch :: text) rest s' found := by
  have hmoves : (step s ⟨before, ch :: text ++ rest⟩ ch).cursor.after.length
      < (ch :: text ++ rest).length := by
    rw [h, List.length_append]
    exact Nat.lt_add_of_pos_left (Nat.succ_pos text.length)
  rw [Passes, walk_step _ _ rfl hmoves, h]

/-- A step passes over the next character. -/
lemma of_next {ch : Char}
    (h : step s ⟨before, ch :: rest⟩ ch
      = { state := s', cursor := ⟨ch :: before, rest⟩, found := found }) :
    Passes step s before [ch] rest s' found := of_step h

/-- Where nothing is found at the first character, what is found is found after it. -/
lemma cons {ch : Char} (h : Passes step s before [ch] (text ++ rest) s' [])
    (h' : Passes step s' (ch :: before) text rest s'' found) :
    Passes step s before (ch :: text) rest s'' found :=
  h.append_silent h'

/-- **A line that is passed over is walked along.** -/
lemma walk_start (h : Passes step s [] text [] s' found) :
    walk step s (.start text) = (s', found) := by
  have hend : (⟨text.reverse ++ [], []⟩ : Cursor).after = [] := rfl
  rw [Passes, List.append_nil, walk_end _ _ hend, List.append_nil] at h
  exact h

end Passes

/-! ## Pieces that say whatever they like -/

/-- **An invariant of steps that find nothing holds at the end of a line.**

**Proof sketch.** Induction on the number of characters that are left. Since each step moves on, the
walk ends only at the end of the line. -/
lemma walk_silent {J : σ → Cursor → Prop}
    (hstep : ∀ s c ch, c.peek? = some ch → J s c → c.Advances (step s c ch).cursor
      ∧ (step s c ch).found = [] ∧ J (step s c ch).state (step s c ch).cursor)
    {s : σ} {c : Cursor} (h : J s c) :
    ∃ last, last.after = [] ∧ J (walk step s c).1 last ∧ (walk step s c).2 = [] := by
  induction hn : c.after.length using Nat.strong_induction_on generalizing s c with
  | _ n ih =>
    cases hafter : c.after with
    | nil =>
      rw [walk_end step s hafter]
      exact ⟨c, hafter, h, rfl⟩
    | cons ch text =>
      have hch : c.peek? = some ch := List.head?_eq_some_iff.2 ⟨text, hafter⟩
      obtain ⟨hadvances, hfound, hnext⟩ := hstep s c ch hch h
      have hmoves := length_after_of_advances hch hadvances
      rw [walk_step step s hafter hmoves, hfound]
      exact ih _ (hn ▸ hmoves) hnext rfl

end Outliner.Cursor

namespace Outliner

/-! ## Passages of a source -/

section Lines

variable {σ α : Type} {read : σ → Nat → List Char → σ × List α} {first : Nat} {s s' s'' : σ}
  {found later : List α}

/-- A line and the lines after it are read one after the other. -/
lemma readLines_cons_of {line : List Char} {lines : List (List Char)}
    (h : read s first line = (s', found))
    (h' : readLines read (first + 1) s' lines = (s'', later)) :
    readLines read first s (line :: lines) = (s'', found ++ later) := by
  rw [readLines, h, h']

/-- A single line is read. -/
lemma readLines_single {line : List Char} (h : read s first line = (s', found)) :
    readLines read first s [line] = (s', found) := by
  rw [readLines, h]
  exact Prod.ext rfl (List.append_nil found)

/-- Lines and the lines after them are read one after the other. -/
lemma readLines_append_of {lines further : List (List Char)}
    (h : readLines read first s lines = (s', found))
    (h' : readLines read (first + lines.length) s' further = (s'', later)) :
    readLines read first s (lines ++ further) = (s'', found ++ later) := by
  rw [readLines_append, h, h']

end Lines

end Outliner
