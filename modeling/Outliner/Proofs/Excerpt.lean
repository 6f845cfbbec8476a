import Mathlib.Data.List.Infix
import Mathlib.Tactic.Lemma
import Outliner.Cursor
import Outliner.Proofs.Words
import Outliner.Text.Piece

set_option autoImplicit false

/-!
# Excerpts of a text

What is read off a line is an excerpt of it: trimming, cutting off a keyword and taking the
characters of a class give a run of adjacent characters of the text, and a cursor that moves stays
on its line.

## Main results

* `Outliner.trim_isInfix`, `Outliner.afterKeyword?_suffix`, `Outliner.mem_pieces_isInfix` — excerpts
  of a text.
* `Outliner.Cursor.span_isInfix` — the characters passed over at a cursor are an excerpt of its
  line.
-/

namespace Outliner

/-! ## Trimming -/

/-- Dropping characters at the end leaves a beginning of the text. -/
lemma reverse_dropWhile_reverse_isPrefix {α : Type} (p : α → Bool) (l : List α) :
    (l.reverse.dropWhile p).reverse <+: l := by
  rw [← List.reverse_suffix, List.reverse_reverse]
  exact List.dropWhile_suffix p

/-- Taking characters from the end gives an end of the text. -/
lemma reverse_takeWhile_reverse_suffix {α : Type} (p : α → Bool) (l : List α) :
    (l.reverse.takeWhile p).reverse <:+ l := by
  rw [← List.reverse_prefix, List.reverse_reverse]
  exact List.takeWhile_prefix p

/-- What is left without blanks at the front is an end of the text. -/
lemma trimStart_suffix (text : List Char) : trimStart text <:+ text :=
  List.dropWhile_suffix isBlank

/-- What is left without blanks at the end is a beginning of the text. -/
lemma trimEnd_isPrefix (text : List Char) : trimEnd text <+: text :=
  reverse_dropWhile_reverse_isPrefix isBlank text

/-- What is left without blanks at either side is an excerpt of the text. -/
lemma trim_isInfix (text : List Char) : trim text <:+: text :=
  (trimEnd_isPrefix _).isInfix.trans (trimStart_suffix text).isInfix

/-! ## Patterns and words -/

/-- What follows a leading pattern is an end of the text. -/
lemma after?_suffix {pattern text rest : List Char} (h : after? pattern text = some rest) :
    rest <:+ text := by
  rw [after?_eq_some_iff.1 h]
  exact List.suffix_append pattern rest

/-- A pattern is found at its first occurrence.

**Proof sketch.** Induction on the text. Where the pattern stands at the front, the offset is zero,
and nothing is before it. Elsewhere the offsets are those in the rest of the text, one character
further on. -/
lemma offset?_eq_some_iff {pattern text : List Char} {n : Nat} :
    offset? pattern text = some n
      ↔ n ≤ text.length ∧ pattern <+: text.drop n ∧ ∀ m < n, ¬pattern <+: text.drop m := by
  induction text generalizing n with
  | nil =>
    cases pattern with
    | nil =>
      simp only [offset?, List.isEmpty_nil, if_true, Option.some.injEq, List.length_nil,
        Nat.le_zero_eq, List.nil_prefix, not_true, true_and]
      constructor
      · rintro rfl
        exact ⟨rfl, fun m hm => absurd hm (Nat.not_lt_zero m)⟩
      · exact fun h => h.1.symm
    | cons p pattern => simp [offset?]
  | cons c text ih =>
    by_cases hstarts : startsWith pattern (c :: text) = true
    -- the pattern stands at the front
    · have hfront : pattern <+: c :: text := by
        obtain ⟨rest, hrest⟩ := startsWith_iff.1 hstarts
        exact ⟨rest, hrest.symm⟩
      rw [offset?, if_pos hstarts]
      constructor
      · rintro h
        obtain rfl := Option.some.inj h
        exact ⟨Nat.zero_le _, hfront, fun m hm => absurd hm (Nat.not_lt_zero m)⟩
      · rintro ⟨-, -, hfirst⟩
        cases n with
        | zero => rfl
        | succ n => exact absurd hfront (hfirst 0 (Nat.succ_pos n))
    -- it does not, and all offsets are one more than in the rest
    · have hfront : ¬pattern <+: c :: text := by
        rintro ⟨rest, hrest⟩
        exact hstarts (startsWith_iff.2 ⟨rest, hrest.symm⟩)
      rw [offset?, if_neg hstarts]
      cases n with
      | zero => simp [hfront]
      | succ n =>
        rw [Option.map_eq_some_iff]
        simp only [Nat.add_right_cancel_iff, exists_eq_right, ih, List.length_cons,
          Nat.add_le_add_iff_right, List.drop_succ_cons]
        refine and_congr_right fun _ => and_congr_right fun _ => ?_
        constructor
        · intro h m hm
          cases m with
          | zero => exact hfront
          | succ m => exact h m (Nat.lt_of_succ_lt_succ hm)
        · exact fun h m hm => h (m + 1) (Nat.succ_lt_succ hm)

/-- The first occurrence of a pattern is one. -/
lemma offset?_isPrefix {pattern text : List Char} {n : Nat} (h : offset? pattern text = some n) :
    pattern <+: text.drop n :=
  (offset?_eq_some_iff.1 h).2.1

/-- What is not found in a text does not stand in it. -/
lemma offset?_eq_none_iff {pattern text : List Char} :
    offset? pattern text = none ↔ ¬pattern <:+: text := by
  induction text with
  | nil => simp [offset?]
  | cons c text ih =>
    by_cases hstarts : startsWith pattern (c :: text) = true
    · obtain ⟨rest, hrest⟩ := startsWith_iff.1 hstarts
      have hfront : pattern <:+: c :: text := ⟨[], rest, hrest.symm⟩
      simp [offset?, hstarts, hfront]
    · have hfront : ¬pattern <+: c :: text := by
        rintro ⟨rest, hrest⟩
        exact hstarts (startsWith_iff.2 ⟨rest, hrest.symm⟩)
      rw [offset?, if_neg hstarts, Option.map_eq_none_iff, ih, List.infix_cons_iff]
      simp [hfront]

/-- What follows the first occurrence of a pattern is an end of the text. -/
lemma afterFirst?_suffix {pattern text rest : List Char}
    (h : afterFirst? pattern text = some rest) : rest <:+ text := by
  obtain ⟨n, -, rfl⟩ := Option.map_eq_some_iff.1 h
  exact List.drop_suffix _ text

/-- What a keyword leaves of a text is an end of it. -/
lemma afterKeyword?_suffix {keyword text rest : List Char}
    (h : afterKeyword? keyword text = some rest) : rest <:+ text := by
  obtain ⟨-, blanks, rfl, -⟩ := afterKeyword?_eq_some_iff.1 h
  exact List.suffix_append (keyword ++ blanks) rest

/-- The first identifier of a text is its beginning. -/
lemma firstIdentifier?_isPrefix {text name : List Char} (h : firstIdentifier? text = some name) :
    name <+: text := by
  simp only [firstIdentifier?] at h
  split at h
  · exact absurd h (by simp)
  · obtain rfl := Option.some.inj h
    exact List.takeWhile_prefix isIdentifierChar

/-- The pieces of a text are excerpts of it, and the first one is its beginning.

**Proof sketch.** Induction on the text. A character that separates puts an empty piece in front;
any other one is put in front of the first piece. -/
lemma pieces_isInfix (separates : Char → Bool) (text : List Char) :
    ∃ first further, pieces separates text = first :: further ∧ first <+: text
      ∧ ∀ piece ∈ further, piece <:+: text := by
  induction text with
  | nil => exact ⟨[], [], rfl, List.prefix_refl [], by simp⟩
  | cons c text ih =>
    obtain ⟨first, further, heq, hfirst, hfurther⟩ := ih
    have htext : text <:+: c :: text := (List.suffix_cons c text).isInfix
    by_cases hc : separates c = true
    · refine ⟨[], first :: further, by rw [pieces, if_pos hc, heq], List.nil_prefix, ?_⟩
      intro piece hpiece
      rcases List.mem_cons.1 hpiece with rfl | hpiece
      · exact hfirst.isInfix.trans htext
      · exact (hfurther piece hpiece).trans htext
    · refine ⟨c :: first, further, by rw [pieces, if_neg hc, heq], ?_, ?_⟩
      · exact List.cons_prefix_cons.2 ⟨rfl, hfirst⟩
      · exact fun piece hpiece => (hfurther piece hpiece).trans htext

/-- Each piece of a text is an excerpt of it. -/
lemma mem_pieces_isInfix {separates : Char → Bool} {text piece : List Char}
    (h : piece ∈ pieces separates text) : piece <:+: text := by
  obtain ⟨first, further, heq, hfirst, hfurther⟩ := pieces_isInfix separates text
  rw [heq] at h
  rcases List.mem_cons.1 h with rfl | h
  · exact hfirst.isInfix
  · exact hfurther piece h

/-! ## Cursors -/

namespace Cursor

/-- What is after a cursor is an end of its line. -/
lemma after_suffix (c : Cursor) : c.after <:+ c.line := List.suffix_append c.consumed c.after

/-- What is behind a cursor is the beginning of its line. -/
lemma consumed_isPrefix (c : Cursor) : c.consumed <+: c.line := List.prefix_append c.consumed c.after

/-- Going on to the next character does not change the line. -/
@[simp] lemma line_next (c : Cursor) : c.next.line = c.line := line_forward 1 c

/-- Nor does going to the end. -/
@[simp] lemma line_toEnd (c : Cursor) : c.toEnd.line = c.line := line_forward _ c

/-- Nor does eating a pattern that is there. -/
lemma line_eat? {pattern : List Char} {c after : Cursor} (h : c.eat? pattern = some after) :
    after.line = c.line := by
  unfold eat? at h
  split at h
  · obtain rfl := Option.some.inj h
    exact line_forward _ c
  · exact absurd h (by simp)

/-- Nor does eating a pattern if it is there. -/
@[simp] lemma line_eat (pattern : List Char) (c : Cursor) : (c.eat pattern).line = c.line := by
  unfold eat
  cases h : c.eat? pattern with
  | none => rfl
  | some after => exact line_eat? h

/-- Nor does going on over the characters of a class. -/
@[simp] lemma line_span (p : Char → Bool) (c : Cursor) : (c.span p).2.line = c.line :=
  line_forward _ c

/-- Nor does skipping blanks. -/
@[simp] lemma line_skipBlanks (c : Cursor) : c.skipBlanks.line = c.line := line_span isBlank c

/-- Nor does going on over an identifier. -/
@[simp] lemma line_identifier (c : Cursor) : c.identifier.2.line = c.line :=
  line_span isIdentifierChar c

/-- Nor does going beyond a pattern. -/
@[simp] lemma line_beyond (pattern : List Char) (c : Cursor) :
    (c.beyond pattern).2.line = c.line := by
  unfold beyond
  split
  · exact line_forward _ c
  · exact line_toEnd c

/-- Nor does going on to the closing quote. -/
@[simp] lemma line_toClosingQuote (quote : Char) (c : Cursor) :
    (c.toClosingQuote quote).2.line = c.line := by
  unfold toClosingQuote
  split
  · exact line_forward _ c
  · exact line_toEnd c

/-- Nor does going on over a literal. -/
@[simp] lemma line_overQuoted (quote : Char) (c : Cursor) :
    (c.overQuoted quote).2.line = c.line := by
  unfold overQuoted
  split
  · rw [line_toClosingQuote, line_next]
  · rfl

/-- The characters passed over at a cursor are an excerpt of its line. -/
lemma span_isInfix (p : Char → Bool) (c : Cursor) : (c.span p).1 <:+: c.line :=
  (List.takeWhile_prefix p).isInfix.trans c.after_suffix.isInfix

/-- The identifier at a cursor is an excerpt of the line. -/
lemma identifier_isInfix (c : Cursor) : c.identifier.1 <:+: c.line := span_isInfix isIdentifierChar c

end Cursor

end Outliner
