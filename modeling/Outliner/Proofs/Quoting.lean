import Mathlib.Algebra.Group.Nat.Even
import Mathlib.Order.Bounds.Basic
import Outliner.Proofs.Checked.Cursor

set_option autoImplicit false

/-!
# Quoted literals

A literal goes on to the first quote that no backslash takes along. A backslash takes along the
character behind it, which may be a backslash itself, so that in a row of backslashes every other
one does. Which quote closes the literal can be told without reading it from its start: the first
one with an even number of backslashes directly in front of it.

## Main definitions

* `Outliner.escaped` — a text with a backslash in front of each quote and each backslash.
* `Outliner.backslashesBefore`, `Outliner.Unescaped` — the quotes that close a literal.

## Main results

* `Outliner.Cursor.quotedLength?_eq_some_iff` — where a literal ends.
* `Outliner.Cursor.overQuoted_exact` — a literal is passed over exactly.
-/

namespace Outliner

/-- The text with a backslash put before each backslash and each quote. -/
def escaped (quote : Char) (text : List Char) : List Char :=
  text.flatMap fun c => if c = '\\' ∨ c = quote then ['\\', c] else [c]

/-- The number of backslashes directly in front of a place. -/
def backslashesBefore (text : List Char) (place : Nat) : Nat :=
  ((text.take place).reverse.takeWhile (· == '\\')).length

/-- A quote stands at the place, behind an even number of backslashes. -/
def Unescaped (quote : Char) (text : List Char) (place : Nat) : Prop :=
  text[place]? = some quote ∧ Even (backslashesBefore text place)

instance (quote : Char) (text : List Char) (place : Nat) : Decidable (Unescaped quote text place) :=
  inferInstanceAs (Decidable (_ ∧ _))

variable {quote c : Char} {text : List Char} {place : Nat}

/-! ## Rows of backslashes -/

/-- Behind some characters, a row of backslashes goes on into these if it fills all that is behind
them. -/
lemma backslashesBefore_append (front text : List Char) (place : Nat) :
    backslashesBefore (front ++ text) (front.length + place)
      = backslashesBefore text place
        + if backslashesBefore text place = (text.take place).length
          then (front.reverse.takeWhile (· == '\\')).length else 0 := by
  rw [backslashesBefore, List.take_length_add_append, List.reverse_append, List.takeWhile_append,
    List.length_reverse, ← backslashesBefore]
  split
  · next hall => rw [List.length_append, List.length_reverse, hall]
  · rfl

/-- A row of backslashes does not go on into another character. -/
lemma backslashesBefore_cons (hc : c ≠ '\\') (text : List Char) (place : Nat) :
    backslashesBefore (c :: text) (place + 1) = backslashesBefore text place := by
  have hstops : [c].reverse.takeWhile (· == '\\') = [] :=
    List.takeWhile_cons_of_neg (by simpa using hc)
  have happend := backslashesBefore_append [c] text place
  rw [hstops, List.length_nil, ite_self, Nat.add_zero, Nat.add_comm] at happend
  exact happend

/-- A backslash and the character that it takes along add an even number of backslashes to a
row.

**Proof sketch.** A row of backslashes that reaches through both characters has two more. One that
does not reach so far is the same, unless the second character is no backslash and the row ends
there. -/
lemma even_backslashesBefore_cons_cons (c : Char) (text : List Char) (place : Nat) :
    Even (backslashesBefore ('\\' :: c :: text) (place + 2))
      ↔ Even (backslashesBefore text place) := by
  have heven : Even (['\\', c].reverse.takeWhile (· == '\\')).length := by
    by_cases hc : c = '\\'
    · subst hc
      decide
    · have hstops : ['\\', c].reverse.takeWhile (· == '\\') = [] :=
        List.takeWhile_cons_of_neg (by simpa using hc)
      rw [hstops]
      decide
  have happend := backslashesBefore_append ['\\', c] text place
  rw [Nat.add_comm] at happend
  rw [show place + 2 = place + ['\\', c].length from rfl,
    show '\\' :: c :: text = ['\\', c] ++ text from rfl, happend, Nat.even_add]
  split
  · exact iff_true_right heven
  · exact iff_true_right Even.zero

/-! ## Where a literal ends -/

section Quote

variable (hquote : quote ≠ '\\')

include hquote

/-- The quotes that close a literal beginning with a backslash are those that close it behind the
character which this takes along. -/
lemma isLeast_unescaped_backslash {n : Nat} :
    IsLeast {place | Unescaped quote ('\\' :: c :: text) place} n
      ↔ ∃ k, IsLeast {place | Unescaped quote text place} k ∧ k + 2 = n := by
  refine Checked.isLeast_add_iff (fun k hk => ?_) fun k => ?_
  · rintro ⟨hthere, heven⟩
    rcases Nat.lt_or_ge k 1 with hfirst | hsecond
    · obtain rfl := Nat.lt_one_iff.1 hfirst
      exact hquote (Option.some.inj hthere).symm
    · obtain rfl : k = 1 := by omega
      have hone : backslashesBefore ('\\' :: c :: text) 1 = 1 := rfl
      rw [hone] at heven
      exact absurd heven (by decide)
  · exact and_congr Iff.rfl (even_backslashesBefore_cons_cons c text k)

omit hquote in
/-- The quotes that close a literal beginning with another character are those that close it
behind this. -/
lemma isLeast_unescaped_cons (hc : c ≠ '\\') (hne : c ≠ quote) {n : Nat} :
    IsLeast {place | Unescaped quote (c :: text) place} n
      ↔ ∃ k, IsLeast {place | Unescaped quote text place} k ∧ k + 1 = n := by
  refine Checked.isLeast_add_iff (fun k hk => ?_) fun k => ?_
  · rintro ⟨hthere, -⟩
    obtain rfl := Nat.lt_one_iff.1 hk
    exact hne (Option.some.inj hthere)
  · refine and_congr Iff.rfl ?_
    rw [backslashesBefore_cons hc]

/-- **A literal ends with the first quote that has an even number of backslashes in front of it.**

**Proof sketch.** Induction on the text, as the length is found. The character that a backslash
takes along closes nothing, and both together change no parity. A character that is neither a quote
nor a backslash closes nothing and ends a row of backslashes. -/
theorem Cursor.quotedLength?_eq_some_iff {n : Nat} :
    quotedLength? quote text = some n
      ↔ ∃ place, IsLeast {place | Unescaped quote text place} place ∧ place + 1 = n := by
  induction text using quotedLength?.induct quote generalizing n with
  | case1 => simp [quotedLength?, IsLeast, Unescaped]
  | case2 =>
    have hnone : ∀ place, ¬ Unescaped quote ['\\'] place := by
      rintro place ⟨hthere, -⟩
      cases place with
      | zero => exact hquote (Option.some.inj hthere).symm
      | succ place => simp at hthere
    simp [quotedLength?, IsLeast, hnone]
  | case3 c text ih =>
    simp only [quotedLength?, Option.map_eq_some_iff, ih, isLeast_unescaped_backslash hquote]
    constructor
    · rintro ⟨_, ⟨place, hplace, rfl⟩, rfl⟩
      exact ⟨place + 2, ⟨place, hplace, rfl⟩, by omega⟩
    · rintro ⟨_, ⟨place, hplace, rfl⟩, rfl⟩
      exact ⟨place + 1, ⟨place, hplace, rfl⟩, by omega⟩
  | case4 text hlast hescape =>
    have hleast : IsLeast {place | Unescaped quote (quote :: text) place} 0 :=
      ⟨⟨rfl, Even.zero⟩, fun place _ => Nat.zero_le place⟩
    rw [quotedLength?_cons hquote, if_pos rfl, Option.some.injEq]
    constructor
    · exact fun h => ⟨0, hleast, h⟩
    · rintro ⟨place, hplace, rfl⟩
      rw [hplace.unique hleast]
  | case5 c text hlast hescape hne ih =>
    have hc : c ≠ '\\' := ne_backslash hlast hescape
    rw [quotedLength?_cons hc, if_neg hne]
    simp only [Option.map_eq_some_iff, ih, isLeast_unescaped_cons hc hne]

omit hquote in
/-- An escaped text is followed by the quote that closes it.

**Proof sketch.** Induction on the text. A backslash or a quote in it is preceded by a backslash,
and both are passed over together; any other character is passed over alone. -/
lemma Cursor.quotedLength?_escaped (hquote : quote ≠ '\\') (text rest : List Char) :
    quotedLength? quote (escaped quote text ++ quote :: rest)
      = some ((escaped quote text).length + 1) := by
  induction text with
  | nil =>
    rw [escaped, List.flatMap_nil, List.nil_append, quotedLength?_cons hquote, if_pos rfl]
    rfl
  | cons c text ih =>
    rw [escaped, List.flatMap_cons, ← escaped]
    by_cases hc : c = '\\' ∨ c = quote
    · have hlength : (['\\', c] ++ escaped quote text).length
          = (escaped quote text).length + 2 := rfl
      rw [if_pos hc, hlength, List.append_assoc, List.cons_append, List.cons_append,
        List.nil_append, quotedLength?, ih]
      rfl
    · rw [if_neg hc, List.append_assoc, List.cons_append, List.nil_append,
        quotedLength?_cons fun h => hc (.inl h), if_neg fun h => hc (.inr h), ih]
      rfl

end Quote

namespace Cursor

/-- A literal is read to the first quote that closes it. -/
lemma toClosingQuote_of_isLeast (hquote : quote ≠ '\\') {c : Cursor}
    (h : IsLeast {place | Unescaped quote c.after place} place) :
    c.toClosingQuote quote = (true, c.forward (place + 1)) := by
  rw [toClosingQuote, (quotedLength?_eq_some_iff hquote).2 ⟨place, h, rfl⟩]

/-- A literal that no quote closes is read to the end of the line. -/
lemma toClosingQuote_of_none (hquote : quote ≠ '\\') {c : Cursor}
    (h : ∀ place, ¬ Unescaped quote c.after place) : c.toClosingQuote quote = (false, c.toEnd) := by
  rw [toClosingQuote]
  cases hlength : quotedLength? quote c.after with
  | none => rfl
  | some n =>
    obtain ⟨place, hplace, -⟩ := (quotedLength?_eq_some_iff hquote).1 hlength
    exact absurd hplace.1 (h place)

/-- **A literal is passed over exactly.** Where an escaped text stands in quotes at the cursor, the
cursor comes to stand behind the closing quote. Where the opening quote is consumed, the cursor
comes to stand behind the first quote with an even number of backslashes in front of it, and if
there is none, at the end of the line. Nothing goes wrong in bytes.

**Proof sketch.** An escaped text is followed by the quote that closes it
(`quotedLength?_escaped`), and the length of a literal is told by the first quote that closes it
(`quotedLength?_eq_some_iff`). -/
theorem overQuoted_exact (hquote : quote ≠ '\\') :
    (∀ (c : Cursor) (text rest : List Char),
        c.after = quote :: (escaped quote text ++ quote :: rest) →
        ∃ d : Cursor, c.overQuoted quote = (true, d)
          ∧ c.inBytes.overQuoted quote = .ok (true, d.inBytes)
          ∧ d.line = c.line ∧ d.after = rest)
      ∧ ∀ c : Cursor, ∃ (closed : Bool) (d : Cursor), c.toClosingQuote quote = (closed, d)
        ∧ c.inBytes.toClosingQuote quote = .ok (closed, d.inBytes)
        ∧ d.line = c.line
        ∧ (closed = true ↔ ∃ place, Unescaped quote c.after place)
        ∧ (∀ place, IsLeast {place | Unescaped quote c.after place} place →
          d.after = c.after.drop (place + 1))
        ∧ (closed = false → d.after = []) := by
  constructor
  · intro c text rest hafter
    have hpeek : c.peek? = some quote := List.head?_eq_some_iff.2 ⟨_, hafter⟩
    have hnext : c.next.after = escaped quote text ++ quote :: rest := after_next hafter
    have hover : c.overQuoted quote
        = (true, c.next.forward ((escaped quote text).length + 1)) := by
      rw [overQuoted, if_pos hpeek, toClosingQuote, hnext, quotedLength?_escaped hquote]
    refine ⟨_, hover, by rw [overQuoted_inBytes, hover], by rw [line_forward, line_next], ?_⟩
    rw [after_forward, hnext, List.drop_length_add_append, List.drop_succ_cons, List.drop_zero]
  · intro c
    by_cases hcloses : ∃ place, Unescaped quote c.after place
    · obtain ⟨first, hfirst⟩ := Checked.exists_isLeast hcloses
      have hto := toClosingQuote_of_isLeast hquote hfirst
      refine ⟨_, _, hto, by rw [toClosingQuote_inBytes, hto], line_forward _ c,
        iff_of_true rfl hcloses, fun place hplace => ?_, fun h => absurd h.symm Bool.false_ne_true⟩
      rw [after_forward, hplace.unique hfirst]
    · have hto := toClosingQuote_of_none hquote (not_exists.1 hcloses)
      refine ⟨_, _, hto, by rw [toClosingQuote_inBytes, hto], line_toEnd c,
        iff_of_false Bool.false_ne_true hcloses,
        fun place hplace => absurd ⟨place, hplace.1⟩ hcloses, fun _ => List.drop_length⟩

/-- A literal that holds backslashes, quotes and a character of two bytes, and what follows it. -/
def quotation : Cursor := ⟨"= ".toList, "\"\\\\\\\"é\" \"".toList⟩

/-- A quoted backslash, quote and accent are passed over up to the closing quote. The quote that a
backslash takes along closes nothing.

**Proof sketch.** The quote behind the backslash is taken along, so the first one that closes is the
fifth character. The general theorem gives the cursor behind it. -/
theorem overQuoted_exact_quotation :
    '"' ≠ '\\' ∧ quotation.after = '"' :: (escaped '"' "\\\"é".toList ++ '"' :: " \"".toList)
      ∧ (∃ d : Cursor, quotation.overQuoted '"' = (true, d)
        ∧ quotation.inBytes.overQuoted '"' = .ok (true, d.inBytes)
        ∧ d.line = quotation.line ∧ d.after = " \"".toList)
      ∧ ¬ Unescaped '"' quotation.next.after 3
      ∧ IsLeast {place | Unescaped '"' quotation.next.after place} 5
      ∧ ∃ (closed : Bool) (d : Cursor), quotation.next.toClosingQuote '"' = (closed, d)
        ∧ d.after = quotation.next.after.drop 6 := by
  have hafter : quotation.after
      = '"' :: (escaped '"' "\\\"é".toList ++ '"' :: " \"".toList) := by decide
  have hleast : IsLeast {place | Unescaped '"' quotation.next.after place} 5 := by
    refine ⟨by decide, fun place hplace => Nat.le_of_not_lt fun hlt => ?_⟩
    have hnone : ∀ place < 5, ¬ Unescaped '"' quotation.next.after place := by decide
    exact hnone place hlt hplace
  obtain ⟨closed, d, hto, -, -, -, hbehind, -⟩ :=
    (overQuoted_exact (by decide : '"' ≠ '\\')).2 quotation.next
  exact ⟨by decide, hafter, (overQuoted_exact (by decide)).1 quotation _ _ hafter, by decide,
    hleast, closed, d, hto, hbehind 5 hleast⟩

end Cursor

end Outliner
