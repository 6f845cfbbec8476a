import Outliner.Proofs.TextPlace
import Outliner.Scan
import Outliner.Proofs.Excerpt

set_option autoImplicit false

/-!
# What masking hides

A comment reaches from its opening token to the end of its line, or to the first closing token
behind the opening one. A literal reaches from its quote to the next such quote on the line, where a
backslash takes the character after it along, be it a quote or the end of the line. Neither begins
within the other. Masking hides comments as a whole and the contents of literals, and nothing else;
so sources whose comments and literals stand in the same places and say different things have one
document.

## Main definitions

* `Outliner.Masking.Extent` — where a comment or a literal stands.
* `Outliner.Masking.extents` — the comments and literals of a text.

## Main results

* `Outliner.Masking.getElem?_mask` — what masking makes of each character.
* `Outliner.Language.scan_mask` — masking keeps all places, and what it hides makes no difference to
  a source.
-/

namespace Outliner

namespace Masking

/-! ## Comments and literals -/

/-- Where a comment or a literal stands: its place, and the lengths of its three parts. The closing
part is missing where the end of the line or of the text comes instead. -/
structure Extent where
  /-- Whether it is a comment. -/
  isComment : Bool
  /-- The place of its first character. -/
  place : Nat
  /-- The length of the token or quote that opens it. -/
  opening : Nat
  /-- The length of its content. -/
  body : Nat
  /-- The length of the token or quote that closes it. -/
  closing : Nat
deriving DecidableEq, Repr

namespace Extent

/-- The number of characters. -/
def length (e : Extent) : Nat := e.opening + e.body + e.closing

/-- The character at the place is part of the content, between the opening and the closing part. -/
def Contains (e : Extent) (place : Nat) : Prop :=
  e.place + e.opening ≤ place ∧ place < e.place + e.opening + e.body

/-- The character at the place is hidden: all of a comment, and the content of a literal. -/
def Hides (e : Extent) (place : Nat) : Prop :=
  e.Contains place ∨ e.isComment = true ∧ e.place ≤ place ∧ place < e.place + e.length

instance (e : Extent) (place : Nat) : Decidable (e.Contains place) :=
  inferInstanceAs (Decidable (_ ∧ _))

instance (e : Extent) (place : Nat) : Decidable (e.Hides place) :=
  inferInstanceAs (Decidable (_ ∨ _))

end Extent

/-- The number of characters before the closing quote of a literal, the end of the line or the end
of the text. A backslash takes the character after it along. -/
def literalLength (quote : Char) : List Char → Nat
  | [] => 0
  | '\\' :: _ :: text => literalLength quote text + 2
  | c :: text => if c = quote ∨ c = '\n' then 0 else literalLength quote text + 1

/-- The comment or literal at the front of the text, which is at the given place. -/
def extentAt? (place : Nat) : List Char → Option Extent
  | '/' :: '/' :: text => some ⟨true, place, 2, (text.takeWhile (· != '\n')).length, 0⟩
  | '/' :: '*' :: text =>
    match offset? "*/".toList text with
    | some n => some ⟨true, place, 2, n, 2⟩
    | none => some ⟨true, place, 2, text.length, 0⟩
  | c :: text =>
    if c = '"' ∨ c = '\'' then
      let body := literalLength c text
      some ⟨false, place, 1, body, if text[body]? = some c then 1 else 0⟩
    else none
  | [] => none

/-- The comments and literals of the text, which is at the given place. -/
def extentsFrom (place : Nat) : List Char → List Extent
  | [] => []
  | c :: text =>
    match extentAt? place (c :: text) with
    | some e => e :: extentsFrom (place + e.length) (text.drop (e.length - 1))
    | none => extentsFrom (place + 1) text
termination_by text => text.length
decreasing_by
  · simp only [List.length_drop, List.length_cons]
    omega
  · simp

/-- The comments and literals of a text. -/
def extents (text : List Char) : List Extent := extentsFrom 0 text

/-- The character at the place is hidden in a comment or a literal. -/
def Hidden (extents : List Extent) (place : Nat) : Prop := ∃ e ∈ extents, e.Hides place

instance (extents : List Extent) (place : Nat) : Decidable (Hidden extents place) :=
  inferInstanceAs (Decidable (∃ e ∈ extents, _))

/-- What is left of a character where the hidden ones are blanked. -/
def shown (extents : List Extent) (place : Nat) (c : Char) : Char :=
  if Hidden extents place then blanked c else c

/-! ## What masking makes of them -/

/-- All characters but line ends are hidden by spaces. -/
lemma blanked_of_ne {c : Char} (h : c ≠ '\n') : blanked c = ' ' := if_neg h

/-- An end of a line in code stays what it is. -/
lemma maskFrom_code_newline (text : List Char) :
    maskFrom .code ('\n' :: text) = '\n' :: maskFrom .code text := by
  simp [maskFrom]

/-- A line comment is hidden up to the end of its line. -/
lemma maskFrom_lineComment (text : List Char) :
    maskFrom .lineComment text = (text.takeWhile (· != '\n')).map blanked
      ++ maskFrom .code (text.dropWhile (· != '\n')) := by
  induction text with
  | nil => simp [maskFrom]
  | cons c text ih =>
    by_cases hc : c = '\n'
    · subst hc
      simp [maskFrom, blanked]
    · simp [maskFrom, hc, ih]

/-- A block comment is hidden with the first closing token, or to the end of the text.

**Proof sketch.** Induction on the text. The closing token ends the comment where it comes first; at
any other character it is one character further away. -/
lemma maskFrom_blockComment (text : List Char) :
    maskFrom .blockComment text =
      match offset? "*/".toList text with
      | some n => (text.take (n + 2)).map blanked ++ maskFrom .code (text.drop (n + 2))
      | none => text.map blanked := by
  induction text with
  | nil => simp [maskFrom, offset?]
  | cons c text ih =>
    by_cases hclosing : startsWith "*/".toList (c :: text) = true
    · obtain ⟨rest, hrest⟩ := startsWith_iff.1 hclosing
      obtain ⟨rfl, rfl⟩ : c = '*' ∧ text = '/' :: rest := by simpa using hrest
      rw [offset?, if_pos hclosing, maskFrom]
      rfl
    · have hstep :
          maskFrom .blockComment (c :: text) = blanked c :: maskFrom .blockComment text := by
        rw [maskFrom]
        rintro rest rfl rfl
        exact hclosing rfl
      rw [hstep, ih, offset?, if_neg hclosing]
      cases offset? "*/".toList text with
      | none => simp
      | some n => simp [Nat.add_right_comm n 1 2]

/-- A literal ends with its closing quote, with the line or with the text. -/
lemma head?_drop_literalLength (quote : Char) (text : List Char) :
    literalLength quote text ≤ text.length
      ∧ ∀ c ∈ text[literalLength quote text]?, c = quote ∨ c = '\n' := by
  fun_induction literalLength quote text with
  | case1 => simp
  | case2 c text ih => simpa using ih
  | case3 c text _ h => simpa using h
  | case4 c text _ h ih => simpa using ih

/-- A literal is masked character by character, if no backslash comes next. -/
lemma maskFrom_literal_cons {c : Char} (hc : c ≠ '\\') (quote : Char) (text : List Char) :
    maskFrom (.literal quote) (c :: text) =
      if c = '\n' ∨ c = quote then c :: maskFrom .code text
      else ' ' :: maskFrom (.literal quote) text := by
  rw [maskFrom]
  · exact fun h _ => hc h
  · exact fun d rest h _ => hc h

/-- The content of a literal is hidden.

**Proof sketch.** Induction on the content. An escaped character is hidden with its backslash, and a
line end or the quote ends the content. Behind it there is code, if anything. -/
lemma maskFrom_literal {quote : Char} (hquote : quote = '"' ∨ quote = '\'') (text : List Char) :
    maskFrom (.literal quote) text = (text.take (literalLength quote text)).map blanked
      ++ match text.drop (literalLength quote text) with
        | [] => []
        | c :: rest => c :: maskFrom .code rest := by
  have hplain : quote ≠ '\\' := by
    rintro rfl
    simp at hquote
  fun_induction literalLength quote text with
  | case1 => simp [maskFrom]
  | case2 c text ih => simp [maskFrom, ih, blanked]
  | case3 c text _ h =>
    have hc : c ≠ '\\' := by
      rintro rfl
      rcases h with h | h
      · exact hplain h.symm
      · exact absurd h (by decide)
    rw [maskFrom_literal_cons hc, if_pos h.symm]
    simp
  | case4 c text hescape h ih =>
    by_cases hc : c = '\\'
    · -- A backslash that takes nothing along is the last character of the text.
      subst hc
      cases text with
      | nil => simp [maskFrom, literalLength, blanked]
      | cons d text => exact absurd rfl (hescape d text rfl)
    · have hne : ¬(c = '\n' ∨ c = quote) := fun hor => h hor.symm
      rw [maskFrom_literal_cons hc, if_neg hne, ih]
      simp [blanked_of_ne fun hn => hne (.inl hn)]

/-! ## What masking makes of a text -/

namespace Extent

variable {e : Extent} {place : Nat}

/-- What is hidden is part of the comment or literal. -/
lemma Hides.within (h : e.Hides place) : e.place ≤ place ∧ place < e.place + e.length := by
  rcases h with ⟨hfirst, hlast⟩ | ⟨-, h⟩
  · rw [length]
    omega
  · exact h

/-- A text with the characters blanked that are hidden in the comment or literal, where it is at the
given place. -/
def veil (e : Extent) (place : Nat) (text : List Char) : List Char :=
  text.mapIdx fun i c => if e.Hides (place + i) then blanked c else c

/-- Hiding goes on behind the first text where the first text ends. -/
lemma veil_append (e : Extent) (place : Nat) (text text' : List Char) :
    e.veil place (text ++ text') = e.veil place text ++ e.veil (place + text.length) text' := by
  simp only [veil, List.mapIdx_append, Nat.add_assoc, Nat.add_comm text.length]

/-- A text that is hidden as a whole is blanked. -/
lemma veil_of_hides {text : List Char} (h : ∀ i < text.length, e.Hides (place + i)) :
    e.veil place text = text.map blanked := by
  refine List.ext_getElem (by simp [veil]) fun i hi _ => ?_
  rw [veil, List.length_mapIdx] at hi
  simp [veil, h i hi]

/-- A text of which nothing is hidden stays as it is. -/
lemma veil_of_not_hides {text : List Char} (h : ∀ i < text.length, ¬e.Hides (place + i)) :
    e.veil place text = text := by
  refine List.ext_getElem (by simp [veil]) fun i hi _ => ?_
  rw [veil, List.length_mapIdx] at hi
  simp [veil, h i hi]

end Extent

/-- The comment or literal is the part of a text in front of the rest, at the given place. -/
structure Extent.Fronts (e : Extent) (place : Nat) (part rest : List Char) : Prop where
  /-- It stands at the place of the text. -/
  at_place : e.place = place
  /-- It is the part in front of the rest. -/
  length : e.length = part.length
  /-- It is not empty. -/
  nonempty : part ≠ []
  /-- What it hides is blanked, and behind it the text is code. -/
  mask : maskFrom .code (part ++ rest) = e.veil place part ++ maskFrom .code rest

/-- A comment hides all its characters. -/
lemma fronts_comment {place opening body closing : Nat} {part rest : List Char}
    (hlength : opening + body + closing = part.length) (hpart : part ≠ [])
    (hmask : maskFrom .code (part ++ rest) = part.map blanked ++ maskFrom .code rest) :
    Extent.Fronts ⟨true, place, opening, body, closing⟩ place part rest := by
  refine ⟨rfl, hlength, hpart, ?_⟩
  rw [Extent.veil_of_hides, hmask]
  intro i hi
  refine .inr ⟨rfl, Nat.le_add_right place i, Nat.add_lt_add_left ?_ place⟩
  rwa [Extent.length, hlength]

/-- A literal hides all but its quotes.

**Proof sketch.** The extent hides the places of the content and no others, so the quotes stay. -/
lemma fronts_literal {place body : Nat} {quote : Char} {content rest : List Char}
    (closing : List Char) (hbody : body = content.length)
    (hmask : maskFrom .code (quote :: content ++ closing ++ rest)
      = quote :: content.map blanked ++ closing ++ maskFrom .code rest) :
    Extent.Fronts ⟨false, place, 1, body, closing.length⟩ place (quote :: content ++ closing)
      rest := by
  subst hbody
  have hcontent : Extent.veil ⟨false, place, 1, content.length, closing.length⟩ (place + 1) content
      = content.map blanked :=
    Extent.veil_of_hides fun i hi =>
      .inl ⟨Nat.le_add_right _ i, Nat.add_lt_add_left hi _⟩
  have hquote : Extent.veil ⟨false, place, 1, content.length, closing.length⟩ place [quote]
      = [quote] := by
    refine Extent.veil_of_not_hides fun i hi => ?_
    simp only [Extent.Hides, Extent.Contains, List.length_singleton, Bool.false_eq_true,
      false_and, or_false] at hi ⊢
    omega
  have hclosing : Extent.veil ⟨false, place, 1, content.length, closing.length⟩
      (place + 1 + content.length) closing = closing := by
    refine Extent.veil_of_not_hides fun i _ => ?_
    simp only [Extent.Hides, Extent.Contains, Bool.false_eq_true, false_and, or_false]
    omega
  refine ⟨rfl, ?_, by simp, ?_⟩
  · simp only [Extent.length, List.length_append, List.length_cons]
    omega
  · rw [← List.singleton_append, List.append_assoc [quote], Extent.veil_append,
      Extent.veil_append, hquote, List.length_singleton, hcontent, hclosing, ← List.append_assoc,
      ← List.append_assoc, List.singleton_append, hmask]
    rfl

/-- A literal at the front of a text is part of it, with its closing quote if there is one.

**Proof sketch.** If the closing quote stands behind the content, it is part of the literal. If not,
the content ends at a line end or at the end of the text, where the literal ends without a quote. -/
lemma exists_fronts_literal (place : Nat) {quote : Char} (hquote : quote = '"' ∨ quote = '\'')
    (text : List Char) :
    ∃ part rest, part ++ rest = quote :: text
      ∧ Extent.Fronts ⟨false, place, 1, literalLength quote text,
          if text[literalLength quote text]? = some quote then 1 else 0⟩ place part rest := by
  obtain ⟨hlength, hends⟩ := head?_drop_literalLength quote text
  have hcode : maskFrom .code (quote :: text) = quote :: maskFrom (.literal quote) text := by
    rcases hquote with rfl | rfl <;> simp [maskFrom]
  have hmask := maskFrom_literal hquote text
  generalize literalLength quote text = n at hlength hends hmask ⊢
  have htake : n = (text.take n).length := (List.length_take_of_le hlength).symm
  by_cases hclosed : text[n]? = some quote
  -- the closing quote is part of the literal
  · have hdrop : text.drop n = quote :: text.drop (n + 1) := by
      rw [List.drop_eq_getElem?_toList_append, hclosed]
      rfl
    have htext : text.take n ++ [quote] ++ text.drop (n + 1) = text := by
      rw [List.append_assoc, List.singleton_append, ← hdrop, List.take_append_drop]
    refine ⟨quote :: text.take n ++ [quote], text.drop (n + 1), ?_, ?_⟩
    · rw [List.cons_append, List.cons_append, htext]
    · rw [if_pos hclosed]
      refine fronts_literal [quote] htake ?_
      rw [List.cons_append, List.cons_append, htext, hcode, hmask, hdrop]
      simp
  -- the line ends, or the text does
  · refine ⟨quote :: text.take n ++ [], text.drop n, by simp, ?_⟩
    rw [if_neg hclosed]
    refine fronts_literal [] htake ?_
    have hrest : (match text.drop n with
        | [] => []
        | c :: rest => c :: maskFrom .code rest) = maskFrom .code (text.drop n) := by
      cases hdrop : text.drop n with
      | nil => simp [maskFrom]
      | cons c rest =>
        have hc : text[n]? = some c := by
          rw [← List.head?_drop, hdrop]
          rfl
        obtain rfl : c = '\n' := (hends c hc).resolve_left fun h => hclosed (h ▸ hc)
        rw [maskFrom_code_newline]
    rw [List.append_nil, List.append_nil, List.cons_append, List.take_append_drop, hcode, hmask,
      hrest]
    simp

/-- A comment or literal at the front of a text is part of it, and is masked as such.

**Proof sketch.** A comment is followed to the end of its line or to its closing token, a literal to
its closing quote or to the end of the line. -/
lemma exists_fronts {place : Nat} {text : List Char} {e : Extent}
    (h : extentAt? place text = some e) :
    ∃ part rest, part ++ rest = text ∧ e.Fronts place part rest := by
  fun_cases extentAt? place text with
  -- a comment up to the end of the line
  | case1 text =>
    simp only [extentAt?, Option.some.injEq] at h
    subst h
    refine ⟨'/' :: '/' :: text.takeWhile (· != '\n'), text.dropWhile (· != '\n'), ?_, ?_⟩
    · simp
    · refine fronts_comment (by simp only [List.length_cons]; omega) (by simp) ?_
      simp only [List.cons_append, List.takeWhile_append_dropWhile, maskFrom, maskFrom_lineComment]
      rfl
  -- a comment up to its closing sign
  | case2 text n hn =>
    simp only [extentAt?, hn, Option.some.injEq] at h
    subst h
    obtain ⟨rest, hrest⟩ := offset?_isPrefix hn
    have hlength : n + 2 ≤ text.length := by
      have := congrArg List.length hrest
      simp at this
      omega
    refine ⟨'/' :: '*' :: text.take (n + 2), text.drop (n + 2), ?_, ?_⟩
    · simp
    · refine fronts_comment (by simp only [List.length_cons, List.length_take]; omega) (by simp) ?_
      simp only [List.cons_append, List.take_append_drop, maskFrom, maskFrom_blockComment, hn]
      rfl
  -- a comment that is not closed
  | case3 text hn =>
    simp only [extentAt?, hn, Option.some.injEq] at h
    subst h
    refine ⟨'/' :: '*' :: text, [], ?_, ?_⟩
    · simp
    · refine fronts_comment (by simp only [List.length_cons]; omega) (by simp) ?_
      simp only [List.append_nil, maskFrom, maskFrom_blockComment, hn]
      rfl
  -- a literal
  | case4 c text _ _ hc =>
    simp only [extentAt?, hc, if_true, Option.some.injEq] at h
    subst h
    exact exists_fronts_literal place hc text
  | case5 c text _ _ hc =>
    simp [extentAt?, hc] at h
  | case6 => simp [extentAt?] at h

/-- Code that begins no comment and no literal stays what it is. -/
lemma maskFrom_code_of_none {place : Nat} {c : Char} {text : List Char}
    (h : extentAt? place (c :: text) = none) :
    maskFrom .code (c :: text) = c :: maskFrom .code text := by
  unfold extentAt? at h
  split at h
  · cases h
  · split at h <;> cases h
  · next hline hblock heq =>
    obtain ⟨rfl, rfl⟩ := List.cons_eq_cons.1 heq
    split at h
    · cases h
    · next hquote => rw [maskFrom, if_neg hquote] <;> assumption
  · next heq => cases heq

/-- Comments and literals are found behind the place from which they are searched for. -/
lemma place_le_of_mem_extentsFrom {place : Nat} {text : List Char} {e : Extent}
    (h : e ∈ extentsFrom place text) : place ≤ e.place := by
  fun_induction extentsFrom place text with
  | case1 => exact absurd h List.not_mem_nil
  | case2 place c text front hfront ih =>
    obtain ⟨part, rest, -, hpart⟩ := exists_fronts hfront
    rcases List.mem_cons.1 h with rfl | h
    · exact hpart.at_place.ge
    · exact (Nat.le_add_right _ _).trans (ih h)
  | case3 place c text _ ih => exact (Nat.le_succ place).trans (ih h)

/-- What stands in front of the place from which they are searched for is not hidden. -/
lemma not_hidden_extentsFrom {place place' : Nat} (h : place < place') (text : List Char) :
    ¬Hidden (extentsFrom place' text) place := by
  rintro ⟨e, he, hhides⟩
  have := place_le_of_mem_extentsFrom he
  have := hhides.within
  omega

/-- A place is hidden by the first extent or by a later one. -/
lemma hidden_cons {e : Extent} {later : List Extent} {place : Nat} :
    Hidden (e :: later) place ↔ e.Hides place ∨ Hidden later place := by
  simp [Hidden]

/-- **What masking makes of a text.**

**Proof sketch.** Induction on the search for comments and literals. One that is found is masked as
a whole, and only it hides characters between its ends, since the others stand behind it. -/
theorem maskFrom_code_eq_mapIdx (place : Nat) (text : List Char) :
    maskFrom .code text = text.mapIdx fun i c => shown (extentsFrom place text) (place + i) c := by
  fun_induction extentsFrom place text with
  | case1 => simp [maskFrom]
  | case2 place c text front hfront ih =>
    obtain ⟨part, rest, htext, hpart⟩ := exists_fronts hfront
    have hpositive : 0 < part.length := List.length_pos_iff.2 hpart.nonempty
    have hlength : front.length = part.length := hpart.length
    have hrest : text.drop (front.length - 1) = rest := by
      have hdrop : (c :: text).drop front.length = rest := by
        rw [← htext, hlength, List.drop_left]
      rw [← hdrop, ← List.drop_succ_cons (a := c), Nat.sub_add_cancel (by omega)]
    rw [hrest] at ih ⊢
    rw [← htext, hpart.mask, ih, List.mapIdx_append]
    congr 1
    · refine List.mapIdx_eq_mapIdx_iff.2 fun i hi => ?_
      have hlater : ¬Hidden (extentsFrom (place + front.length) rest) (place + i) :=
        not_hidden_extentsFrom (by omega) rest
      rw [shown]
      simp only [hidden_cons, hlater, or_false]
    · refine List.mapIdx_eq_mapIdx_iff.2 fun i hi => ?_
      have hplace : place + (i + part.length) = place + front.length + i := by omega
      have hfront : ¬front.Hides (place + front.length + i) := by
        intro hhides
        have := hhides.within
        have := hpart.at_place
        omega
      rw [shown, shown, hplace]
      simp only [hidden_cons, hfront, false_or]
  | case3 place c text hnone ih =>
    rw [maskFrom_code_of_none hnone, ih, List.mapIdx_cons]
    congr 1
    · rw [shown, if_neg (not_hidden_extentsFrom (Nat.lt_add_one (place + 0)) text)]
    · refine List.mapIdx_eq_mapIdx_iff.2 fun i hi => ?_
      rw [Nat.add_assoc, Nat.add_comm 1 i]

/-- **What masking makes of each character**: what is hidden in a comment or a literal is blanked,
and nothing else. -/
theorem getElem?_mask (text : List Char) (place : Nat) :
    (mask text)[place]? = text[place]?.map (shown (extents text) place) := by
  rw [mask, maskFrom_code_eq_mapIdx 0, List.getElem?_mapIdx]
  simp only [Nat.zero_add]
  rfl

/-- The masked text has the characters of the text in their places, but for those that are hidden
in comments and literals. -/
structure KeepsPlaces (text masked : List Char) : Prop where
  /-- No character is lost. -/
  length : masked.length = text.length
  /-- Each character is the same, or a space. -/
  same_or_space : ∀ (place : Nat) (c : Char), text[place]? = some c →
    masked[place]? = some c ∨ masked[place]? = some ' '
  /-- Lines end where they did. -/
  newline_iff : ∀ place : Nat, masked[place]? = some '\n' ↔ text[place]? = some '\n'
  /-- What is hidden is blanked, and nothing else is. -/
  shown : ∀ place : Nat, masked[place]? = text[place]?.map (Masking.shown (extents text) place)

/-- Masking keeps the places of a text.

**Proof sketch.** Each character of the masked text covers the one in its place: it is the same, or
it is a space and the other is no line end. -/
theorem keepsPlaces_mask (text : List Char) : KeepsPlaces text (mask text) := by
  have hcovers : ∀ (place : Nat) (c : Char), text[place]? = some c →
      ∃ c' : Char, (mask text)[place]? = some c' ∧ Covers c c' := by
    intro place c hc
    have hcovered := List.forall₂_iff_get.1 (forall₂_covers_mask text)
    obtain ⟨hlt, rfl⟩ := List.getElem?_eq_some_iff.1 hc
    have hlt' : place < (mask text).length := hcovered.1 ▸ hlt
    exact ⟨_, List.getElem?_eq_getElem hlt', hcovered.2 place hlt hlt'⟩
  refine ⟨length_mask text, fun place c hc => ?_, fun place => ?_, getElem?_mask text⟩
  · obtain ⟨c', hc', hsame | ⟨rfl, -⟩⟩ := hcovers place c hc
    · exact .inl (hsame ▸ hc')
    · exact .inr hc'
  · cases hc : text[place]? with
    | none =>
      rw [getElem?_mask, hc]
      simp
    | some c =>
      obtain ⟨c', hc', hsame | ⟨rfl, hne⟩⟩ := hcovers place c hc
      · rw [hc', hsame]
      · simp [hc', hne]

/-! ## Texts that differ only in what is hidden -/

/-- The texts have their comments and literals in the same places, and differ only in what these
contain. Where one of them ends a line, so does the other. -/
structure Alike (text text' : List Char) : Prop where
  /-- They have one length. -/
  length : text.length = text'.length
  /-- Their comments and literals stand in the same places. -/
  extents : extents text = extents text'
  /-- What differs is content of a comment or literal, and no end of a line. -/
  content : ∀ place < text.length, text[place]? ≠ text'[place]? →
    (∃ e ∈ Masking.extents text, e.Contains place)
      ∧ text[place]? ≠ some '\n' ∧ text'[place]? ≠ some '\n'

instance (text text' : List Char) : Decidable (Alike text text') :=
  decidable_of_iff (text.length = text'.length ∧ extents text = extents text'
      ∧ ∀ place < text.length, text[place]? ≠ text'[place]? →
        (∃ e ∈ extents text, e.Contains place)
          ∧ text[place]? ≠ some '\n' ∧ text'[place]? ≠ some '\n')
    ⟨fun h => ⟨h.1, h.2.1, h.2.2⟩, fun h => ⟨h.length, h.extents, h.content⟩⟩

/-- **What comments and literals contain makes no difference to a masked text.** -/
theorem Alike.mask_eq {text text' : List Char} (h : Alike text text') : mask text = mask text' := by
  refine List.ext_getElem? fun place => ?_
  rw [getElem?_mask, getElem?_mask, ← h.extents]
  rcases Nat.lt_or_ge place text.length with hlt | hge
  · by_cases hsame : text[place]? = text'[place]?
    · rw [hsame]
    · obtain ⟨⟨e, he, hcontains⟩, hc, hc'⟩ := h.content place hlt hsame
      have hhidden : Hidden (Masking.extents text) place := ⟨e, he, .inl hcontains⟩
      have hlt' : place < text'.length := h.length ▸ hlt
      rw [List.getElem?_eq_getElem hlt] at hc ⊢
      rw [List.getElem?_eq_getElem hlt'] at hc' ⊢
      rw [Option.map_some, Option.map_some, Masking.shown, Masking.shown, if_pos hhidden,
        if_pos hhidden, blanked_of_ne fun h => hc (congrArg some h),
        blanked_of_ne fun h => hc' (congrArg some h)]
  · rw [List.getElem?_eq_none hge, List.getElem?_eq_none (h.length ▸ hge)]

end Masking

namespace Language

/-- **Masking keeps all places, and what it hides makes no difference to a source.** In every text
it blanks comments and the contents of literals and nothing else, and two sources of C or C++ that
differ only in what their comments and literals contain have one document.

**Proof sketch.** A source is read only after it was masked, and the two are one masked text
(`Masking.Alike.mask_eq`). -/
theorem scan_mask :
    (∀ text, Masking.KeepsPlaces text (Masking.mask text))
      ∧ ∀ language : Language, language = c ∨ language = cpp → ∀ lines lines' : List String,
        Masking.Alike (joinLines (lines.map String.toList)) (joinLines (lines'.map String.toList)) →
          language.scan lines = language.scan lines' := by
  refine ⟨Masking.keepsPlaces_mask, fun language hlanguage lines lines' halike => ?_⟩
  have hmarks : CFamily.marks (lines.map String.toList)
      = CFamily.marks (lines'.map String.toList) := by
    rw [CFamily.marks, CFamily.marks, halike.mask_eq]
  rcases hlanguage with rfl | rfl
  · rw [scan, scan, marks, hmarks]
  · rw [scan, scan, marks, hmarks]

/-- An escaped quote and a brace stand in a literal, and a class in a comment that goes on to the
next line. -/
theorem scan_mask_disguised :
    Masking.Alike
        (joinLines (["char *s = \"\\\"\x7b\"; /* class A \x7b", "\x7d */ void f() \x7b \x7d"].map
          String.toList))
        (joinLines (["char *s = \"abc\"; /* // \"quote", "; */ void f() \x7b \x7d"].map
          String.toList))
      ∧ cpp.scan ["char *s = \"\\\"\x7b\"; /* class A \x7b", "\x7d */ void f() \x7b \x7d"]
        = cpp.scan ["char *s = \"abc\"; /* // \"quote", "; */ void f() \x7b \x7d"] :=
  have halike : Masking.Alike
      (joinLines (["char *s = \"\\\"\x7b\"; /* class A \x7b", "\x7d */ void f() \x7b \x7d"].map
        String.toList))
      (joinLines (["char *s = \"abc\"; /* // \"quote", "; */ void f() \x7b \x7d"].map
        String.toList)) := by
    decide +kernel
  ⟨halike, scan_mask.2 cpp (.inr rfl) _ _ halike⟩

end Language

end Outliner
