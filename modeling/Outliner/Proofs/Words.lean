import Mathlib.Tactic.Lemma
import Outliner.Text.Word

set_option autoImplicit false

/-!
# Words that stand where they were put

What is told of a line written down word by word: its indentation, the keyword at its front and the
name after it. All of it rests on one fact about characters, that no character of a name is a blank,
so that words end where blanks were put after them.

## Main definitions

* `Outliner.StandsAlone` — nothing else than blanks is next to a word.

## Main results

* `Outliner.isBlank_of_isIdentifierChar` — no character of a name is a blank.
* `Outliner.trimStart_indented`, `Outliner.indentWidth_indented` — an indentation of spaces.
* `Outliner.isWordAt_iff`, `Outliner.afterKeyword?_eq_some_iff` — where a word stands alone, and what
  a keyword leaves of a text.
* `Outliner.afterKeyword?_self`, `Outliner.afterKeyword?_of_ne`, `Outliner.afterKeyword?_eq_none` —
  a keyword at the front of a line is found there, and no other word is taken for it.
* `Outliner.firstIdentifier?_name` — a name at the front of a line is found there.
* `Outliner.words_append` — a word at the front of a text is the first of its words.
-/

namespace Outliner

/-! ## Characters of names -/

/-- No blank lies in the ranges of the letters and numerals beyond ASCII. -/
lemma blankRanges_apart : ∀ blank ∈ blankRanges, ∀ range ∈ alphabeticRanges ++ numericRanges,
    blank.last < range.first ∨ range.last < blank.first := by
  decide +kernel

/-- No character of a name is a blank, if it belongs to ASCII. -/
lemma isBlank_of_ascii : ∀ n < 0x80, isIdentifierChar (Char.ofNat n) = true →
    isBlank (Char.ofNat n) = false := by
  decide

/-- **No character of a name is a blank.**

**Proof sketch.** Over ASCII there are few characters to look at. Beyond, a character of a name lies
in one of the ranges of letters and numerals, and all of these lie apart from the blanks. -/
theorem isBlank_of_isIdentifierChar {c : Char} (h : isIdentifierChar c = true) :
    isBlank c = false := by
  rcases Nat.lt_or_ge c.toNat 0x80 with hascii | hbeyond
  · have hc := isBlank_of_ascii c.toNat hascii
    rw [Char.ofNat_toNat] at hc
    exact hc h
  · rw [Bool.eq_false_iff]
    intro hblank
    obtain ⟨blank, hmem, hfirst, hlast⟩ := CharRange.holds_iff.1 hblank
    have hrange : ∃ range ∈ alphabeticRanges ++ numericRanges,
        range.first ≤ c.toNat ∧ c.toNat ≤ range.last := by
      have hunderscore : (c == '_') = false := by
        rw [beq_eq_false_iff_ne]
        rintro rfl
        exact absurd hbeyond (by decide)
      have hnot : ¬ c.toNat < 0x80 := Nat.not_lt_of_le hbeyond
      rw [isIdentifierChar, hunderscore, Bool.or_false, isAlphanumeric, Bool.or_eq_true,
        isAlphabetic, if_neg hnot, isNumeric, if_neg hnot, CharRange.holds_iff,
        CharRange.holds_iff] at h
      rcases h with ⟨range, hrange, hc⟩ | ⟨range, hrange, hc⟩
      · exact ⟨range, List.mem_append_left _ hrange, hc⟩
      · exact ⟨range, List.mem_append_right _ hrange, hc⟩
    obtain ⟨range, hrange, hfirst', hlast'⟩ := hrange
    rcases blankRanges_apart blank hmem range hrange with hbefore | hafter <;> omega

/-- No blank is a character of a name. -/
lemma isIdentifierChar_of_isBlank {c : Char} (h : isBlank c = true) :
    isIdentifierChar c = false := by
  refine Bool.eq_false_iff.2 fun hname => ?_
  rw [isBlank_of_isIdentifierChar hname] at h
  exact absurd h (by decide)

/-- All characters of an identifier are characters of names. -/
lemma all_of_isIdentifier {name : List Char} (h : isIdentifier name = true) :
    name.all isIdentifierChar = true := by
  rw [isIdentifier, isName, Bool.and_eq_true, Bool.and_eq_true] at h
  exact h.1.2

/-- What holds of all characters of names holds of those of an identifier. -/
lemma all_of_isIdentifierChar {p : Char → Bool} (hp : ∀ c, isIdentifierChar c = true → p c = true)
    {name : List Char} (h : isIdentifier name = true) : name.all p = true :=
  List.all_eq_true.2 fun c hc => hp c (List.all_eq_true.1 (all_of_isIdentifier h) c hc)

/-- No identifier holds a blank. -/
lemma any_isBlank_of_isIdentifier {name : List Char} (h : isIdentifier name = true) :
    name.any isBlank = false := by
  have hsolid : name.all (!isBlank ·) = true :=
    all_of_isIdentifierChar (fun c hc => by rw [isBlank_of_isIdentifierChar hc]; rfl) h
  simpa using hsolid

/-- An identifier begins with a character of names. -/
lemma exists_cons_of_isIdentifier {name : List Char} (h : isIdentifier name = true) :
    ∃ c rest, name = c :: rest ∧ isIdentifierChar c = true := by
  cases name with
  | nil => simp [isIdentifier, isName] at h
  | cons c rest =>
    exact ⟨c, rest, rfl, List.all_eq_true.1 (all_of_isIdentifier h) c List.mem_cons_self⟩

/-! ## Characters of a class -/

/-- A word ends where a character of another class comes. -/
lemma takeWhile_word {p : Char → Bool} {word rest : List Char} (hword : word.all p = true)
    (hrest : rest.head?.any p = false) : (word ++ rest).takeWhile p = word := by
  rw [List.takeWhile_append_of_pos (List.all_eq_true.1 hword)]
  cases rest with
  | nil => rw [List.takeWhile_nil, List.append_nil]
  | cons c rest =>
    rw [List.takeWhile_cons_of_neg (by simpa using hrest), List.append_nil]

/-- What follows a word is left behind it. -/
lemma dropWhile_word {p : Char → Bool} {word rest : List Char} (hword : word.all p = true)
    (hrest : rest.head?.any p = false) : (word ++ rest).dropWhile p = rest := by
  rw [List.dropWhile_append_of_pos (List.all_eq_true.1 hword)]
  cases rest with
  | nil => rfl
  | cons c rest => exact List.dropWhile_cons_of_neg (by simpa using hrest)

/-- What is left behind the characters of a class begins with none of them. -/
lemma head?_any_dropWhile (p : Char → Bool) (text : List Char) :
    (text.dropWhile p).head?.any p = false := by
  induction text with
  | nil => rfl
  | cons c text ih =>
    by_cases hc : p c = true
    · rw [List.dropWhile_cons_of_pos hc, ih]
    · rw [List.dropWhile_cons_of_neg hc]
      exact Bool.eq_false_iff.2 hc

/-! ## Indentation -/

/-- Nothing is trimmed in front of a character that is no blank. -/
lemma trimStart_cons {c : Char} (h : isBlank c = false) (text : List Char) :
    trimStart (c :: text) = c :: text :=
  List.dropWhile_cons_of_neg (by simp [h])

/-- Blanks at the front are trimmed. -/
lemma trimStart_blanks {blanks : List Char} (h : blanks.all isBlank = true) (text : List Char) :
    trimStart (blanks ++ text) = trimStart text :=
  List.dropWhile_append_of_pos (List.all_eq_true.1 h)

/-- Spaces at the front are trimmed. -/
lemma trimStart_spaces (n : Nat) (text : List Char) :
    trimStart (List.replicate n ' ' ++ text) = trimStart text :=
  trimStart_blanks (by simp [List.all_replicate, show isBlank ' ' = true by decide]) text

/-- Trimming an indented text leaves the text. -/
lemma trimStart_indented (n : Nat) {c : Char} (h : isBlank c = false) (text : List Char) :
    trimStart (List.replicate n ' ' ++ c :: text) = c :: text := by
  rw [trimStart_spaces, trimStart_cons h]

/-- A blank after a word is trimmed. -/
lemma trimEnd_blank {c : Char} (h : isBlank c = true) {word : List Char}
    (hword : word.any isBlank = false) : trimEnd (word ++ [c]) = word := by
  have hlast : word.reverse.head?.any isBlank = false := by
    cases hreverse : word.reverse with
    | nil => rfl
    | cons d rest =>
      have hd : d ∈ word := List.mem_reverse.1 (hreverse ▸ List.mem_cons_self)
      exact Bool.eq_false_iff.2 (List.any_eq_false.1 hword d hd)
  rw [trimEnd, List.reverse_append, dropWhile_word (by simp [h]) hlast, List.reverse_reverse]

/-- Only what stands behind the last character that is no blank is trimmed. -/
lemma trimEnd_append_cons {c : Char} (h : isBlank c = false) (before after : List Char) :
    trimEnd (before ++ c :: after) = before ++ c :: trimEnd after := by
  have hreverse : (before ++ c :: after).reverse = after.reverse ++ c :: before.reverse := by simp
  rw [trimEnd, hreverse, List.dropWhile_append, trimEnd]
  split
  · next hempty => simp [List.isEmpty_iff.1 hempty, h]
  · simp

/-- Spaces at the front make an indentation wider by one column each. -/
lemma indentFrom_spaces (tabWidth column n : Nat) (text : List Char) :
    indentFrom tabWidth column (List.replicate n ' ' ++ text)
      = indentFrom tabWidth (column + n) text := by
  induction n generalizing column with
  | zero => rfl
  | succ n ih =>
    have hspace : (isBlank ' ' && ' ' != '\n' && ' ' != '\r') = true := by decide
    rw [List.replicate_succ, List.cons_append, indentFrom, if_neg (by decide), if_pos hspace, ih,
      Nat.add_right_comm, Nat.add_assoc]

/-- Each space of an indentation is one column wide. -/
lemma indentWidth_indented (tabWidth n : Nat) {c : Char} (h : isBlank c = false)
    (text : List Char) : indentWidth (List.replicate n ' ' ++ c :: text) tabWidth = n := by
  have htab : c ≠ '\t' := by
    rintro rfl
    exact absurd h (by decide)
  rw [indentWidth, indentFrom_spaces, Nat.zero_add, indentFrom, if_neg htab, h]
  rfl

/-! ## Words at the front -/

/-- A name at the front of a text is the first identifier. -/
lemma firstIdentifier?_name {name rest : List Char} (hname : isIdentifier name = true)
    (hrest : rest.head?.any isIdentifierChar = false) :
    firstIdentifier? (name ++ rest) = some name := by
  obtain ⟨c, tail, rfl, -⟩ := exists_cons_of_isIdentifier hname
  rw [firstIdentifier?, takeWhile_word (all_of_isIdentifier hname) hrest]
  rfl

/-- A blank separates words. -/
lemma words_blank {c : Char} (h : isBlank c = true) (text : List Char) :
    words (c :: text) = words text := by
  rw [words, if_pos h]

/-- A word at the front of a text, with a blank or nothing after it. -/
lemma words_append {word rest : List Char} (hword : word ≠ []) (hsolid : word.any isBlank = false)
    (hrest : rest.head?.all isBlank = true) : words (word ++ rest) = word :: words rest := by
  cases word with
  | nil => exact absurd rfl hword
  | cons c word =>
    rw [List.any_cons, Bool.or_eq_false_iff] at hsolid
    have hall : ∀ d ∈ word, (!isBlank d) = true := by simpa using hsolid.2
    rw [List.cons_append, words, hsolid.1, List.takeWhile_append_of_pos hall,
      List.dropWhile_append_of_pos hall]
    cases rest with
    | nil => simp
    | cons d rest =>
      have hblank : isBlank d = true := hrest
      simp [hblank]

/-! ## Words that stand alone -/

/-- A word stands alone between two texts: there is a word, and on either side nothing or a blank is
next to it. -/
structure StandsAlone (before word after : List Char) : Prop where
  /-- There is a word. -/
  ne_nil : word ≠ []
  /-- Nothing is in front of it, or a blank. -/
  front : before = [] ∨ before.getLast?.any isBlank = true
  /-- Nothing is behind it, or a blank. -/
  behind : after = [] ∨ after.head?.any isBlank = true

/-- Nothing else than a blank is next to a word: there is nothing, or there is a blank. -/
lemma all_isBlank_iff (next : Option Char) :
    next.all isBlank = true ↔ next = none ∨ next.any isBlank = true := by
  cases next with
  | none => simp
  | some c => simp

/-- A word between two texts is told from the character in front of it and the text that begins with
it.

**Proof sketch.** The text begins with the word, and the characters next to it on either side are
blanks or missing. These are the parts of `StandsAlone`, one by one. -/
lemma isWordBetween_getLast?_iff {before word text : List Char} :
    isWordBetween before.getLast? word text = true
      ↔ ∃ after, text = word ++ after ∧ StandsAlone before word after := by
  rw [isWordBetween, Bool.and_eq_true, Bool.and_eq_true, all_isBlank_iff,
    List.getLast?_eq_none_iff]
  constructor
  · rintro ⟨⟨hword, hfront⟩, hbehind⟩
    cases hafter : after? word text with
    | none =>
      rw [hafter] at hbehind
      exact absurd hbehind (by decide)
    | some after =>
      rw [hafter] at hbehind
      have hnext := (all_isBlank_iff after.head?).1 hbehind
      rw [List.head?_eq_none_iff] at hnext
      exact ⟨after, after?_eq_some_iff.1 hafter, by simpa using hword, hfront, hnext⟩
  · rintro ⟨after, rfl, halone⟩
    have hword : (!word.isEmpty) = true := by simpa using halone.ne_nil
    have hnext : after.head?.all isBlank = true := by
      rw [all_isBlank_iff, List.head?_eq_none_iff]
      exact halone.behind
    rw [after?_eq_some_iff.2 rfl]
    exact ⟨⟨hword, halone.front⟩, hnext⟩

/-- **A word stands alone at a byte offset** where the line is made of so many bytes, the word and
what is behind it, and nothing else than blanks is next to it.

**Proof sketch.** A line that can be cut at the offset is what is in front and what is behind
(`splitAtByte?_eq_some_iff`), and the second begins with the word. If it cannot be cut there, no
word is found. -/
theorem isWordAt_iff {line word : List Char} {offset : Nat} :
    isWordAt line offset word = true ↔ ∃ before after,
      line = before ++ word ++ after ∧ byteLength before = offset
        ∧ StandsAlone before word after := by
  constructor
  · intro h
    cases hsplit : splitAtByte? offset line with
    | none =>
      rw [isWordAt, hsplit] at h
      exact absurd h Bool.false_ne_true
    | some parts =>
      obtain ⟨before, text⟩ := parts
      rw [isWordAt, hsplit] at h
      obtain ⟨rfl, hbytes⟩ := splitAtByte?_eq_some_iff.1 hsplit
      obtain ⟨after, rfl, halone⟩ := isWordBetween_getLast?_iff.1 h
      exact ⟨before, after, (List.append_assoc before word after).symm, hbytes, halone⟩
  · rintro ⟨before, after, rfl, hbytes, halone⟩
    have hsplit : splitAtByte? offset (before ++ word ++ after) = some (before, word ++ after) :=
      splitAtByte?_eq_some_iff.2 ⟨List.append_assoc before word after, hbytes⟩
    rw [isWordAt, hsplit]
    exact isWordBetween_getLast?_iff.2 ⟨after, rfl, halone⟩

/-- Nothing is in front of a word at the front. -/
lemma isWordAt_zero_iff {text word : List Char} :
    isWordAt text 0 word = true ↔ ∃ after, text = word ++ after ∧ StandsAlone [] word after := by
  have hsplit : splitAtByte? 0 text = some ([], text) :=
    splitAtByte?_eq_some_iff.2 ⟨(List.nil_append text).symm, rfl⟩
  rw [isWordAt, hsplit]
  exact isWordBetween_getLast?_iff

section Keywords

variable {keyword word rest text : List Char}

/-- A keyword is a word that stands alone at the front. What is left begins behind the blanks. -/
lemma afterKeyword?_eq_some :
    afterKeyword? keyword text = some rest ↔ ∃ after,
      text = keyword ++ after ∧ StandsAlone [] keyword after ∧ trimStart after = rest := by
  rw [afterKeyword?, Option.ite_none_right_eq_some, isWordAt_zero_iff, Option.some.injEq]
  constructor
  · rintro ⟨⟨after, rfl, halone⟩, htrim⟩
    rw [List.drop_left] at htrim
    exact ⟨after, rfl, halone, htrim⟩
  · rintro ⟨after, rfl, halone, rfl⟩
    rw [List.drop_left]
    exact ⟨⟨after, rfl, halone⟩, rfl⟩

/-- **A keyword is found at the front of a text** with blanks behind it or nothing at all. The
blanks are cut off with it, all of them.

**Proof sketch.** What is left behind the keyword is cut into the blanks at its front and the rest.
The keyword stands alone if there are blanks or nothing is left at all. -/
theorem afterKeyword?_eq_some_iff :
    afterKeyword? keyword text = some rest ↔ keyword ≠ [] ∧ ∃ blanks,
      text = keyword ++ blanks ++ rest ∧ blanks.all isBlank = true
        ∧ rest.head?.any isBlank = false ∧ (blanks ≠ [] ∨ rest = []) := by
  rw [afterKeyword?_eq_some]
  constructor
  · rintro ⟨after, rfl, halone, rfl⟩
    refine ⟨halone.ne_nil, after.takeWhile isBlank, ?_, List.all_takeWhile,
      head?_any_dropWhile isBlank after, ?_⟩
    · rw [List.append_assoc, trimStart, List.takeWhile_append_dropWhile]
    · rcases halone.behind with rfl | hblank
      · exact .inr rfl
      · cases after with
        | nil => exact .inr rfl
        | cons c after =>
          have hc : isBlank c = true := hblank
          rw [List.takeWhile_cons_of_pos hc]
          exact .inl (List.cons_ne_nil c _)
  · rintro ⟨hkeyword, blanks, rfl, hblanks, hrest, hends⟩
    refine ⟨blanks ++ rest, List.append_assoc keyword blanks rest, ⟨hkeyword, .inl rfl, ?_⟩, ?_⟩
    · cases blanks with
      | nil => exact .inl (hends.resolve_left fun h => h rfl)
      | cons c blanks =>
        rw [List.all_cons, Bool.and_eq_true] at hblanks
        exact .inr hblanks.1
    · rw [trimStart_blanks hblanks]
      cases rest with
      | nil => rfl
      | cons c rest => exact trimStart_cons hrest rest

/-- A keyword at the front of a text, with a blank or nothing after it. -/
lemma afterKeyword?_self (hkeyword : keyword ≠ []) (hrest : rest.head?.all isBlank = true) :
    afterKeyword? keyword (keyword ++ rest) = some (trimStart rest) := by
  rw [all_isBlank_iff, List.head?_eq_none_iff] at hrest
  exact afterKeyword?_eq_some.2 ⟨rest, rfl, ⟨hkeyword, .inl rfl, hrest⟩, rfl⟩

/-- A keyword at the front of a text, with a space and something else after it. -/
lemma afterKeyword?_space (hkeyword : keyword ≠ []) (htext : text.head?.any isBlank = false) :
    afterKeyword? keyword (keyword ++ ' ' :: text) = some text :=
  afterKeyword?_eq_some_iff.2 ⟨hkeyword, [' '], by simp, by decide, htext, .inl (by decide)⟩

/-- A keyword that is found at the front of a text ends there: it is all characters of its class at
the front of the text, for a class to which blanks do not belong. -/
lemma takeWhile_of_afterKeyword? {p : Char → Bool} (hblank : ∀ c, isBlank c = true → p c = false)
    (hkeyword : keyword.all p = true) (h : afterKeyword? keyword text = some rest) :
    text.takeWhile p = keyword := by
  obtain ⟨after, rfl, halone, -⟩ := afterKeyword?_eq_some.1 h
  refine takeWhile_word hkeyword ?_
  cases after with
  | nil => rfl
  | cons c after => exact hblank c (halone.behind.resolve_left (List.cons_ne_nil c after))

/-- A text whose first word is another one does not begin with the keyword. -/
lemma afterKeyword?_eq_none (hkeyword : keyword.any isBlank = false)
    (hne : text.takeWhile (!isBlank ·) ≠ keyword) : afterKeyword? keyword text = none := by
  have hsolid : keyword.all (!isBlank ·) = true := by
    rw [List.all_eq_not_any_not]
    simpa using hkeyword
  refine Option.eq_none_iff_forall_ne_some.2 fun found h => ?_
  exact hne (takeWhile_of_afterKeyword? (fun c hc => by rw [hc]; rfl) hsolid h)

/-- A text that begins with one keyword does not begin with another one. -/
lemma afterKeyword?_eq_none_of_eq_some (hkeyword : keyword.any isBlank = false)
    (hword : word.any isBlank = false) (hne : keyword ≠ word)
    (h : afterKeyword? keyword text = some rest) : afterKeyword? word text = none := by
  have hsolid : keyword.all (!isBlank ·) = true := by
    rw [List.all_eq_not_any_not]
    simpa using hkeyword
  refine afterKeyword?_eq_none hword ?_
  rwa [takeWhile_of_afterKeyword? (fun c hc => by rw [hc]; rfl) hsolid h]

/-- Another word at the front of a text is not taken for the keyword. -/
lemma afterKeyword?_of_ne (hkeyword : keyword.any isBlank = false)
    (hword : word.any isBlank = false) (hrest : rest.head?.all isBlank = true)
    (hne : word ≠ keyword) : afterKeyword? keyword (word ++ rest) = none := by
  have hsolid : word.all (!isBlank ·) = true := by
    rw [List.all_eq_not_any_not]
    simpa using hword
  have hends : rest.head?.any (!isBlank ·) = false := by
    cases rest with
    | nil => rfl
    | cons c rest => simpa using hrest
  refine afterKeyword?_eq_none hkeyword ?_
  rwa [takeWhile_word hsolid hends]

/-- Another name at the front of a text is not taken for the keyword, even without a blank after
it. -/
lemma afterKeyword?_of_name (hkeyword : keyword.all isIdentifierChar = true)
    (hword : word.all isIdentifierChar = true) (hrest : rest.head?.any isIdentifierChar = false)
    (hne : word ≠ keyword) : afterKeyword? keyword (word ++ rest) = none := by
  refine Option.eq_none_iff_forall_ne_some.2 fun found h => hne ?_
  rw [← takeWhile_word hword hrest,
    takeWhile_of_afterKeyword? (fun _ => isIdentifierChar_of_isBlank) hkeyword h]

end Keywords

end Outliner
