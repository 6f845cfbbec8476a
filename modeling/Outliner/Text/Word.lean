import Outliner.Text.Character

set_option autoImplicit false

/-!
# Words of a text

A text is a list of characters. This module cuts it at blanks, finds identifiers at its front, tells
whether a word stands alone at a given place, and measures indentation.

Places are counted in bytes of the UTF-8 form where the caller counts bytes, and in characters
otherwise. A place inside a character is no place at all.

## Main definitions

* `Outliner.trimStart`, `Outliner.trimEnd`, `Outliner.trim` — a text without the blanks at its ends.
* `Outliner.words` — the maximal runs of characters that are not blank.
* `Outliner.after?`, `Outliner.offset?` — what follows a leading pattern, and where a pattern first
  occurs.
* `Outliner.firstIdentifier?`, `Outliner.isName`, `Outliner.isIdentifier` — names.
* `Outliner.isWordAt`, `Outliner.afterKeyword?` — words that stand alone.
* `Outliner.indentWidth` — the width of the blanks at the front.

## Main results

* `Outliner.after?_eq_some_iff` — what follows a leading pattern is the rest of the text.
* `Outliner.splitAtByte?_eq_some_iff` — cutting at a byte offset succeeds exactly at the ends of
  characters.
-/

namespace Outliner

/-! ## Blanks at the ends -/

/-- The text without its leading blanks. -/
def trimStart (text : List Char) : List Char :=
  text.dropWhile isBlank

/-- The text without its trailing blanks. -/
def trimEnd (text : List Char) : List Char :=
  (text.reverse.dropWhile isBlank).reverse

/-- The text without the blanks at its ends. -/
def trim (text : List Char) : List Char :=
  trimEnd (trimStart text)

/-- Dropping what stands at the front makes a text no longer. -/
theorem length_dropWhile_le {α : Type} (p : α → Bool) (l : List α) :
    (l.dropWhile p).length ≤ l.length :=
  (List.dropWhile_sublist p).length_le

/-- The maximal runs of characters that are not blank, in order. -/
def words : List Char → List (List Char)
  | [] => []
  | c :: rest =>
    if isBlank c then words rest
    else
      (c :: rest.takeWhile (fun d => !isBlank d)) :: words (rest.dropWhile (fun d => !isBlank d))
termination_by text => text.length
decreasing_by
  · simp
  · have := length_dropWhile_le (fun d => !isBlank d) rest
    simp only [List.length_cons]
    omega

/-! ## Patterns -/

/-- What follows `pattern` in `text`, if the text begins with it. -/
def after? : List Char → List Char → Option (List Char)
  | [], text => some text
  | _ :: _, [] => none
  | p :: pattern, c :: text => if p = c then after? pattern text else none

/-- Whether `text` begins with `pattern`. -/
def startsWith (pattern text : List Char) : Bool :=
  (after? pattern text).isSome

/-- The number of characters before the first occurrence of `pattern` in `text`. -/
def offset? (pattern : List Char) : List Char → Option Nat
  | [] => if pattern.isEmpty then some 0 else none
  | c :: text =>
    if startsWith pattern (c :: text) then some 0 else (offset? pattern text).map (· + 1)

/-- The text after the first occurrence of `pattern`, if it occurs. -/
def afterFirst? (pattern text : List Char) : Option (List Char) :=
  (offset? pattern text).map fun n => text.drop (n + pattern.length)

/-- What follows a leading pattern is the rest of the text. -/
theorem after?_eq_some_iff {pattern text rest : List Char} :
    after? pattern text = some rest ↔ text = pattern ++ rest := by
  induction pattern generalizing text with
  | nil => simp [after?]
  | cons p pattern ih =>
    cases text with
    | nil => simp [after?]
    | cons c text =>
      by_cases h : p = c
      · simp [after?, h, ih]
      · simp [after?, h, Ne.symm h]

/-- A text begins with a pattern if it is the pattern and something else. -/
theorem startsWith_iff {pattern text : List Char} :
    startsWith pattern text = true ↔ ∃ rest, text = pattern ++ rest := by
  simp [startsWith, Option.isSome_iff_exists, after?_eq_some_iff]

/-! ## Names -/

/-- The identifier characters at the front of the text, if there is one at all. A digit may come
first. -/
def firstIdentifier? (text : List Char) : Option (List Char) :=
  let name := text.takeWhile isIdentifierChar
  if name.isEmpty then none else some name

/-- Whether the text is made of identifier characters and is not empty. -/
def isName (name : List Char) : Bool :=
  !name.isEmpty && name.all isIdentifierChar

/-- Whether the text is a name that does not begin with a numeral. -/
def isIdentifier (name : List Char) : Bool :=
  isName name && !name.head?.any isNumeric

/-! ## Words that stand alone -/

/-- The text before and after its first `bytes` bytes, if a character ends there. -/
def splitAtByte? : Nat → List Char → Option (List Char × List Char)
  | bytes, [] => if bytes = 0 then some ([], []) else none
  | bytes, c :: text =>
    if bytes = 0 then some ([], c :: text)
    else if c.utf8Size ≤ bytes then
      (splitAtByte? (bytes - c.utf8Size) text).map fun (before, after) => (c :: before, after)
    else none

/-- The number of bytes of the text in UTF-8. -/
def byteLength : List Char → Nat
  | [] => 0
  | c :: text => c.utf8Size + byteLength text

/-- A text takes as many bytes as its parts. -/
theorem byteLength_append (a b : List Char) :
    byteLength (a ++ b) = byteLength a + byteLength b := by
  induction a with
  | nil => simp [byteLength]
  | cons c a ih => simp only [List.cons_append, byteLength, ih, Nat.add_assoc]

/-- A text that is turned around takes as many bytes. -/
theorem byteLength_reverse (a : List Char) : byteLength a.reverse = byteLength a := by
  induction a with
  | nil => rfl
  | cons c a ih => simp only [List.reverse_cons, byteLength_append, byteLength, ih]; omega

/-- Whether `word` stands alone at the front of `text` when `before` is the character in front of
it: it is not empty, and what precedes and what follows it is blank or nothing. -/
def isWordBetween (before : Option Char) (word text : List Char) : Bool :=
  !word.isEmpty && before.all isBlank &&
    match after? word text with
    | some rest => rest.head?.all isBlank
    | none => false

/-- Whether `word` stands alone in `line` at the given byte offset. -/
def isWordAt (line : List Char) (offset : Nat) (word : List Char) : Bool :=
  match splitAtByte? offset line with
  | some (before, after) => isWordBetween before.getLast? word after
  | none => false

/-- What follows the keyword and the blanks after it, if the text begins with the keyword as a
word. -/
def afterKeyword? (keyword text : List Char) : Option (List Char) :=
  if isWordAt text 0 keyword then some (trimStart (text.drop keyword.length)) else none

/-- At offset zero nothing is cut off. -/
theorem splitAtByte?_zero (text : List Char) : splitAtByte? 0 text = some ([], text) := by
  cases text <;> rfl

/-- A text is cut at the byte where its first part ends.

**Proof sketch.** Induction on the part in front. Its first character fits in the offset, and the
offset is counted on behind it. -/
theorem splitAtByte?_append (before after : List Char) :
    splitAtByte? (byteLength before) (before ++ after) = some (before, after) := by
  induction before with
  | nil => exact splitAtByte?_zero after
  | cons c before ih =>
    have hpos : c.utf8Size + byteLength before ≠ 0 := by
      have := c.utf8Size_pos
      omega
    rw [List.cons_append, splitAtByte?, byteLength, if_neg hpos, if_pos (Nat.le_add_right _ _),
      Nat.add_sub_cancel_left, ih]
    rfl

/-- The two parts into which a text is cut make up the text, and the first one takes so many bytes.

**Proof sketch.** Induction on the text. At offset zero nothing is cut off. At any other offset the
first character belongs to the part in front, if it takes no more bytes than that, and what is left
of the offset is counted behind it. -/
theorem eq_append_of_splitAtByte? {offset : Nat} {text before after : List Char}
    (h : splitAtByte? offset text = some (before, after)) :
    text = before ++ after ∧ byteLength before = offset := by
  induction text generalizing offset before with
  | nil =>
    rw [splitAtByte?] at h
    split at h
    · next hoffset =>
      obtain ⟨rfl, rfl⟩ := Prod.mk.inj (Option.some.inj h)
      exact ⟨rfl, hoffset.symm⟩
    · cases h
  | cons c text ih =>
    rw [splitAtByte?] at h
    split at h
    · next hoffset =>
      obtain ⟨rfl, rfl⟩ := Prod.mk.inj (Option.some.inj h)
      exact ⟨rfl, hoffset.symm⟩
    split at h
    · next hfits =>
      obtain ⟨⟨front, behind⟩, hfound, heq⟩ := Option.map_eq_some_iff.1 h
      obtain ⟨rfl, rfl⟩ := Prod.mk.inj heq
      obtain ⟨rfl, hbytes⟩ := ih hfound
      refine ⟨rfl, ?_⟩
      rw [byteLength, hbytes]
      exact Nat.add_sub_cancel' hfits
    · cases h

/-- Cutting at a byte offset succeeds exactly at the ends of characters: the text is put together
from two parts, and the first one takes so many bytes. -/
theorem splitAtByte?_eq_some_iff {offset : Nat} {text before after : List Char} :
    splitAtByte? offset text = some (before, after) ↔
      text = before ++ after ∧ byteLength before = offset := by
  constructor
  · exact eq_append_of_splitAtByte?
  · rintro ⟨rfl, rfl⟩
    exact splitAtByte?_append before after

/-! ## Indentation -/

/-- The column reached from `column` over the blanks at the front of the text. A tab goes on to the
next multiple of `tabWidth`, any other blank takes one column, and a line break ends the
indentation. -/
def indentFrom (tabWidth : Nat) : Nat → List Char → Nat
  | column, [] => column
  | column, c :: text =>
    if c = '\t' then indentFrom tabWidth (column + (tabWidth - column % tabWidth)) text
    else if isBlank c && c != '\n' && c != '\r' then indentFrom tabWidth (column + 1) text
    else column

/-- The width of the indentation of a line. A tab width of zero counts as one. -/
def indentWidth (line : List Char) (tabWidth : Nat) : Nat :=
  indentFrom (max tabWidth 1) 0 line

end Outliner
