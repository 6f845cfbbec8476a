import Outliner.Proofs.Checked
import Outliner.Proofs.Reading
import Outliner.Proofs.Words

set_option autoImplicit false

/-!
# Words and lines with checks

The words of a text are found with cuts, and the width of an indentation with a difference. Here are
these functions as a program computes them, and the reading of a source line by line by a program.
None of them fails: a text is cut only where a class of characters ends or after a pattern that was
found there, and a column has always less than one tab width behind its last tab stop.

## Main definitions

* `Outliner.Checked.front` — the characters of a class at the front of a text.
* `Outliner.Checked.firstIdentifier?`, `Outliner.Checked.isWordAt`, `Outliner.Checked.afterKeyword?`
  — words.
* `Outliner.Checked.indentFrom`, `Outliner.Checked.indentWidth` — indentation.
* `Outliner.Checked.eachLine`, `Outliner.Checked.readLines` — what a program reads off lines.

## Main results

* `Outliner.Checked.front_eq`, `Outliner.Checked.isWordAt_eq`, `Outliner.Checked.afterKeyword?_eq`,
  `Outliner.Checked.indentWidth_eq` — they do not fail, and have the value that they should.
* `Outliner.Checked.eachLine_eq`, `Outliner.Checked.readLines_eq` — from one line to all lines.
-/

namespace Outliner.Checked

/-! ## Words -/

/-- The characters of a class at the front of the text, which is cut in front of the first other
character or at its end. -/
def front (p : Char → Bool) (text : List Char) : Run (List Char) :=
  sliceTo text ((byteIndex? (!p ·) text).getD (byteLength text))

/-- The identifier characters at the front of the text, if there is one at all. -/
def firstIdentifier? (text : List Char) : Run (Option (List Char)) := do
  if 0 < (byteIndex? (!isIdentifierChar ·) text).getD (byteLength text) then
    return some (← front isIdentifierChar text)
  else return none

/-- Whether `word` stands alone in `line` at the given byte offset. An offset that is no place of
the line has nothing at it. -/
def isWordAt (line : List Char) (offset : Nat) (word : List Char) : Run Bool := do
  if word.isEmpty then return false
  else
    match (splitAtByte? offset line).bind fun (_, rest) => after? word rest with
    | none => return false
    | some after =>
      let before ← sliceTo line offset
      return before.getLast?.all isBlank && after.head?.all isBlank

/-- What follows the keyword and the blanks after it, if the text begins with the keyword as a
word. -/
def afterKeyword? (keyword text : List Char) : Run (Option (List Char)) := do
  if ← isWordAt text 0 keyword then return some (trimStart (← sliceFrom text (byteLength keyword)))
  else return none

/-- The characters of a class at the front of a text are cut off without anything going wrong. -/
@[simp] lemma front_eq (p : Char → Bool) (text : List Char) :
    front p text = .ok (text.takeWhile p) := by
  rw [front, sliceTo_byteIndex]
  simp

/-- So is the identifier at the front of a text. -/
@[simp] lemma firstIdentifier?_eq (text : List Char) :
    firstIdentifier? text = .ok (Outliner.firstIdentifier? text) := by
  have hnames : (byteIndex? (!isIdentifierChar ·) text).getD (byteLength text)
      = byteLength (text.takeWhile isIdentifierChar) := by
    rw [byteIndex?_getD]
    simp
  rw [firstIdentifier?, hnames, front_eq, Outliner.firstIdentifier?]
  cases htext : text.takeWhile isIdentifierChar with
  | nil => rfl
  | cons c name =>
    have hpos : 0 < byteLength (c :: name) := byteLength_pos_iff.2 (List.cons_ne_nil c name)
    rw [if_pos hpos]
    rfl

/-- Whether a word stands alone at an offset is found out without anything going wrong, whatever the
offset.

**Proof sketch.** The line is cut at the offset only where the word was found, so the cut is at the
end of a character. Otherwise nothing is cut. -/
@[simp] lemma isWordAt_eq (line : List Char) (offset : Nat) (word : List Char) :
    isWordAt line offset word = .ok (Outliner.isWordAt line offset word) := by
  rw [isWordAt, Outliner.isWordAt]
  cases hword : word.isEmpty with
  | true =>
    cases splitAtByte? offset line with
    | none => rfl
    | some parts => simp [isWordBetween, hword]
  | false =>
    cases hsplit : splitAtByte? offset line with
    | none => rfl
    | some parts =>
      obtain ⟨before, rest⟩ := parts
      have hslice : sliceTo line offset = .ok before := by
        rw [sliceTo, cut, hsplit]
        rfl
      cases hafter : after? word rest with
      | none => simp [isWordBetween, hafter]
      | some after => simp [isWordBetween, hword, hafter, hslice]

/-- What a keyword leaves of a text is found out without anything going wrong. -/
@[simp] lemma afterKeyword?_eq (keyword text : List Char) :
    afterKeyword? keyword text = .ok (Outliner.afterKeyword? keyword text) := by
  rw [afterKeyword?, isWordAt_eq, ok_bind, Outliner.afterKeyword?]
  cases hword : Outliner.isWordAt text 0 keyword with
  | false => rfl
  | true =>
    obtain ⟨rest, rfl, -⟩ := isWordAt_zero_iff.1 hword
    rw [if_pos rfl, if_pos rfl, sliceFrom_append, List.drop_left]
    rfl

/-- A text may be cut behind the first occurrence of a pattern. -/
lemma sliceFrom_offset {pattern text : List Char} {n : Nat} (h : offset? pattern text = some n) :
    sliceFrom text (byteLength (text.take n) + byteLength pattern)
      = .ok (text.drop (n + pattern.length)) := by
  obtain ⟨rest, hrest⟩ := offset?_isPrefix h
  have htext : text.take n ++ pattern ++ rest = text := by
    rw [List.append_assoc, hrest, List.take_append_drop]
  have hdrop : text.drop (n + pattern.length) = rest := by
    rw [← List.drop_drop, ← hrest, List.drop_left]
  have hcut := sliceFrom_append (text.take n ++ pattern) rest
  rwa [htext, byteLength_append, ← hdrop] at hcut

/-- A text may be cut behind a pattern at the beginning of one of its ends.

**Proof sketch.** The text is what is in front, the pattern and the rest, so the place behind the
pattern lies at the bytes of the first two. -/
lemma sliceTo_suffix {text pattern rest : List Char} (h : pattern ++ rest <:+ text) :
    byteLength (pattern ++ rest) ≤ byteLength text ∧
      sliceTo text (byteLength text - byteLength (pattern ++ rest) + byteLength pattern)
        = .ok (text.take (text.length - rest.length)) := by
  obtain ⟨before, rfl⟩ := h
  have hcut := sliceTo_append (before ++ pattern) rest
  have htake : (before ++ pattern ++ rest).take ((before ++ pattern ++ rest).length - rest.length)
      = before ++ pattern := by
    rw [List.length_append, Nat.add_sub_cancel, List.take_left]
  rw [← List.append_assoc, htake, byteLength_append (before ++ pattern) rest,
    byteLength_append before pattern, byteLength_append pattern rest]
  rw [byteLength_append before pattern] at hcut
  refine ⟨by omega, ?_⟩
  rwa [show byteLength before + byteLength pattern + byteLength rest
    - (byteLength pattern + byteLength rest) + byteLength pattern
      = byteLength before + byteLength pattern by omega]

/-! ## Copies in small letters -/

/-- The small letter has as many bytes as the capital. -/
lemma utf8Size_toLower (c : Char) : c.toLower.utf8Size = c.utf8Size := by
  unfold Char.toLower
  split
  · next h =>
    have hlast : 'Z'.val ≤ 127 := by decide
    have hcapital : c.val ≤ 127 := UInt32.le_trans h.2 hlast
    have hsmall : c.val + ('a'.val - 'A'.val) ≤ 127 := by
      have hletter : c.val.toNat ≤ 90 := UInt32.le_iff_toNat_le.1 h.2
      have hsum : (c.val + ('a'.val - 'A'.val)).toNat = (c.val.toNat + 32) % 4294967296 := rfl
      rw [UInt32.le_iff_toNat_le, hsum]
      change _ ≤ 127
      omega
    rw [Char.utf8Size_eq_one_iff.2 hcapital, Char.utf8Size_eq_one_iff.2 hsmall]
  · rfl

/-- A copy in small letters takes as many bytes. -/
lemma byteLength_map_toLower (text : List Char) :
    byteLength (text.map Char.toLower) = byteLength text := by
  induction text with
  | nil => rfl
  | cons c text ih => rw [List.map_cons, byteLength_cons, byteLength_cons, utf8Size_toLower, ih]

/-- What is left of a copy in small letters is left of the text, at the same place from its end.

**Proof sketch.** The copy has as many characters and as many bytes as the text, and the same holds
of what is in front of the rest. -/
lemma sliceFrom_lowered {text rest : List Char} (h : rest <:+ text.map Char.toLower) :
    byteLength rest ≤ byteLength text ∧
      sliceFrom text (byteLength text - byteLength rest)
        = .ok (text.drop (text.length - rest.length)) := by
  obtain ⟨before, hbefore⟩ := h
  have hlength : before.length = text.length - rest.length := by
    have hsum := congrArg List.length hbefore
    rw [List.length_append, List.length_map] at hsum
    omega
  have hbytes : byteLength (text.take before.length) + byteLength rest = byteLength text := by
    have htake : (text.take before.length).map Char.toLower = before := by
      rw [List.map_take, ← hbefore, List.take_left]
    rw [← byteLength_map_toLower (text.take _), htake, ← byteLength_append, hbefore,
      byteLength_map_toLower]
  have hminus : byteLength text - byteLength rest = byteLength (text.take before.length) := by
    omega
  have hcut := sliceFrom_append (text.take before.length) (text.drop before.length)
  refine ⟨by omega, ?_⟩
  rw [hminus, ← hlength]
  rwa [List.take_append_drop] at hcut

/-! ## Indentation -/

/-- The column reached from `column` over the blanks at the front of the text. -/
def indentFrom (tabWidth : Nat) : Nat → List Char → Run Nat
  | column, [] => return column
  | column, c :: text => do
    if c = '\t' then
      let further ← minus tabWidth (column % tabWidth)
      indentFrom tabWidth (column + further) text
    else if isBlank c && c != '\n' && c != '\r' then indentFrom tabWidth (column + 1) text
    else return column

/-- The width of the indentation of a line. -/
def indentWidth (line : List Char) (tabWidth : Nat) : Run Nat := indentFrom (max tabWidth 1) 0 line

/-- An indentation is measured without anything going wrong, if tabs have a width. -/
lemma indentFrom_eq {tabWidth : Nat} (h : 0 < tabWidth) (column : Nat) (text : List Char) :
    indentFrom tabWidth column text = .ok (Outliner.indentFrom tabWidth column text) := by
  induction text generalizing column with
  | nil => rfl
  | cons c text ih =>
    have hless : column % tabWidth ≤ tabWidth := (Nat.mod_lt column h).le
    rw [indentFrom, Outliner.indentFrom, minus_of_le hless, ok_bind, ih, ih]
    split
    · rfl
    · split
      · rfl
      · rfl

/-- So is the indentation of a line. -/
@[simp] lemma indentWidth_eq (line : List Char) (tabWidth : Nat) :
    indentWidth line tabWidth = .ok (Outliner.indentWidth line tabWidth) :=
  indentFrom_eq (by omega) 0 line

/-! ## Lines -/

section Lines

variable {σ α : Type}

/-- The state after the lines and all that is found on them, where the first line has the number
`first`. -/
def readLines (read : σ → Nat → List Char → Run (σ × List α)) (first : Nat) (state : σ) :
    List (List Char) → Run (σ × List α)
  | [] => return (state, [])
  | line :: lines => do
    let here ← read state first line
    let further ← readLines read (first + 1) here.1 lines
    return (further.1, here.2 ++ further.2)

/-- All that is found on lines read independently of each other. -/
def eachLine (read : Nat → List Char → Run (List α)) (lines : List (List Char)) : Run (List α) :=
  Prod.snd <$> readLines (fun _ line text => ((), ·) <$> read line text) 0 () lines

/-- **The lines of a source are read if each line is.** -/
theorem readLines_eq {run : σ → Nat → List Char → Run (σ × List α)}
    {read : σ → Nat → List Char → σ × List α}
    (h : ∀ state line text, run state line text = .ok (read state line text)) (first : Nat)
    (state : σ) (lines : List (List Char)) :
    readLines run first state lines = .ok (Outliner.readLines read first state lines) := by
  induction lines generalizing first state with
  | nil => rfl
  | cons line lines ih =>
    rw [readLines, h, ok_bind, ih, ok_bind]
    rfl

/-- If nothing goes wrong on any line, nothing goes wrong on any source. -/
theorem eachLine_eq {run : Nat → List Char → Run (List α)} {read : Nat → List Char → List α}
    (h : ∀ line text, run line text = .ok (read line text)) (lines : List (List Char)) :
    eachLine run lines = .ok (Outliner.eachLine read lines) := by
  have hread : ∀ (state : Unit) (line : Nat) (text : List Char),
      ((), ·) <$> run line text = .ok (((), read line text) : Unit × List α) := by
    intro state line text
    rw [h, map_ok]
  rw [eachLine, readLines_eq hread, map_ok, eachLine_eq_readLines]

end Lines

end Outliner.Checked
