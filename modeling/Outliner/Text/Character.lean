import Outliner.Text.Alphabetic
import Outliner.Text.Numeric
import Outliner.Text.Wordlike

set_option autoImplicit false

/-!
# Character classes

The classes of characters by which names, words and blanks are told apart. Each of them agrees with
the class of the Unicode standard over all characters (letters and numerals with version 17.0, word
characters with version 16.0); over ASCII it is the familiar one.

## Main definitions

* `Outliner.isAlphabetic`, `Outliner.isNumeric`, `Outliner.isAlphanumeric` — letters and numerals.
* `Outliner.isBlank` — white space.
* `Outliner.isIdentifierChar` — what a name is made of: letters, numerals and the underscore.
* `Outliner.isWordChar` — what a word of running text is made of: also marks, connectors and
  joiners.
-/

namespace Outliner

/-- Whether the character has the Unicode property *Alphabetic*. -/
def isAlphabetic (c : Char) : Bool :=
  if c.toNat < 0x80 then c.isAlpha else CharRange.holds alphabeticRanges c

/-- Whether the character is a numeral: a decimal digit, a letter numeral or another numeral. -/
def isNumeric (c : Char) : Bool :=
  if c.toNat < 0x80 then c.isDigit else CharRange.holds numericRanges c

/-- Whether the character is a letter or a numeral. -/
def isAlphanumeric (c : Char) : Bool :=
  isAlphabetic c || isNumeric c

/-- The code points with the Unicode property *White_Space*. -/
def blankRanges : List CharRange := [
  ⟨0x09, 0x0D⟩, ⟨0x20, 0x20⟩, ⟨0x85, 0x85⟩, ⟨0xA0, 0xA0⟩, ⟨0x1680, 0x1680⟩, ⟨0x2000, 0x200A⟩,
  ⟨0x2028, 0x2029⟩, ⟨0x202F, 0x202F⟩, ⟨0x205F, 0x205F⟩, ⟨0x3000, 0x3000⟩]

/-- Whether the character is white space. -/
def isBlank (c : Char) : Bool :=
  CharRange.holds blankRanges c

/-- Whether the character may stand in an identifier: a letter, a numeral or an underscore. -/
def isIdentifierChar (c : Char) : Bool :=
  isAlphanumeric c || c == '_'

/-- Whether the character is part of a word of running text: a letter, a mark, a decimal digit, a
connector or one of the two joiners. A word of text begins where such a character follows another
one. -/
def isWordChar (c : Char) : Bool :=
  if c.toNat < 0x80 then c.isAlphanum || c == '_' else CharRange.holds wordlikeRanges c

/-- The digits of ASCII are numerals. -/
theorem isNumeric_of_isDigit {c : Char} (h : c.isDigit = true) : isNumeric c = true := by
  have small : c.toNat < 0x80 := by
    delta Char.isDigit at h
    simp [UInt32.le_iff_toNat_le] at h
    have value : c.val.toNat = c.toNat := rfl
    omega
  simp [isNumeric, small, h]

end Outliner
