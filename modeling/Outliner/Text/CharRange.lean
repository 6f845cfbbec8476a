set_option autoImplicit false

/-!
# Ranges of characters

A character class of the Unicode standard is a union of ranges of code points. A class is written
here as the list of its ranges, and a character belongs to it when one of the ranges holds it.

## Main definitions

* `Outliner.CharRange` — an inclusive range of code points.
* `Outliner.CharRange.holds` — whether one of several ranges holds a character.
-/

namespace Outliner

/-- The code points from `first` to `last`, both included. -/
structure CharRange where
  /-- The least code point of the range. -/
  first : Nat
  /-- The greatest code point of the range. -/
  last : Nat

/-- Whether the range holds the character. -/
def CharRange.contains (range : CharRange) (c : Char) : Bool :=
  range.first ≤ c.toNat && c.toNat ≤ range.last

/-- Whether one of the ranges holds the character. -/
def CharRange.holds (ranges : List CharRange) (c : Char) : Bool :=
  ranges.any (·.contains c)

/-- A character is held if its code point lies in one of the ranges. -/
theorem CharRange.holds_iff {ranges : List CharRange} {c : Char} :
    CharRange.holds ranges c = true ↔ ∃ r ∈ ranges, r.first ≤ c.toNat ∧ c.toNat ≤ r.last := by
  simp [CharRange.holds, CharRange.contains]

end Outliner
