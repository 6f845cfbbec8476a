set_option autoImplicit false

/-!
# Reading bytes as UTF-8

A byte sequence is read as UTF-8 text without ever failing. Where it is not well formed, the longest
piece that could still have begun a character is read as one replacement character U+FFFD, and
reading goes on after that piece; a byte that can begin no character is such a piece by itself.

## Main definitions

* `Outliner.Utf8.Shape` — what the first byte of a character says about the bytes after it.
* `Outliner.Utf8.decode` — the text that a byte sequence holds.
-/

namespace Outliner.Utf8

/-- What the first byte of a character says: the bits that it gives to the code point, and for each
byte that has to follow the least and the greatest value allowed there. -/
structure Shape where
  /-- The bits of the code point held by the first byte. -/
  bits : Nat
  /-- For each byte that follows, the range it lies in. -/
  following : List (Nat × Nat)

/-- The shape announced by a first byte, if a character can begin with it. The narrower ranges of
the second byte shut out overlong forms, surrogates and values beyond the last code point. -/
def Shape.ofFirst? (byte : Nat) : Option Shape :=
  let anyByte := (0x80, 0xBF)
  if byte < 0x80 then some ⟨byte, []⟩
  else if byte < 0xC2 then none
  else if byte < 0xE0 then some ⟨byte % 0x20, [anyByte]⟩
  else if byte = 0xE0 then some ⟨0, [(0xA0, 0xBF), anyByte]⟩
  else if byte = 0xED then some ⟨0xD, [(0x80, 0x9F), anyByte]⟩
  else if byte < 0xF0 then some ⟨byte % 0x10, [anyByte, anyByte]⟩
  else if byte = 0xF0 then some ⟨0, [(0x90, 0xBF), anyByte, anyByte]⟩
  else if byte < 0xF4 then some ⟨byte % 8, [anyByte, anyByte, anyByte]⟩
  else if byte = 0xF4 then some ⟨4, [(0x80, 0x8F), anyByte, anyByte]⟩
  else none

/-- Reads the bytes that have to follow, six bits from each. Gives the code point, or nothing where
a byte is missing or out of its range, and the bytes not read. -/
def readFollowing : List (Nat × Nat) → Nat → List UInt8 → Option Nat × List UInt8
  | [], value, bytes => (some value, bytes)
  | _ :: _, _, [] => (none, [])
  | (least, greatest) :: ranges, value, byte :: bytes =>
    if least ≤ byte.toNat ∧ byte.toNat ≤ greatest then
      readFollowing ranges (value * 0x40 + byte.toNat % 0x40) bytes
    else (none, byte :: bytes)

/-- Reading the bytes of a character takes none that are not there. -/
theorem length_readFollowing_le (ranges : List (Nat × Nat)) (value : Nat) (bytes : List UInt8) :
    (readFollowing ranges value bytes).2.length ≤ bytes.length := by
  induction ranges generalizing value bytes with
  | nil => simp [readFollowing]
  | cons range ranges ih =>
    cases bytes with
    | nil => simp [readFollowing]
    | cons byte bytes =>
      simp only [readFollowing]
      split
      · exact Nat.le_succ_of_le (ih _ _)
      · simp

/-- The replacement character, which stands for bytes that form no character. -/
def replacement : Char := '\ufffd'

/-- The text held by the bytes. -/
def decode : List UInt8 → List Char
  | [] => []
  | byte :: bytes =>
    match Shape.ofFirst? byte.toNat with
    | none => replacement :: decode bytes
    | some shape =>
      ((readFollowing shape.following shape.bits bytes).1.map Char.ofNat).getD replacement
        :: decode (readFollowing shape.following shape.bits bytes).2
termination_by bytes => bytes.length
decreasing_by
  · simp
  · have := length_readFollowing_le shape.following shape.bits bytes
    simp only [List.length_cons]
    omega

end Outliner.Utf8
