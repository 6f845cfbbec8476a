import Outliner.Text.Word

set_option autoImplicit false

/-!
# A cursor on a line

A cursor splits a line in two: the characters already consumed and the rest. It only moves forward,
by whole characters, so it always stands at the end of a character and never beyond the end of the
line. Every move is made with `Cursor.forward`, and what holds of it holds of all of them.

## Main definitions

* `Outliner.Cursor` — a place on a line.
* `Outliner.Cursor.position` — the place, in bytes.
* `Outliner.Cursor.forward` — the move by a number of characters.
* `Outliner.Cursor.eat?`, `Outliner.Cursor.span`, `Outliner.Cursor.beyond`,
  `Outliner.Cursor.overQuoted` — moves over a pattern, over the characters of a class, beyond a
  pattern and over a quoted literal.

## Main results

* `Outliner.Cursor.line_forward` — moving does not change the line.
* `Outliner.Cursor.position_le_forward` — no move goes back.
-/

namespace Outliner

/-- A place on a line: the characters before it, the nearest one first, and the characters after
it. -/
structure Cursor where
  /-- The characters already consumed, the last one first. -/
  before : List Char
  /-- The characters still to come. -/
  after : List Char
deriving DecidableEq, Repr

namespace Cursor

/-! ## Looking -/

/-- The cursor at the start of a line. -/
def start (line : List Char) : Cursor := ⟨[], line⟩

/-- The characters already consumed. -/
def consumed (c : Cursor) : List Char := c.before.reverse

/-- The whole line. -/
def line (c : Cursor) : List Char := c.consumed ++ c.after

/-- The number of bytes already consumed. -/
def position (c : Cursor) : Nat := byteLength c.before

/-- Whether the whole line is consumed. -/
def isAtEnd (c : Cursor) : Bool := c.after.isEmpty

/-- The next character. -/
def peek? (c : Cursor) : Option Char := c.after.head?

/-- The character `n` places after the next one. -/
def peekAt? (n : Nat) (c : Cursor) : Option Char := c.after[n]?

/-- The character just consumed. -/
def previous? (c : Cursor) : Option Char := c.before.head?

/-- Whether the rest begins with the pattern. -/
def startsWith (pattern : List Char) (c : Cursor) : Bool := Outliner.startsWith pattern c.after

/-- Whether the word stands alone at the cursor. -/
def startsWithWord (word : List Char) (c : Cursor) : Bool := isWordBetween c.previous? word c.after

/-- Whether a word may begin at the cursor: no identifier character stands before it. -/
def isAtWordStart (c : Cursor) : Bool := !c.previous?.any isIdentifierChar

/-! ## Moving -/

/-- The cursor `n` characters further on, or at the end if fewer are left. -/
def forward (n : Nat) (c : Cursor) : Cursor :=
  ⟨(c.after.take n).reverse ++ c.before, c.after.drop n⟩

/-- The cursor after the next character. -/
def next (c : Cursor) : Cursor := c.forward 1

/-- The cursor at the end of the line. -/
def toEnd (c : Cursor) : Cursor := c.forward c.after.length

/-- The cursor after the pattern, if the rest begins with it. -/
def eat? (pattern : List Char) (c : Cursor) : Option Cursor :=
  if c.startsWith pattern then some (c.forward pattern.length) else none

/-- The cursor after the pattern if the rest begins with it, and unmoved otherwise. -/
def eat (pattern : List Char) (c : Cursor) : Cursor := (c.eat? pattern).getD c

/-- The longest run of characters of the class at the cursor, and the cursor after it. -/
def span (p : Char → Bool) (c : Cursor) : List Char × Cursor :=
  (c.after.takeWhile p, c.forward (c.after.takeWhile p).length)

/-- The cursor after the characters of the class. -/
def skipWhile (p : Char → Bool) (c : Cursor) : Cursor := (c.span p).2

/-- The cursor after the blanks. -/
def skipBlanks (c : Cursor) : Cursor := c.skipWhile isBlank

/-- The identifier characters at the cursor, and the cursor after them. -/
def identifier (c : Cursor) : List Char × Cursor := c.span isIdentifierChar

/-- Moves beyond the next occurrence of the pattern and says whether there was one; if not, to the
end. -/
def beyond (pattern : List Char) (c : Cursor) : Bool × Cursor :=
  match offset? pattern c.after with
  | some n => (true, c.forward (n + pattern.length))
  | none => (false, c.toEnd)

/-- The number of characters up to and with the closing quote, if there is one. A backslash takes
the character after it along. -/
def quotedLength? (quote : Char) : List Char → Option Nat
  | [] => none
  | ['\\'] => none
  | '\\' :: _ :: text => (quotedLength? quote text).map (· + 2)
  | c :: text => if c = quote then some 1 else (quotedLength? quote text).map (· + 1)

/-- Moves after the closing quote of a literal whose opening quote is consumed and says whether
there was one; if not, to the end. -/
def toClosingQuote (quote : Char) (c : Cursor) : Bool × Cursor :=
  match quotedLength? quote c.after with
  | some n => (true, c.forward n)
  | none => (false, c.toEnd)

/-- Moves over a quoted literal that begins at the cursor and says whether it is closed. Where no
quote stands at the cursor it stays. -/
def overQuoted (quote : Char) (c : Cursor) : Bool × Cursor :=
  if c.peek? = some quote then c.next.toClosingQuote quote else (false, c)

/-! ## What a move keeps -/

/-- A cursor at the start stands in the line for which it was made. -/
@[simp] theorem line_start (line : List Char) : (start line).line = line := rfl

/-- Going forward leaves so many characters behind. -/
theorem after_forward (n : Nat) (c : Cursor) : (c.forward n).after = c.after.drop n := rfl

/-- Going forward does not change the line. -/
@[simp] theorem line_forward (n : Nat) (c : Cursor) : (c.forward n).line = c.line := by
  simp [line, consumed, forward]

/-- Going forward moves on by the bytes of the characters that are left behind. -/
theorem position_forward (n : Nat) (c : Cursor) :
    (c.forward n).position = c.position + byteLength (c.after.take n) := by
  simp [position, forward, byteLength_append, byteLength_reverse, Nat.add_comm]

/-- Going forward does not go back. -/
theorem position_le_forward (n : Nat) (c : Cursor) : c.position ≤ (c.forward n).position := by
  simp [position_forward]

/-- A cursor is at the end if nothing is after it. -/
theorem isAtEnd_iff {c : Cursor} : c.isAtEnd = true ↔ c.after = [] := by
  simp [isAtEnd]

/-- Going forward makes what is after the cursor shorter by so many characters. -/
theorem length_after_forward (n : Nat) (c : Cursor) :
    (c.forward n).after.length = c.after.length - n := by
  simp [forward]

end Cursor

end Outliner
