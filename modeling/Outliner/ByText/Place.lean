set_option autoImplicit false

/-!
# Places in a text

A place is the number of characters before it. This module tells on which line a place is and where
the braces opened at a place are closed.

## Main definitions

* `Outliner.Place.line` — the line of a place.
* `Outliner.Place.closing` — the place of the brace that closes what is opened at a place.
-/

namespace Outliner.Place

/-- The line of a place, counted from zero. -/
def line (text : List Char) (place : Nat) : Nat := (text.take place).count '\n'

/-- The number of characters before the brace that closes a pair whose opening brace precedes the
text. `inner` pairs are open within it. -/
def beforeClosing? : Nat → List Char → Option Nat
  | _, [] => none
  | inner, c :: text =>
    if c = '\x7b' then (beforeClosing? (inner + 1) text).map (· + 1)
    else if c = '\x7d' then
      match inner with
      | 0 => some 0
      | inner + 1 => (beforeClosing? inner text).map (· + 1)
    else (beforeClosing? inner text).map (· + 1)

/-- The place of the brace that closes the pair opened at a place, or the end of the text if there
is none. -/
def closing (text : List Char) (opening : Nat) : Nat :=
  match beforeClosing? 0 (text.drop (opening + 1)) with
  | some n => opening + 1 + n
  | none => text.length

end Outliner.Place
