set_option autoImplicit false

/-!
# Lines of a text

A line feed ends a line; a carriage return just before it belongs to the line's end and not to the
line. The last line need not be ended. A carriage return anywhere else is an ordinary character.

## Main definitions

* `Outliner.splitLines` — the lines of a text.
* `Outliner.joinLines` — the lines written one after the other, each ended by a line feed.
-/

namespace Outliner

/-- The lines of a text, where `current` holds the characters of the line being read, the last one
first. -/
def splitLinesFrom (current : List Char) : List Char → List (List Char)
  | [] => if current.isEmpty then [] else [current.reverse]
  | c :: text =>
    if c = '\n' then
      (match current with
        | '\r' :: line => line.reverse
        | line => line.reverse) :: splitLinesFrom [] text
    else splitLinesFrom (c :: current) text

/-- The lines of a text, without their ends. -/
def splitLines (text : List Char) : List (List Char) :=
  splitLinesFrom [] text

/-- The lines one after the other, each ended by a line feed. -/
def joinLines (lines : List (List Char)) : List Char :=
  lines.flatMap (· ++ ['\n'])

end Outliner
