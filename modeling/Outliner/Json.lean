set_option autoImplicit false

/-!
# JSON values

JSON values and the way they are written for reading: every entry on a line of its own, two spaces
of indentation for each level, fields in the order given, an empty array or object on one line.

## Main definitions

* `Outliner.Json` — values. Numbers are integers.
* `Outliner.Json.quote` — a text as a string literal.
* `Outliner.Json.pretty` — a value over several lines.
-/

namespace Outliner

/-- A JSON value. -/
inductive Json where
  /-- An integer. -/
  | number (value : Int)
  /-- A string. -/
  | text (value : String)
  /-- An array. -/
  | array (items : List Json)
  /-- An object, with its fields in the order in which they are written. -/
  | object (fields : List (String × Json))

namespace Json

/-- The hexadecimal digit of a value below sixteen. -/
def hexDigit (n : Nat) : Char := n.digitChar

/-- A character within a string literal. Quote, backslash and control characters are escaped; all
other characters stand for themselves. -/
def escape (c : Char) : List Char :=
  if c = '"' then ['\\', '"']
  else if c = '\\' then ['\\', '\\']
  else if c = '\n' then ['\\', 'n']
  else if c = '\r' then ['\\', 'r']
  else if c = '\t' then ['\\', 't']
  else if c = '\x08' then ['\\', 'b']
  else if c = '\x0c' then ['\\', 'f']
  else if c.toNat < 0x20 then
    ['\\', 'u', '0', '0', hexDigit (c.toNat / 16), hexDigit (c.toNat % 16)]
  else [c]

/-- A text as a string literal. -/
def quote (s : String) : String :=
  String.ofList ('"' :: s.toList.flatMap escape ++ ['"'])

/-- The start of a line at a depth of nesting. -/
def lineStart (depth : Nat) : String :=
  String.ofList ('\n' :: List.replicate (2 * depth) ' ')

/-- Entries between brackets at a depth of nesting, each on a line of its own and one level further
in. -/
def bracketed (opening closing : String) (depth : Nat) (entries : List String) : String :=
  if entries.isEmpty then opening ++ closing
  else
    opening ++ ",".intercalate (entries.map (lineStart (depth + 1) ++ ·)) ++ lineStart depth
      ++ closing

mutual

/-- A value as it is written at a depth of nesting. -/
def prettyAt (depth : Nat) : Json → String
  | number value => toString value
  | text value => quote value
  | array items => bracketed "[" "]" depth (prettyItems (depth + 1) items)
  | object fields => bracketed "\x7b" "\x7d" depth (prettyFields (depth + 1) fields)

/-- The items of an array as they are written. -/
def prettyItems (depth : Nat) : List Json → List String
  | [] => []
  | item :: items => item.prettyAt depth :: prettyItems depth items

/-- The fields of an object as they are written. -/
def prettyFields (depth : Nat) : List (String × Json) → List String
  | [] => []
  | (name, value) :: fields =>
    (quote name ++ ": " ++ value.prettyAt depth) :: prettyFields depth fields

end

/-- A value over several lines, without an end of line after the last one. -/
def pretty (json : Json) : String := json.prettyAt 0

end Json

end Outliner
