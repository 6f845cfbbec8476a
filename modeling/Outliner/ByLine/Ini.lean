import Outliner.Reader
import Outliner.Language

set_option autoImplicit false

/-!
# Configuration files

A configuration file is a list of keys, some of them under section headers. A header is a line whose
first character is an opening bracket; its name ends at the first closing bracket. A key ends at the
first equals sign or colon. A section lasts until the next header. A header without a name or
without a closing bracket is passed over: it neither ends a section nor is it read as a key.

## Main definitions

* `Outliner.Ini.entry?` — what a line declares.
* `Outliner.Ini.marks` — the marks of a file.
-/

namespace Outliner.Ini

/-- What a line declares. -/
inductive Entry where
  /-- A section with this name. -/
  | header (name : List Char)
  /-- A key. -/
  | key (name : List Char)
deriving DecidableEq, Repr

/-- The name in a header, given the text after its opening bracket. -/
def headerName? (text : List Char) : Option (List Char) :=
  if text.contains ']' then
    let name := trim (text.takeWhile (· != ']'))
    if name.isEmpty then none else some name
  else none

/-- Whether the character separates a key from its value. -/
def isSeparator (c : Char) : Bool := c == '=' || c == ':'

/-- The key in front of the first separator. -/
def keyName? (text : List Char) : Option (List Char) :=
  if text.any isSeparator then
    let name := trim (text.takeWhile (!isSeparator ·))
    if name.isEmpty then none else some name
  else none

/-- What a line declares, if it declares something. -/
def entry? (line : List Char) : Option Entry :=
  let text := trim line
  if text.isEmpty || Language.ini.comments.isLineComment text then none
  else match text with
    | '[' :: header => (headerName? header).map .header
    | _ => (keyName? text).map .key

/-- The marks of one line. -/
def lineMarks (line : Nat) (text : List Char) : List Mark :=
  match entry? text with
  | none => []
  | some (.header name) =>
    [.leave, .enter {
      group := .sections
      tag := { name := .ofList name, line := line, kind := .sections }
      labels := [(.vars, "Keys")] }]
  | some (.key name) => [.leaf .vars (.ofList name) line]

/-- The marks of a file. -/
def marks (lines : List (List Char)) : List Mark := eachLine lineMarks lines

/-- How the kinds of a configuration file are shown. -/
def legend : Legend := [⟨.sections, "Sections", 1⟩, ⟨.vars, "Keys", 0⟩]

end Outliner.Ini
