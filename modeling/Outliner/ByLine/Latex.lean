import Outliner.Reader
import Outliner.Cursor.Walk

set_option autoImplicit false

/-!
# LaTeX documents

The outline of a document holds its parts and the macros and environments that it defines. Every
command on a line is looked at; an argument in braces that is not closed on its line runs to the
line's end. Only the first definition of a macro counts.

## Main definitions

* `Outliner.Latex.uncomment` — a line up to its comment.
* `Outliner.Latex.argument?` — an argument in braces.
* `Outliner.Latex.marks` — the marks of a document.
-/

namespace Outliner.Latex

/-- The line up to its comment, where `escaped` says whether an odd number of backslashes stands
before it. A comment begins at a percent sign that is not escaped. -/
def uncommentFrom (escaped : Bool) : List Char → List Char
  | [] => []
  | c :: line =>
    if c = '\\' then c :: uncommentFrom (!escaped) line
    else if c = '%' ∧ escaped = false then []
    else c :: uncommentFrom false line

/-- The line up to its comment. -/
def uncomment (line : List Char) : List Char := uncommentFrom false line

/-- The number of characters up to and with the bracket that closes a group, or all of them if it is
not closed. `inner` groups are open within it. A backslash takes the character after it along. -/
def groupLength (opening closing : Char) : Nat → List Char → Nat
  | _, [] => 0
  | _, ['\\'] => 1
  | inner, '\\' :: _ :: text => groupLength opening closing inner text + 2
  | inner, c :: text =>
    if c = opening then groupLength opening closing (inner + 1) text + 1
    else if c = closing then
      match inner with
      | 0 => 1
      | inner + 1 => groupLength opening closing inner text + 1
    else groupLength opening closing inner text + 1

/-- The cursor after a group whose opening bracket is consumed. -/
def pastGroup (opening closing : Char) (c : Cursor) : Cursor :=
  c.forward (groupLength opening closing 0 c.after)

/-- The words of the text with one space between them. -/
def normalized (text : List Char) : List Char := [' '].intercalate (words text)

/-- The text without a closing brace at its end. -/
def dropClosingBrace (text : List Char) : List Char :=
  if text.getLast? = some '\x7d' then text.dropLast else text

/-- The argument in braces at the cursor, if there is one, and the cursor after it. -/
def argument? (c : Cursor) : Option (List Char × Cursor) :=
  (c.eat? ['\x7b']).map fun inside =>
    let content := inside.after.take (groupLength '\x7b' '\x7d' 0 inside.after)
    (normalized (dropClosingBrace content), pastGroup '\x7b' '\x7d' inside)

/-- The commands that begin a part of the document. -/
def sectionCommands : List String := ["part", "chapter", "section", "subsection", "subsubsection"]

/-- The commands that define a macro. -/
def macroCommands : List String := ["newcommand", "renewcommand", "providecommand", "def"]

/-- An element named by the argument in braces at the cursor, and the cursor after it. -/
def named (kind : Kind) (line : Nat) (c : Cursor) : Cursor.Step Unit Mark :=
  match argument? c with
  | none => { state := (), cursor := c }
  | some (name, after) =>
    { state := (), cursor := after,
      found := if name.isEmpty then [] else [.leaf kind (.ofList name) line] }

/-- A part of the document, after its command: a star, an optional title and the title. -/
def documentPart (line : Nat) (c : Cursor) : Cursor.Step Unit Mark :=
  let starred := (c.eat ['*']).skipBlanks
  let shortened :=
    match starred.eat? ['['] with
    | some inside => pastGroup '[' ']' inside
    | none => starred
  named .sections line shortened.skipBlanks

/-- The definition of a macro, after its command: a star and the macro, perhaps in braces. -/
def definition (line : Nat) (c : Cursor) : Cursor.Step Unit Mark :=
  let starred := (c.eat ['*']).skipBlanks
  let braced := (starred.eat? ['\x7b']).isSome
  let inside := (starred.eat ['\x7b']).skipBlanks
  match inside.eat? ['\\'] with
  | none => { state := (), cursor := inside }
  | some there =>
    let (name, after) := there.span fun ch => isAlphabetic ch || ch == '@'
    { state := (), cursor := if braced then after.skipBlanks.eat ['\x7d'] else after,
      found := if name.isEmpty then [] else [.once .macros (.ofList name) line] }

/-- The kind of environments. -/
def environments : Kind := .custom "environment"

/-- Moves beyond the next backslash and over the command there. A command without letters is a
control symbol: the character after the backslash belongs to it. -/
def step (line : Nat) (_ : Unit) (c : Cursor) (_ : Char) : Cursor.Step Unit Mark :=
  match c.beyond ['\\'] with
  | (false, stop) => { state := (), cursor := stop }
  | (true, here) =>
    let (letters, after) := here.span isAlphabetic
    let command := String.ofList letters
    if letters.isEmpty then { state := (), cursor := after.next }
    else if sectionCommands.contains command then documentPart line after
    else if macroCommands.contains command then definition line after
    else if command = "newenvironment" then named environments line (after.eat ['*']).skipBlanks
    else { state := (), cursor := after }

/-- The marks of one line. -/
def lineMarks (line : Nat) (text : List Char) : List Mark :=
  (Cursor.walk (step line) () (.start (uncomment text))).2

/-- The marks of a document. -/
def marks (lines : List (List Char)) : List Mark := eachLine lineMarks lines

/-- How the kinds of a document are shown. -/
def legend : Legend :=
  [⟨.sections, "Sections", 3⟩, ⟨.macros, "Macro Definitions", 2⟩,
    ⟨environments, "Environment Definitions", 1⟩]

end Outliner.Latex
