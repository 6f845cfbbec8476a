import Outliner.Reader
import Outliner.Cursor.Walk
import Outliner.Language

set_option autoImplicit false

/-!
# Tcl scripts

Procedures are declared by `proc` at the front of a line. A name space or a class begins on the line
that names it and lasts until the braces are balanced again as they were before that line;
procedures within belong to it, and so do the methods of a class.

## Main definitions

* `Outliner.Tcl.bracesAfter` — the number of open braces after a line.
* `Outliner.Tcl.Command` — what a line declares.
* `Outliner.Tcl.marks` — the marks of a script.
-/

namespace Outliner.Tcl

/-! ## Braces -/

/-- The number of open braces after the next character. A backslash takes the character after it
along, and a quoted literal counts as a whole. -/
def braceStep (depth : Nat) (c : Cursor) (ch : Char) : Cursor.Step Nat Mark :=
  if ch = '\\' then { state := depth, cursor := c.forward 2 }
  else if ch = '"' then { state := depth, cursor := (c.next.toClosingQuote '"').2 }
  else if ch = '\x7b' then { state := depth + 1, cursor := c.next }
  else if ch = '\x7d' then { state := depth - 1, cursor := c.next }
  else { state := depth, cursor := c.next }

/-- The number of open braces after a line, given the number before it. -/
def bracesAfter (before : Nat) (line : List Char) : Nat :=
  (Cursor.walk braceStep before (.start line)).1

/-! ## Commands -/

/-- What a line declares. -/
inductive Command where
  /-- A procedure. -/
  | procedure (name : List Char)
  /-- A method of a class. -/
  | method (name : List Char)
  /-- A name space. -/
  | nameSpace (name : List Char)
  /-- A class. -/
  | classOf (name : List Char)
  /-- Nothing of interest. -/
  | other
deriving DecidableEq, Repr

/-- The word at the front of the text: it ends at a blank, a brace or a semicolon. -/
def leadingWord (text : List Char) : List Char :=
  text.takeWhile fun c => !(isBlank c || c == '\x7b' || c == '\x7d' || c == ';')

/-- The word after two keywords, if it is not empty. -/
def wordAfter? (first second : String) (text : List Char) : Option (List Char) :=
  ((afterKeyword? first.toList text).bind (afterKeyword? second.toList)).bind fun rest =>
    let word := leadingWord rest
    if word.isEmpty then none else some word

/-- What a line declares, its leading blanks removed. -/
def command (text : List Char) : Command :=
  match afterKeyword? "proc".toList text with
  | some rest => .procedure (leadingWord rest)
  | none =>
    match afterKeyword? "method".toList text with
    | some rest => .method (leadingWord rest)
    | none =>
      match wordAfter? "namespace" "eval" text with
      | some name => .nameSpace name
      | none =>
        match wordAfter? "oo::class" "create" text with
        | some name => .classOf name
        | none => .other

/-! ## Reading -/

/-- A name space or class that is open: the number of open braces before it began, and whether it is
a class. -/
structure Frame where
  /-- The number of open braces before the line on which it began. -/
  braces : Nat
  /-- Whether it is a class. -/
  isClass : Bool
deriving DecidableEq, Repr

/-- What is carried from line to line. -/
structure State where
  /-- The number of open braces. -/
  braces : Nat := 0
  /-- What is open, the innermost first. -/
  frames : List Frame := []
deriving DecidableEq, Repr

/-- The header of a name space. -/
def nameSpaceHeader (name : List Char) (line : Nat) : Header where
  group := .namespaces
  tag := { name := .ofList name, line := line, kind := .namespaces }
  labels := [(.procedures, "Procedures")]

/-- The header of a class. -/
def classHeader (name : List Char) (line : Nat) : Header where
  group := .classes
  tag := { name := .ofList name, line := line, kind := .classes }

/-- The state after a command and its marks. -/
def declare (state : State) (line : Nat) : Command → State × List Mark
  | .procedure name => (state, if name.isEmpty then [] else [.leaf .procedures (.ofList name) line])
  | .method name =>
    (state,
      if state.frames.head?.any Frame.isClass && !name.isEmpty then
        [.leaf .methods (.ofList name) line]
      else [])
  | .nameSpace name =>
    ({ state with frames := ⟨state.braces, false⟩ :: state.frames },
      [.enter (nameSpaceHeader name line)])
  | .classOf name =>
    ({ state with frames := ⟨state.braces, true⟩ :: state.frames },
      [.enter (classHeader name line)])
  | .other => (state, [])

/-- The state when the given number of braces is open: what began with as many or more open is
left. -/
def settle (braces : Nat) (state : State) : State × List Mark :=
  ({ braces := braces, frames := state.frames.dropWhile (braces ≤ ·.braces) },
    List.replicate (state.frames.takeWhile (braces ≤ ·.braces)).length .leave)

/-- The state after a line and its marks. -/
def readLine (state : State) (line : Nat) (text : List Char) : State × List Mark :=
  let code := trimStart text
  if code.isEmpty || Language.tcl.comments.isLineComment code then (state, [])
  else
    let declared := declare state line (command code)
    let settled := settle (bracesAfter declared.1.braces text) declared.1
    (settled.1, declared.2 ++ settled.2)

/-- The marks of a script. -/
def marks (lines : List (List Char)) : List Mark := (readLines readLine 0 {} lines).2

/-- How the kinds of a script are shown. -/
def legend : Legend :=
  [⟨.namespaces, "Namespaces", 3⟩, ⟨.classes, "Class Definitions", 2⟩,
    ⟨.procedures, "Procedure Definitions", 1⟩]

end Outliner.Tcl
