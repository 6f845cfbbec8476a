import Outliner.Reader
import Outliner.Cursor.Walk

set_option autoImplicit false

/-!
# Python sources

Scopes are told by indentation: a class lasts until a statement is indented no deeper than its
header. Only lines on which a statement begins are looked at, that is, lines that begin outside
strings, brackets and continuations and are neither blank nor comments. What is declared within a
function is not reported.

## Main definitions

* `Outliner.Python.Lexical` — what of the text before a line decides whether a statement begins on
  it.
* `Outliner.Python.scanLine` — the text before the first assignment sign of a line.
* `Outliner.Python.Statement` — what a statement declares.
* `Outliner.Python.marks` — the marks of a source.
-/

namespace Outliner.Python

/-! ## Lexical state -/

/-- What of the text so far decides how the rest is read. -/
structure Lexical where
  /-- The quote of the tripled-quoted string that is open. -/
  string : Option Char := none
  /-- The number of open brackets. -/
  brackets : Nat := 0
  /-- Whether the line before ended in a backslash. -/
  continued : Bool := false
deriving DecidableEq, Repr

/-- Whether a line read in this state begins a statement. -/
def Lexical.atStatement (l : Lexical) : Bool :=
  l.string.isNone && l.brackets == 0 && !l.continued

/-- The state while a line is read: the lexical state and the text before the first assignment
sign. -/
structure Scan where
  /-- The lexical state. -/
  lexical : Lexical
  /-- What stands before the first assignment sign of the statement. -/
  target : Option (List Char) := none
deriving DecidableEq, Repr

/-- Three quotes. -/
def tripled (quote : Char) : List Char := [quote, quote, quote]

/-- The characters that make another operator of an equals sign after them. -/
def operatorChars : List Char := "=!<>+-*/%&|^:@~".toList

/-- Whether the equals sign at the cursor is an operator by itself. -/
def isPlainSign (c : Cursor) : Bool :=
  !c.previous?.any operatorChars.contains && c.peekAt? 1 != some '='

/-- One step within a tripled-quoted string. -/
def stringStep (quote : Char) (s : Scan) (c : Cursor) (ch : Char) : Cursor.Step Scan Mark :=
  if ch = '\\' then { state := s, cursor := c.forward 2 }
  else match c.eat? (tripled quote) with
    | some after =>
      { state := { s with lexical := { s.lexical with string := none } }, cursor := after }
    | none => { state := s, cursor := c.next }

/-- One step outside strings. An assignment sign counts only on a line that begins a statement. -/
def codeStep (begins : Bool) (s : Scan) (c : Cursor) (ch : Char) : Cursor.Step Scan Mark :=
  if ch = '#' then { state := s, cursor := c.toEnd }
  else if ch = '"' ∨ ch = '\'' then
    match c.eat? (tripled ch) with
    | some after =>
      { state := { s with lexical := { s.lexical with string := some ch } }, cursor := after }
    | none => { state := s, cursor := (c.overQuoted ch).2 }
  else if ch = '(' ∨ ch = '[' ∨ ch = '\x7b' then
    { state := { s with lexical := { s.lexical with brackets := s.lexical.brackets + 1 } }
      cursor := c.next }
  else if ch = ')' ∨ ch = ']' ∨ ch = '\x7d' then
    { state := { s with lexical := { s.lexical with brackets := s.lexical.brackets - 1 } }
      cursor := c.next }
  else if ch = '\\' then
    if c.next.isAtEnd then
      { state := { s with lexical := { s.lexical with continued := true } }, cursor := c.next }
    else { state := s, cursor := c.forward 2 }
  else if ch = '=' then
    let isTarget := begins && isPlainSign c && s.lexical.brackets == 0 && s.target.isNone
    { state := if isTarget then { s with target := some c.consumed } else s
      cursor := c.next.eat ['='] }
  else { state := s, cursor := c.next }

/-- One step along a line. -/
def step (begins : Bool) (s : Scan) (c : Cursor) (ch : Char) : Cursor.Step Scan Mark :=
  match s.lexical.string with
  | some quote => stringStep quote s c ch
  | none => codeStep begins s c ch

/-- The lexical state after a line, and what stands before its first assignment sign if the line
begins a statement that has one. -/
def scanLine (before : Lexical) (line : List Char) : Scan :=
  (Cursor.walk (step before.atStatement) { lexical := { before with continued := false } }
    (.start line)).1

/-! ## Statements -/

/-- The reserved words. -/
def keywords : List String :=
  ["False", "None", "True", "and", "as", "assert", "async", "await", "break", "class", "continue",
    "def", "del", "elif", "else", "except", "finally", "for", "from", "global", "if", "import",
    "in", "is", "lambda", "nonlocal", "not", "or", "pass", "raise", "return", "try", "while", "with",
    "yield"]

/-- Whether the word is reserved. -/
def isKeyword (word : List Char) : Bool := keywords.contains (.ofList word)

/-- What a statement declares. The name is missing where what stands in its place is no
identifier. -/
inductive Statement where
  /-- A class. -/
  | classOf (name : Option (List Char))
  /-- A function. -/
  | function (name : Option (List Char))
  /-- A variable. -/
  | variable (name : List Char)
  /-- Nothing of interest. -/
  | other
deriving DecidableEq, Repr

/-- The identifier at the front of the text. -/
def declaredName? (text : List Char) : Option (List Char) :=
  (firstIdentifier? text).filter isIdentifier

/-- The name to which the text before an assignment sign assigns: an annotation is cut off, and so
is a keyword with its colon. -/
def assignedName (target : List Char) : List Char :=
  let text := trim target
  if text.contains ':' then
    let head := text.takeWhile (· != ':')
    let body := (text.dropWhile (· != ':')).drop 1
    if (firstIdentifier? (trimStart head)).any isKeyword then trim body else trimEnd head
  else text

/-- What a statement declares, given its text without indentation and what stands before its
assignment sign. -/
def statement (text : List Char) (target : Option (List Char)) : Statement :=
  match afterKeyword? "class".toList text with
  | some rest => .classOf (declaredName? rest)
  | none =>
    match afterKeyword? "def".toList ((afterKeyword? "async".toList text).getD text) with
    | some rest => .function (declaredName? rest)
    | none =>
      match target with
      | none => .other
      | some target =>
        let name := assignedName target
        if isIdentifier name && !isKeyword name then .variable name else .other

/-! ## Reading -/

/-- What is carried from line to line. -/
structure State where
  /-- The lexical state. -/
  lexical : Lexical := {}
  /-- The indentations of the open classes, the innermost first. -/
  classes : List Nat := []
  /-- The indentation of the function that is open. -/
  function : Option Nat := none
deriving DecidableEq, Repr

/-- The columns from one tab stop to the next. -/
def tabWidth : Nat := 8

/-- The header of a class. -/
def classHeader (name : List Char) (line : Nat) : Header where
  group := .classes
  tag := { name := .ofList name, line := line, kind := .classes }

/-- The state when a statement stands at an indentation: functions and classes not indented less are
left. -/
def settle (indent : Nat) (state : State) : State × List Mark :=
  ({ state with
      function := state.function.filter (· < indent)
      classes := state.classes.dropWhile (indent ≤ ·) },
    List.replicate (state.classes.takeWhile (indent ≤ ·)).length .leave)

/-- The state after a statement outside functions, and its marks. -/
def declare (indent line : Nat) (state : State) : Statement → State × List Mark
  | .classOf none => (state, [])
  | .classOf (some name) =>
    ({ state with classes := indent :: state.classes }, [.enter (classHeader name line)])
  | .function name =>
    ({ state with function := some indent },
      (name.map fun name =>
        .leaf (if state.classes.isEmpty then .functions else .methods) (.ofList name) line).toList)
  | .variable name => (state, [.leaf .vars (.ofList name) line])
  | .other => (state, [])

/-- The state after a line and its marks. -/
def readLine (state : State) (line : Nat) (text : List Char) : State × List Mark :=
  let scanned := scanLine state.lexical text
  let next := { state with lexical := scanned.lexical }
  let code := trimStart text
  if !state.lexical.atStatement || code.isEmpty || startsWith ['#'] code then (next, [])
  else
    let indent := indentWidth text tabWidth
    let (settled, left) := settle indent next
    if settled.function.isSome then (settled, left)
    else
      let (declared, marks) := declare indent line settled (statement code scanned.target)
      (declared, left ++ marks)

/-- The marks of a source. -/
def marks (lines : List (List Char)) : List Mark := (readLines readLine 0 {} lines).2

/-- How the kinds of a source are shown. -/
def legend : Legend :=
  [⟨.classes, "Class Definitions", 3⟩, ⟨.functions, "Function Definitions", 2⟩,
    ⟨.vars, "Global Variables", 1⟩]

end Outliner.Python
