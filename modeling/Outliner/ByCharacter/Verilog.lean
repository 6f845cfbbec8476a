import Outliner.Reader
import Outliner.Cursor.Walk

set_option autoImplicit false

/-!
# Verilog and SystemVerilog sources

Design units — modules, interfaces, programs, packages and classes — begin with their keyword and a
name and last until their end keyword. Tasks and functions belong to the innermost unit, or to the
class they name in front of their own name if that class has been left already. What stands in the
body of a task or function is passed over, and so are words between braces. Text substitutions are
declared by a directive.

## Main definitions

* `Outliner.Verilog.DesignUnit`, `Outliner.Verilog.Routine` — the kinds of units and of routines.
* `Outliner.Verilog.PartialHeader` — a declaration whose name is still to come.
* `Outliner.Verilog.State` — what is carried along.
* `Outliner.Verilog.word`, `Outliner.Verilog.endHeader` — what a word and the end of a header do.
* `Outliner.Verilog.marks` — the marks of a source.
-/

namespace Outliner.Verilog

/-! ## Units and routines -/

/-- A kind of design unit. -/
inductive DesignUnit where
  /-- A module. -/
  | moduleUnit
  /-- An interface. -/
  | interfaceUnit
  /-- A program. -/
  | programUnit
  /-- A package. -/
  | packageUnit
  /-- A class. -/
  | classUnit
deriving DecidableEq, Repr

/-- The unit that begins with a word. -/
def DesignUnit.ofWord? (word : String) : Option DesignUnit :=
  match word with
  | "module" | "macromodule" => some moduleUnit
  | "interface" => some interfaceUnit
  | "program" => some programUnit
  | "package" => some packageUnit
  | "class" => some classUnit
  | _ => none

/-- The word that ends a unit. -/
def DesignUnit.endWord : DesignUnit → String
  | moduleUnit => "endmodule"
  | interfaceUnit => "endinterface"
  | programUnit => "endprogram"
  | packageUnit => "endpackage"
  | classUnit => "endclass"

/-- The kind of element that a unit is. -/
def DesignUnit.kind : DesignUnit → Kind
  | moduleUnit => .modules
  | interfaceUnit => .custom "interface"
  | programUnit => .custom "program"
  | packageUnit => .packages
  | classUnit => .classes

/-- A kind of routine. -/
inductive Routine where
  /-- A task. -/
  | task
  /-- A function. -/
  | function
deriving DecidableEq, Repr

/-- The routine that begins with a word. -/
def Routine.ofWord? (word : String) : Option Routine :=
  match word with
  | "task" => some task
  | "function" => some function
  | _ => none

/-- The word that ends the body of a routine. -/
def Routine.endWord : Routine → String
  | task => "endtask"
  | function => "endfunction"

/-- The kind of element that a routine is within a class or elsewhere. -/
def Routine.kind (inClass : Bool) : Routine → Kind
  | task => .tasks
  | function => if inClass then .methods else .functions

/-! ## State -/

/-- What a declaration declares. -/
inductive Declared where
  /-- A design unit. -/
  | designUnit (kind : DesignUnit)
  /-- A routine. A prototype has no body here; what is external is defined, and reported,
  elsewhere. -/
  | routine (kind : Routine) (isPrototype isExternal : Bool)
  /-- A text substitution. -/
  | definition
deriving DecidableEq, Repr

/-- A declaration whose header is being read. -/
structure PartialHeader where
  /-- What it declares. -/
  declared : Declared
  /-- The line on which it begins. -/
  line : Nat
  /-- The words of the header that may be its name, the last one first. -/
  words : List String := []
  /-- The word in front of the last pair of colons. -/
  owner : Option String := none
deriving DecidableEq, Repr

/-- What is carried along. -/
structure State where
  /-- Whether a block comment is open. -/
  inComment : Bool := false
  /-- The number of open braces. -/
  braces : Nat := 0
  /-- The open units, the innermost first. -/
  units : List DesignUnit := []
  /-- The routine whose body is being passed over. -/
  body : Option Routine := none
  /-- The declaration whose header is being read. -/
  header : Option PartialHeader := none
  /-- The words of the statement before a declaration. -/
  qualifiers : List String := []
deriving DecidableEq, Repr

/-! ## Declarations -/

/-- The header of a unit. -/
def unitHeader (kind : DesignUnit) (name : String) (line : Nat) : Header where
  group := kind.kind
  tag := { name := name, line := line, kind := kind.kind }
  labels := [(.tasks, "Tasks"), (.functions, "Functions")]

/-- The mark of a routine. -/
def routineMark (routine : Routine) (owner : Option String) (units : List DesignUnit)
    (name : String) (line : Nat) : Mark :=
  let free := routine.kind (units.head? == some .classUnit)
  match owner with
  | some owner => .qualified owner (routine.kind true) free name line
  | none => .leaf free name line

/-- The body that begins when a header is at its end. -/
def bodyAfter (declared : Declared) (body : Option Routine) : Option Routine :=
  match declared with
  | .routine kind false _ => some kind
  | _ => body

/-- The state when the header that is being read is at its end, and the marks of its declaration.
Its name is the last word of the header; a header without a name declares nothing, but a body may
follow it. -/
def endHeader (s : State) : State × List Mark :=
  match s.header with
  | none => (s, [])
  | some header =>
    let rest := { s with header := none, body := bodyAfter header.declared s.body }
    match header.words, header.declared with
    | [], _ => (rest, [])
    | name :: _, .definition => (rest, [.atTop .macros name header.line])
    | name :: _, .designUnit kind =>
      ({ rest with units := kind :: s.units }, [.enter (unitHeader kind name header.line)])
    | name :: _, .routine kind _ isExternal =>
      (rest, if isExternal then [] else [routineMark kind header.owner s.units name header.line])

/-- The words that are no name in a header. -/
def typeWords : List String :=
  ["automatic", "static", "virtual", "local", "protected", "void", "logic", "bit", "reg", "int",
    "integer", "byte", "shortint", "longint", "real", "string", "signed", "unsigned"]

/-- The state after a word of a header, and its marks. A unit has its name at once. -/
def headerWord (s : State) (header : PartialHeader) (word : String) : State × List Mark :=
  match header.declared with
  | .definition => endHeader { s with header := some { header with words := word :: header.words } }
  | .designUnit kind =>
    if kind = .interfaceUnit ∧ word = "class" then
      ({ s with header := some { header with declared := .designUnit .classUnit } }, [])
    else
      let words := if typeWords.contains word then header.words else word :: header.words
      let next := { s with header := some { header with words := words } }
      if words.isEmpty then (next, []) else endHeader next
  | .routine _ _ _ =>
    let words := if typeWords.contains word then header.words else word :: header.words
    ({ s with header := some { header with words := words } }, [])

/-- The state after a word outside headers and bodies, and its marks. -/
def freeWord (s : State) (line : Nat) (word : String) : State × List Mark :=
  let isQualified (qualifier : String) : Bool := s.qualifiers.contains qualifier
  match DesignUnit.ofWord? word, Routine.ofWord? word with
  | some kind, _ =>
    if isQualified "typedef" || (kind == .interfaceUnit && isQualified "virtual") then
      ({ s with qualifiers := word :: s.qualifiers }, [])
    else ({ s with header := some { declared := .designUnit kind, line := line } }, [])
  | none, some kind =>
    let isExternal := isQualified "extern"
    let isPrototype :=
      isExternal || isQualified "pure" || isQualified "import" || isQualified "export"
    let header : PartialHeader :=
      { declared := .routine kind isPrototype isExternal, line := line }
    ({ s with header := some header }, [])
  | none, none =>
    match s.units with
    | innermost :: outer =>
      if innermost.endWord = word then ({ s with units := outer }, [.leave])
      else ({ s with qualifiers := word :: s.qualifiers }, [])
    | [] => ({ s with qualifiers := word :: s.qualifiers }, [])

/-- The state after a word, and its marks. -/
def word (s : State) (line : Nat) (word : String) : State × List Mark :=
  match s.body with
  | some routine =>
    (if word = routine.endWord then { s with body := none, qualifiers := [] } else s, [])
  | none =>
    if s.braces > 0 then (s, [])
    else
      match s.header with
      | some header => headerWord s header word
      | none => freeWord s line word

/-! ## Reading -/

/-- Whether the character may begin a word. -/
def beginsWord (c : Char) : Bool := isAlphabetic c || c == '_' || c == '$'

/-- Whether the character may stand in a word. -/
def isNameChar (c : Char) : Bool := isIdentifierChar c || c == '$'

/-- Whether the character may stand in a number. -/
def isNumberChar (c : Char) : Bool := isIdentifierChar c || c == '\'' || c == '.'

/-- The state after a pair of colons: the last word of the header is an owner. -/
def qualify (s : State) : State :=
  { s with header := s.header.map fun header =>
      { header with owner := header.words.head?, words := header.words.tail } }

/-- One step at a directive. -/
def directiveStep (line : Nat) (s : State) (c : Cursor) : Cursor.Step State Mark :=
  match c.next.eat? "define".toList with
  | some after =>
    if s.body.isNone then
      { state := { s with header := some { declared := .definition, line := line } }
        cursor := after }
    else { state := s, cursor := c.next.skipWhile isIdentifierChar }
  | none => { state := s, cursor := c.next.skipWhile isIdentifierChar }

/-- One step in code. -/
def codeStep (line : Nat) (s : State) (c : Cursor) (ch : Char) : Cursor.Step State Mark :=
  if ch = '"' then { state := s, cursor := (c.overQuoted '"').2 }
  else if ch = '\x7b' then { state := { s with braces := s.braces + 1 }, cursor := c.next }
  else if ch = '\x7d' then { state := { s with braces := s.braces - 1 }, cursor := c.next }
  else if ch.toNat = 0x60 then directiveStep line s c
  else if ch = ';' ∨ ch = '(' ∨ ch = '#' then
    let (after, found) := endHeader s
    { state := if ch = ';' then { after with qualifiers := [] } else after
      cursor := c.next
      found := found }
  else if ch = ':' ∧ c.peekAt? 1 = some ':' then { state := qualify s, cursor := c.forward 2 }
  else if beginsWord ch && c.isAtWordStart then
    let (letters, rest) := c.span isNameChar
    let (after, found) := word s line (.ofList letters)
    { state := after, cursor := rest, found := found }
  else if ch.isDigit then { state := s, cursor := c.skipWhile isNumberChar }
  else { state := s, cursor := c.next }

/-- One step. -/
def step (line : Nat) (s : State) (c : Cursor) (ch : Char) : Cursor.Step State Mark :=
  if s.inComment then
    let (closed, after) := c.beyond "*/".toList
    { state := { s with inComment := !closed }, cursor := after }
  else if c.startsWith "//".toList then { state := s, cursor := c.toEnd }
  else if c.startsWith "/*".toList then
    { state := { s with inComment := true }, cursor := c.forward 2 }
  else codeStep line s c ch

/-- The state at the end of a line: a text substitution ends there. -/
def endLine (s : State) : State × List Mark :=
  if s.header.any (·.declared == .definition) then endHeader s else (s, [])

/-- The state after a line and its marks. -/
def readLine (s : State) (line : Nat) (text : List Char) : State × List Mark :=
  let (walked, found) := Cursor.walk (step line) s (.start text)
  let (ended, last) := endLine walked
  (ended, found ++ last)

/-- The marks of a source. -/
def marks (lines : List (List Char)) : List Mark := (readLines readLine 0 {} lines).2

/-- How the kinds of a source are shown. -/
def legend : Legend :=
  [⟨.macros, "Macro Definitions", 5⟩, ⟨.packages, "Packages", 4⟩, ⟨.modules, "Modules", 3⟩,
    ⟨.classes, "Class Definitions", 2⟩, ⟨.tasks, "Task Definitions", 1⟩,
    ⟨.functions, "Function Definitions", 0⟩]

end Outliner.Verilog
