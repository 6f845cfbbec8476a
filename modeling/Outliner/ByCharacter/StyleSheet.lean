import Outliner.Reader
import Outliner.Cursor.Walk

set_option autoImplicit false

/-!
# Style sheets

A style sheet is a list of rules, each with a list of selectors and a block of declarations.
At-rules stand between the rules; the block of some of them holds rules again, that of the others is
passed over. Comments may stand anywhere, and a selector may run over several lines.

## Main definitions

* `Outliner.StyleSheet.Selector` — a selector and the line on which it begins.
* `Outliner.StyleSheet.selectors` — the selectors of all rules, in order.
* `Outliner.StyleSheet.names` — the names that a selector uses.
* `Outliner.StyleSheet.marks`, `Outliner.StyleSheet.styleMarks` — the marks of a sheet, by the names
  that its selectors use or by the selectors as a whole.
-/

namespace Outliner.StyleSheet

/-! ## Selectors -/

/-- A selector of a rule. -/
structure Selector where
  /-- The text of the selector, without blanks at its ends. -/
  text : List Char
  /-- The line on which it begins. -/
  line : Nat
deriving DecidableEq, Repr

/-- The part of a selector read so far. -/
structure Piece where
  /-- The characters, the last one first. -/
  backwards : List Char := []
  /-- The line on which it begins. -/
  line : Nat
deriving DecidableEq, Repr

/-- The selector made of a piece, unless it is blank. -/
def Piece.selector? (piece : Piece) : Option Selector :=
  let text := trim piece.backwards.reverse
  if text.isEmpty then none else some ⟨text, piece.line⟩

/-- The piece with a text at its end. -/
def Piece.append (text : List Char) (piece : Piece) : Piece :=
  { piece with backwards := text.reverse ++ piece.backwards }

/-- What a block between braces holds. -/
inductive Block where
  /-- Rules. -/
  | rules
  /-- The declarations of a rule. -/
  | declarations
  /-- Something that is passed over. -/
  | skipped
deriving DecidableEq, Repr

/-- What is carried along. -/
structure State where
  /-- Whether a comment is open. -/
  inComment : Bool := false
  /-- The open blocks, the innermost first. -/
  blocks : List Block := []
  /-- The finished selectors of the rule that is being read. -/
  list : List Selector := []
  /-- The selector that is being read. -/
  piece : Option Piece := none
  /-- Whether the block of the at-rule that is being read holds rules. -/
  atRule : Option Bool := none
deriving DecidableEq, Repr

/-- What the innermost block holds. A sheet itself holds rules. -/
def State.block (s : State) : Block := s.blocks.head?.getD .rules

/-- The state when the selector that is being read is at its end. -/
def State.endSelector (s : State) : State :=
  { s with list := s.list ++ (s.piece.bind Piece.selector?).toList, piece := none }

/-- The state when what was read turns out to be no selector list. -/
def State.dropSelectors (s : State) : State := { s with list := [], piece := none }

/-- The state with a text added to the selector that is being read, which may begin with it. -/
def State.extend (line : Nat) (text : List Char) (s : State) : State :=
  { s with piece := some ((s.piece.getD { line := line }).append text) }

/-- The at-rules whose block holds rules. -/
def groupRules : List String :=
  ["media", "supports", "document", "-moz-document", "container", "layer", "scope"]

/-- Whether the character may stand in the name of an at-rule. -/
def isRuleNameChar (c : Char) : Bool := isAlphanumeric c || c == '-' || c == '_'

/-- One step within a block that holds no rules. -/
def blockStep (s : State) (c : Cursor) (ch : Char) : Cursor.Step State Selector :=
  if ch = '"' ∨ ch = '\'' then { state := s, cursor := (c.overQuoted ch).2 }
  else if ch = '\x7b' then { state := { s with blocks := .skipped :: s.blocks }, cursor := c.next }
  else if ch = '\x7d' then { state := { s with blocks := s.blocks.tail }, cursor := c.next }
  else { state := s, cursor := c.next }

/-- One step between the name of an at-rule and its block or its end. -/
def atRuleStep (nests : Bool) (s : State) (c : Cursor) (ch : Char) : Cursor.Step State Selector :=
  if ch = '\x7b' then
    { state := { s with atRule := none, blocks := (if nests then .rules else .skipped) :: s.blocks }
      cursor := c.next }
  else if ch = ';' then { state := { s with atRule := none }, cursor := c.next }
  else if ch = '"' ∨ ch = '\'' then { state := s, cursor := (c.overQuoted ch).2 }
  else { state := s, cursor := c.next }

/-- One step among rules. -/
def ruleStep (line : Nat) (s : State) (c : Cursor) (ch : Char) : Cursor.Step State Selector :=
  if ch = '@' ∧ s.piece = none ∧ s.list = [] then
    let (name, after) := c.next.span isRuleNameChar
    { state := { s with atRule := some (groupRules.contains (.ofList (name.map Char.toLower))) }
      cursor := after }
  else if ch = '\x7b' then
    let finished := s.endSelector
    { state := { finished with list := [], blocks := .declarations :: s.blocks }, cursor := c.next
      found := finished.list }
  else if ch = '\x7d' then
    { state := { s.dropSelectors with blocks := s.blocks.tail }, cursor := c.next }
  else if ch = ';' then { state := s.dropSelectors, cursor := c.next }
  else if ch = ',' then { state := s.endSelector, cursor := c.next }
  else if ch = '"' ∨ ch = '\'' then
    let after := (c.overQuoted ch).2
    { state := s.extend line (c.after.take (c.after.length - after.after.length)), cursor := after }
  else if isBlank ch then
    { state := { s with piece := s.piece.map (·.append [ch]) }, cursor := c.next }
  else { state := s.extend line [ch], cursor := c.next }

/-- One step. -/
def step (line : Nat) (s : State) (c : Cursor) (ch : Char) : Cursor.Step State Selector :=
  if s.inComment then
    let (closed, after) := c.beyond "*/".toList
    { state := { s with inComment := !closed }, cursor := after }
  else if c.startsWith "/*".toList then
    { state := { s with inComment := true }, cursor := c.forward 2 }
  else
    match s.block, s.atRule with
    | .rules, some nests => atRuleStep nests s c ch
    | .rules, none => ruleStep line s c ch
    | _, _ => blockStep s c ch

/-- The state after a line and the selectors of the rules whose blocks begin on it. The end of a
line is a blank within a selector. -/
def readLine (s : State) (line : Nat) (text : List Char) : State × List Selector :=
  let (after, found) := Cursor.walk (step line) s (.start text)
  ({ after with piece := after.piece.map (·.append [' ']) }, found)

/-- The selectors of all rules, in order. -/
def selectors (lines : List (List Char)) : List Selector := (readLines readLine 0 {} lines).2

/-! ## The names in a selector -/

/-- Whether the character may stand in a name. -/
def isNameChar (c : Char) : Bool := isAlphanumeric c || c == '-' || c == '_' || 0x80 ≤ c.toNat

/-- The number of characters up to and with the parenthesis that closes a list of arguments, or all
of them if it is not closed. `inner` lists are open within it. -/
def argumentsLength : Nat → List Char → Nat
  | _, [] => 0
  | inner, c :: text =>
    if c = '(' then argumentsLength (inner + 1) text + 1
    else if c = ')' then
      match inner with
      | 0 => 1
      | inner + 1 => argumentsLength inner text + 1
    else argumentsLength inner text + 1

/-- The cursor after a pseudo-class or pseudo-element, with its arguments if it has some. -/
def skipPseudo (c : Cursor) : Cursor :=
  let name := (c.next.eat [':']).skipWhile isNameChar
  match name.eat? ['('] with
  | some inside => inside.forward (argumentsLength 0 inside.after)
  | none => name

/-- One step along a selector: class and id names with their signs, element names, and what is
passed over. -/
def nameStep (_ : Unit) (c : Cursor) (ch : Char) : Cursor.Step Unit (Kind × List Char) :=
  if ch = '.' ∨ ch = '#' then
    let (name, after) := c.next.span isNameChar
    { state := (), cursor := after
      found := if name.isEmpty then [] else [(if ch = '.' then .styles else .ids, ch :: name)] }
  else if ch = ':' then { state := (), cursor := skipPseudo c }
  else if ch = '[' then { state := (), cursor := (c.beyond [']']).2 }
  else if isAlphabetic ch || ch == '_' then
    let (name, after) := c.span isNameChar
    { state := (), cursor := after, found := [(.tags, name)] }
  else { state := (), cursor := c.next }

/-- The names that a selector uses, in order, each with its kind. -/
def names (selector : List Char) : List (Kind × List Char) :=
  (Cursor.walk nameStep () (.start selector)).2

/-! ## Marks -/

/-- The marks of a sheet whose selectors use names: each name once. -/
def marks (lines : List (List Char)) : List Mark :=
  (selectors lines).flatMap fun selector =>
    (names selector.text).map fun (kind, name) => .once kind (.ofList name) selector.line

/-- The marks of a sheet whose selectors are names themselves: each selector once. -/
def styleMarks (lines : List (List Char)) : List Mark :=
  (selectors lines).map fun selector => .once .styles (.ofList selector.text) selector.line

/-- How the kinds of names are shown. -/
def legend : Legend :=
  [⟨.tags, "Tags", 1⟩, ⟨.styles, "Class Selectors", 2⟩, ⟨.ids, "Identifiers", 3⟩]

/-- How selectors that are names themselves are shown. -/
def styleLegend : Legend := [⟨.styles, "Style Tags", 0⟩]

end Outliner.StyleSheet
