import Outliner.Reader
import Outliner.Cursor.Walk

set_option autoImplicit false

/-!
# PHP sources

Only the text between the opening and the closing tags of PHP is read. A class, or what is like one,
begins with the first opening brace after its header and ends with the brace that closes it.
Functions directly in its body are its methods, and a line that begins there with a modifier may
declare a property. Functions elsewhere outside classes are functions by themselves; within the
methods of a class they are passed over.

## Main definitions

* `Outliner.Php.State` — what is carried along.
* `Outliner.Php.propertyName?` — the property that a line declares.
* `Outliner.Php.marks` — the marks of a source.
-/

namespace Outliner.Php

/-- What the text at the cursor is part of. -/
inductive Mode where
  /-- Text outside the tags. -/
  | page
  /-- Code. -/
  | code
  /-- A block comment. -/
  | comment
  /-- A literal in these quotes. -/
  | quoted (quote : Char)
deriving DecidableEq, Repr

/-- What is carried along. -/
structure State where
  /-- What the text is part of. -/
  mode : Mode := .page
  /-- The number of open braces. -/
  braces : Nat := 0
  /-- The number of braces that were open before the brace of the class that is open. -/
  classBraces : Option Nat := none
  /-- The name and the line of a class header that waits for its brace. -/
  pending : Option (List Char × Nat) := none
deriving DecidableEq, Repr

/-- Whether the text is directly in the body of a class. -/
def State.atMemberLevel (s : State) : Bool := s.classBraces.any fun braces => s.braces == braces + 1

/-! ## Properties -/

/-- The words that may begin the declaration of a property. -/
def modifiers : List String := ["public", "protected", "private", "var", "static", "readonly"]

/-- Whether the text holds a word that declares something else than a property. -/
def declaresOther (head : List Char) : Bool :=
  (words head).any fun word => word == "function".toList || word == "const".toList

/-- The property that a line declares: it begins with a modifier and goes on to a name after a
dollar sign, before any parenthesis, equals sign or semicolon. -/
def propertyName? (line : List Char) : Option (List Char) :=
  let text := trimStart line
  let head := text.takeWhile fun c => c != '(' && c != '=' && c != ';'
  if !((words text).head?.any fun word => modifiers.contains (.ofList word)) then none
  else if declaresOther head || !head.contains '$' then none
  else
    let name := ((head.dropWhile (· != '$')).drop 1).takeWhile isIdentifierChar
    if isIdentifier name then some name else none

/-! ## Words of the code -/

/-- The words that begin the header of a class. -/
def classKeywords : List String := ["class", "interface", "trait", "enum"]

/-- The identifier at the cursor, if it is one, and the cursor after its characters. -/
def identifierAt (c : Cursor) : Option (List Char) × Cursor :=
  let (name, after) := c.identifier
  (if isIdentifier name then some name else none, after)

/-- The header of a class. -/
def classHeader (name : List Char) (line : Nat) : Header where
  group := .classes
  tag := { name := .ofList name, line := line, kind := .classes }

/-- The marks of a function. -/
def functionMarks (s : State) (name : List Char) (line : Nat) : List Mark :=
  if s.classBraces.isSome then
    if s.atMemberLevel then [.leaf .methods (.ofList name) line] else []
  else [.leaf .functions (.ofList name) line]

/-- One step at a word. A word counts where a blank follows it, and where it is not part of a
variable or of an access to a member. -/
def wordStep (line : Nat) (s : State) (c : Cursor) : Cursor.Step State Mark :=
  let (word, after) := c.identifier
  let isMember := c.previous?.any fun before => before == '$' || before == ':' || before == '>'
  if isMember || !after.peek?.any isBlank then { state := s, cursor := after }
  else if classKeywords.contains (.ofList word) then
    match identifierAt after.skipBlanks with
    | (some name, rest) => { state := { s with pending := some (name, line) }, cursor := rest }
    | (none, rest) => { state := s, cursor := rest }
  else if word = "function".toList then
    match identifierAt (after.skipBlanks.eat ['&']) with
    | (some name, rest) => { state := s, cursor := rest, found := functionMarks s name line }
    | (none, rest) => { state := s, cursor := rest }
  else if word = "namespace".toList ∧ s.braces = 0 then
    let (name, rest) := after.skipBlanks.span fun c => isIdentifierChar c || c == '\\'
    { state := s, cursor := rest,
      found := if name.isEmpty then [] else [.leaf .namespaces (.ofList name) line] }
  else { state := s, cursor := after }

/-! ## Code -/

/-- An opening brace: a header that waits for it begins a class, unless a class is open. -/
def openBrace (s : State) : State × List Mark :=
  match s.pending, s.classBraces with
  | some (name, line), none =>
    ({ s with pending := none, classBraces := some s.braces, braces := s.braces + 1 },
      [.enter (classHeader name line)])
  | _, _ => ({ s with pending := none, braces := s.braces + 1 }, [])

/-- A closing brace: it may end the class that is open. -/
def closeBrace (s : State) : State × List Mark :=
  let braces := s.braces - 1
  if s.classBraces = some braces then
    ({ s with braces := braces, classBraces := none }, [.leave, .forget])
  else ({ s with braces := braces }, [])

/-- The cursor at the closing tag, or else at the end of the line. -/
def toClosingTag (c : Cursor) : Cursor :=
  match offset? "?>".toList c.after with
  | some n => c.forward n
  | none => c.toEnd

/-- One step in code. -/
def codeStep (line : Nat) (s : State) (c : Cursor) (ch : Char) : Cursor.Step State Mark :=
  if c.startsWith "?>".toList then { state := { s with mode := .page }, cursor := c.forward 2 }
  else if c.startsWith "/*".toList then
    { state := { s with mode := .comment }, cursor := c.forward 2 }
  else if c.startsWith "#[".toList then { state := s, cursor := c.forward 2 }
  else if c.startsWith "//".toList || ch == '#' then { state := s, cursor := toClosingTag c }
  else if ch = '"' ∨ ch = '\'' ∨ ch.toNat = 0x60 then
    { state := { s with mode := .quoted ch }, cursor := c.next }
  else if ch = '\x7b' then
    { state := (openBrace s).1, cursor := c.next, found := (openBrace s).2 }
  else if ch = '\x7d' then
    { state := (closeBrace s).1, cursor := c.next, found := (closeBrace s).2 }
  else if ch = ';' then { state := { s with pending := none }, cursor := c.next }
  else if isIdentifierChar ch && c.isAtWordStart then wordStep line s c
  else { state := s, cursor := c.next }

/-- One step. -/
def step (line : Nat) (s : State) (c : Cursor) (ch : Char) : Cursor.Step State Mark :=
  match s.mode with
  | .page =>
    let (opened, inside) := c.beyond "<?".toList
    if opened then
      { state := { s with mode := .code }, cursor := (inside.eat "php".toList).eat ['='] }
    else { state := s, cursor := inside }
  | .comment =>
    let (closed, after) := c.beyond "*/".toList
    { state := if closed then { s with mode := .code } else s, cursor := after }
  | .quoted quote =>
    let (closed, after) := c.toClosingQuote quote
    { state := if closed then { s with mode := .code } else s, cursor := after }
  | .code => codeStep line s c ch

/-- The mark of the property that a line declares, if it begins in the body of a class. -/
def propertyMarks (s : State) (line : Nat) (text : List Char) : List Mark :=
  if s.mode = .code ∧ s.atMemberLevel = true then
    ((propertyName? text).map fun name => .leaf .vars (.ofList name) line).toList
  else []

/-- The state after a line and its marks. -/
def readLine (s : State) (line : Nat) (text : List Char) : State × List Mark :=
  let walked := Cursor.walk (step line) s (.start text)
  (walked.1, propertyMarks s line text ++ walked.2)

/-- The marks of a source. -/
def marks (lines : List (List Char)) : List Mark := (readLines readLine 0 {} lines).2

/-- How the kinds of a source are shown. -/
def legend : Legend :=
  [⟨.namespaces, "Namespaces", 3⟩, ⟨.classes, "Class Definitions", 2⟩,
    ⟨.functions, "Function Definitions", 1⟩]

end Outliner.Php
