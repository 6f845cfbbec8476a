import Outliner.Reader
import Outliner.Cursor.Walk

set_option autoImplicit false

/-!
# Lua sources

A function is declared by the word `function` and its name, or by a name to which a function is
assigned. A name with a dot or a colon makes it a method of the class named by what precedes the
last of them. Long brackets, which hold comments or strings, may run over several lines and hide
what they hold.

## Main definitions

* `Outliner.Lua.longBracket?` — the level of a long bracket.
* `Outliner.Lua.assignsFunction?` — whether a function is assigned to the name before the cursor.
* `Outliner.Lua.marks` — the marks of a source.
-/

namespace Outliner.Lua

/-! ## Long brackets -/

/-- The level of the long bracket that opens at the cursor, that is, the number of equals signs
between its brackets, and the cursor after it. -/
def longBracket? (c : Cursor) : Option (Nat × Cursor) :=
  if c.peek? = some '[' then
    let level := (c.next.after.takeWhile (· == '=')).length
    if c.peekAt? (level + 1) = some '[' then some (level, c.forward (level + 2)) else none
  else none

/-- What closes a long bracket of a level. -/
def closing (level : Nat) : List Char := ']' :: (List.replicate level '=' ++ [']'])

/-! ## Functions -/

/-- Whether the character may stand in a name with dots and colons. -/
def isNameChar (c : Char) : Bool := isIdentifierChar c || c == '.' || c == ':'

/-- The cursor after the word `function` if the text goes on with an assignment sign and that
word. -/
def assignsFunction? (c : Cursor) : Option Cursor :=
  match trimStart c.after with
  | '=' :: value =>
    if startsWith ['='] value then none
    else
      match after? "function".toList (trimStart value) with
      | some rest =>
        if rest.head?.any isIdentifierChar then none
        else some (c.forward (c.after.length - rest.length))
      | none => none
  | _ => none

/-- Whether the character separates a class from its method. -/
def isJoint (c : Char) : Bool := c == '.' || c == ':'

/-- The marks of a function with this name. -/
def functionMarks (name : List Char) (line : Nat) : List Mark :=
  let member := (name.reverse.takeWhile (!isJoint ·)).reverse
  if name.any isJoint then
    let owner := name.take (name.length - member.length - 1)
    if owner.isEmpty || !isIdentifier member then []
    else [.method (.ofList owner) (.ofList member) line]
  else if isIdentifier name then [.leaf .functions (.ofList name) line]
  else []

/-! ## Reading -/

/-- One step outside long brackets at a name: the word `function` or a name to which one is
assigned. -/
def nameStep (line : Nat) (c : Cursor) : Cursor.Step (Option Nat) Mark :=
  let (name, after) := c.span isNameChar
  if name = "function".toList then
    let (declared, rest) := after.skipBlanks.span isNameChar
    { state := none, cursor := rest, found := functionMarks declared line }
  else
    match assignsFunction? after with
    | some rest => { state := none, cursor := rest, found := functionMarks name line }
    | none => { state := none, cursor := after }

/-- One step. The state is the level of the long bracket that is open. -/
def step (line : Nat) (state : Option Nat) (c : Cursor) (ch : Char) :
    Cursor.Step (Option Nat) Mark :=
  match state with
  | some level =>
    let (closed, after) := c.beyond (closing level)
    { state := if closed then none else some level, cursor := after }
  | none =>
    match c.eat? "--".toList with
    | some comment =>
      match longBracket? comment with
      | some (level, inside) => { state := some level, cursor := inside }
      | none => { state := none, cursor := comment.toEnd }
    | none =>
      if ch = '"' ∨ ch = '\'' then { state := none, cursor := (c.overQuoted ch).2 }
      else if ch = '[' then
        match longBracket? c with
        | some (level, inside) => { state := some level, cursor := inside }
        | none => { state := none, cursor := c.next }
      else if (isAlphabetic ch || ch == '_') && c.isAtWordStart then nameStep line c
      else { state := none, cursor := c.next }

/-- The level of the long bracket open after a line, and the marks of the line. -/
def readLine (state : Option Nat) (line : Nat) (text : List Char) : Option Nat × List Mark :=
  Cursor.walk (step line) state (.start text)

/-- The marks of a source. -/
def marks (lines : List (List Char)) : List Mark := (readLines readLine 0 none lines).2

/-- How the kinds of a source are shown. -/
def legend : Legend := [⟨.classes, "Class Definitions", 2⟩, ⟨.functions, "Function Definitions", 1⟩]

end Outliner.Lua
