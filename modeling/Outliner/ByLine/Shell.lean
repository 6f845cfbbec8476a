import Outliner.Reader
import Outliner.Language

set_option autoImplicit false

/-!
# Shell scripts

A function is declared by the word `function` and its name, or by its name and an empty pair of
parentheses. Only the first declaration of a function counts.

## Main definitions

* `Outliner.Shell.functionName?` — the function that a line declares.
* `Outliner.Shell.marks` — the marks of a script.
-/

namespace Outliner.Shell

/-- The reserved words, which name no function. -/
def keywords : List String :=
  ["if", "then", "else", "elif", "fi", "for", "while", "until", "do", "done", "case", "esac",
    "select", "in"]

/-- Whether the character may stand in the name of a function. -/
def isNameChar (c : Char) : Bool := isIdentifierChar c || c == '-' || c == '.' || c == ':'

/-- The characters of a name at the front of the text. -/
def leadingName (text : List Char) : List Char := text.takeWhile isNameChar

/-- Whether the text begins with an empty pair of parentheses, blanks aside. -/
def startsWithParentheses (text : List Char) : Bool :=
  match trimStart text with
  | '(' :: inside => startsWith [')'] (trimStart inside)
  | _ => false

/-- The name that a line gives in the place where a declaration has one. -/
def declaredName (text : List Char) : List Char :=
  match afterKeyword? "function".toList text with
  | some rest => leadingName rest
  | none =>
    if startsWithParentheses (text.dropWhile isNameChar) then leadingName text else []

/-- The function that a line declares. -/
def functionName? (line : List Char) : Option (List Char) :=
  let text := trimStart line
  if text.isEmpty || Language.shell.comments.isLineComment text then none
  else
    let name := declaredName text
    if name.isEmpty || keywords.contains (.ofList name) || startsWith ['-'] name then none
    else some name

/-- The marks of one line. -/
def lineMarks (line : Nat) (text : List Char) : List Mark :=
  ((functionName? text).map fun name => .once .functions (.ofList name) line).toList

/-- The marks of a script. -/
def marks (lines : List (List Char)) : List Mark := eachLine lineMarks lines

/-- How the kinds of a script are shown. -/
def legend : Legend := [⟨.functions, "Function Definitions", 0⟩]

end Outliner.Shell
