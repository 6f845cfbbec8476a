import Outliner.Reader
import Outliner.Language

set_option autoImplicit false

/-!
# Installer scripts

Functions, sections and macros of an installer script are declared by a keyword at the front of a
line, whatever the case of its letters, and named by an argument. Arguments may be quoted. A block
comment is seen where it begins a line or what follows the end of an earlier comment on that line.

## Main definitions

* `Outliner.Nsis.uncomment` — the code of a line and whether a comment stays open.
* `Outliner.Nsis.arguments` — the arguments in a text.
* `Outliner.Nsis.marks` — the marks of a script.
-/

namespace Outliner.Nsis

/-! ## Comments -/

/-- The text after the first end of a block comment, without its leading blanks. -/
def afterComment? (text : List Char) : Option (List Char) :=
  (afterFirst? "*/".toList text).map trimStart

/-- The code of a line outside block comments, without its leading blanks, or nothing if a comment
is open at the end of the line. `inComment` says whether one is open at its beginning. -/
def uncomment (inComment : Bool) (line : List Char) : Option (List Char) :=
  let text := trimStart line
  let code? := if inComment then afterComment? text else some text
  code?.bind fun code => if startsWith "/*".toList code then afterComment? code else some code

/-! ## Arguments -/

/-- Whether the character begins a quoted argument, which it also ends. -/
def isQuote (c : Char) : Bool := c == '"' || c == '\'' || c.toNat == 0x60

/-- Whether the character begins a comment between arguments. -/
def beginsComment (c : Char) : Bool := c == ';' || c == '#'

/-- The arguments in a text, without their quotes. Empty arguments are passed over. -/
def arguments : List Char → List (List Char)
  | [] => []
  | c :: text =>
    if isBlank c then arguments text
    else if beginsComment c then []
    else if isQuote c then
      let argument := text.takeWhile (· != c)
      let others := arguments ((text.dropWhile (· != c)).drop 1)
      if argument.isEmpty then others else argument :: others
    else (c :: text.takeWhile (!isBlank ·)) :: arguments (text.dropWhile (!isBlank ·))
termination_by text => text.length
decreasing_by
  · simp
  · have := length_dropWhile_le (· != c) text
    simp only [List.length_drop, List.length_cons]
    omega
  · have := length_dropWhile_le (!isBlank ·) text
    simp only [List.length_cons]
    omega

/-! ## Declarations -/

/-- What follows the keyword and the blanks after it, if the text begins with the keyword as a word
in small letters or capitals. -/
def afterKeywordAnyCase? (keyword : String) (text : List Char) : Option (List Char) :=
  (afterKeyword? keyword.toList (text.map Char.toLower)).map fun rest =>
    text.drop (text.length - rest.length)

/-- The kind and the name that a line of code declares. -/
def declaration? (code : List Char) : Option (Kind × List Char) :=
  match afterKeywordAnyCase? "function" code with
  | some rest => (arguments rest).head?.map (.functions, ·)
  | none =>
    match (afterKeywordAnyCase? "section" code).or (afterKeywordAnyCase? "sectiongroup" code) with
    | some rest => ((arguments rest).find? (!startsWith ['/'] ·)).map (.sections, ·)
    | none =>
      match afterKeywordAnyCase? "!macro" code with
      | some rest => (arguments rest).head?.map (.macros, ·)
      | none => none

/-- Whether a block comment is open after a line, and the marks of the line. -/
def readLine (inComment : Bool) (line : Nat) (text : List Char) : Bool × List Mark :=
  match uncomment inComment text with
  | none => (true, [])
  | some code =>
    if code.isEmpty || Language.nsis.comments.isLineComment code then (false, [])
    else
      (false, ((declaration? code).map fun (kind, name) => .leaf kind (.ofList name) line).toList)

/-- The marks of a script. -/
def marks (lines : List (List Char)) : List Mark := (readLines readLine 0 false lines).2

/-- How the kinds of a script are shown. -/
def legend : Legend :=
  [⟨.sections, "Section Definitions", 3⟩, ⟨.functions, "Function Definitions", 2⟩,
    ⟨.macros, "Macro Definitions", 1⟩]

end Outliner.Nsis
