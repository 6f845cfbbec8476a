import Outliner.Text.Word

set_option autoImplicit false

/-!
# Definitions with a body

A definition is one of the words `class`, `struct`, `union` and `namespace`, blanks, a name,
anything up to the opening brace of its body that holds none of the characters `;{}()=`, and that
brace. The word may follow any character but one that words are made of. Definitions are searched
for from left to right, each after the opening brace of the one before it.

## Main definitions

* `Outliner.Definition` — a definition and its places in the text.
* `Outliner.Definition.all` — the definitions in a text.
-/

namespace Outliner

/-- Whether the character is a blank between the words of a definition or a declaration. -/
def isSpacing (c : Char) : Bool := c == ' ' || c == '\t' || c == '\r' || c == '\n'

/-- Whether the character may begin a name of ASCII letters. -/
def beginsAsciiName (c : Char) : Bool := c.isAlpha || c == '_'

/-- Whether the character may stand in a name of ASCII letters, digits and underscores. -/
def isAsciiNameChar (c : Char) : Bool := c.isAlphanum || c == '_'

/-- The name of ASCII characters at the front of the text, if there is one. -/
def leadingAsciiName? (text : List Char) : Option (List Char) :=
  if text.head?.any beginsAsciiName then some (text.takeWhile isAsciiNameChar) else none

/-- A definition that has a body. -/
structure Definition where
  /-- Whether a name space is defined. -/
  isNameSpace : Bool
  /-- The name. -/
  name : List Char
  /-- The place of the name. -/
  place : Nat
  /-- The place of the opening brace. -/
  opening : Nat
deriving DecidableEq, Repr

namespace Definition

/-- The words that begin a definition. -/
def keywords : List String := ["class", "struct", "union", "namespace"]

/-- Whether the character ends the search for the opening brace. -/
def endsHead (c : Char) : Bool := [';', '\x7b', '\x7d', '(', ')', '='].contains c

/-- The definition that begins with a keyword at the front of the text, which is at the given
place. -/
def withKeyword? (place : Nat) (text : List Char) (keyword : String) : Option Definition :=
  (after? keyword.toList text).bind fun spaced =>
    let named := spaced.dropWhile isSpacing
    if named.length = spaced.length then none
    else
      (leadingAsciiName? named).bind fun name =>
        let body := (named.drop name.length).dropWhile (!endsHead ·)
        if body.head? = some '\x7b' then
          some {
            isNameSpace := keyword == "namespace"
            name := name
            place := place + (text.length - named.length)
            opening := place + (text.length - body.length) }
        else none

/-- The definition at the front of the text, which is at the given place. -/
def atFront? (place : Nat) (text : List Char) : Option Definition :=
  keywords.findSome? (withKeyword? place text)

/-- The definitions in the text, which is at the given place and follows the character `before`. -/
def allFrom (before : Option Char) (place : Nat) : List Char → List Definition
  | [] => []
  | c :: text =>
    match if before.any isWordChar then none else atFront? place (c :: text) with
    | some found =>
      found :: allFrom (some '\x7b') (found.opening + 1) (text.drop (found.opening - place))
    | none => allFrom (some c) (place + 1) text
termination_by text => text.length
decreasing_by
  · simp only [List.length_drop, List.length_cons]
    omega
  · simp

/-- The definitions in a text. -/
def all (text : List Char) : List Definition := allFrom none 0 text

end Definition

end Outliner
