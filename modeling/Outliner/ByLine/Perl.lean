import Outliner.Reader
import Outliner.Language
import Outliner.Text.Piece

set_option autoImplicit false

/-!
# Perl sources

A `package` statement begins a package, which lasts until the next one; the package `main` is the
top of the source. Subroutines and the variables of `our` belong to the package they are declared
in. Documentation embedded between lines that begin with an equals sign is passed over, and nothing
is read after an end marker.

## Main definitions

* `Outliner.Perl.Mode` — what the next line is part of.
* `Outliner.Perl.Statement` — what a line of code declares.
* `Outliner.Perl.marks` — the marks of a source.
-/

namespace Outliner.Perl

/-- What a line is part of. -/
inductive Mode where
  /-- Code. -/
  | code
  /-- Embedded documentation. -/
  | documentation
  /-- The data after the end of the code. -/
  | ended
deriving DecidableEq, Repr

/-- What is carried from line to line. -/
structure State where
  /-- What the next line is part of. -/
  mode : Mode := .code
  /-- Whether a package other than `main` was begun. -/
  inPackage : Bool := false
deriving DecidableEq, Repr

/-- What a line of code declares. -/
inductive Statement where
  /-- The beginning of a package. -/
  | package (name : List Char)
  /-- A subroutine. -/
  | subroutine (name : List Char)
  /-- Variables of the package, with their sigils. -/
  | vars (names : List (List Char))
  /-- Nothing of interest. -/
  | other
deriving DecidableEq, Repr

/-- Whether the character separates the parts of a qualified name. -/
def isJoint (c : Char) : Bool := c == ':' || c == '\''

/-- The qualified name at the front of the text, without separators at its end. -/
def leadingQualifiedName (text : List Char) : List Char :=
  ((text.takeWhile fun c => isIdentifierChar c || isJoint c).reverse.dropWhile isJoint).reverse

/-- Whether the character stands between the variables of a list. -/
def separatesVariables (c : Char) : Bool := isBlank c || c == ',' || c == '(' || c == ')'

/-- Whether the text is a variable: a sigil, then a letter or an underscore, then more of a
qualified name. -/
def isVariable : List Char → Bool
  | sigil :: first :: rest =>
    (sigil == '$' || sigil == '@' || sigil == '%') && (isAlphabetic first || first == '_')
      && (first :: rest).all fun c => isIdentifierChar c || c == ':'
  | _ => false

/-- The variables listed before the first equals sign or semicolon. -/
def listedVariables (text : List Char) : List (List Char) :=
  (pieces separatesVariables (text.takeWhile fun c => c != '=' && c != ';')).filter isVariable

/-- What a line of code declares, its leading blanks removed. -/
def statement (text : List Char) : Statement :=
  match afterKeyword? "package".toList text with
  | some rest => .package (leadingQualifiedName rest)
  | none =>
    match afterKeyword? "sub".toList text with
    | some rest => .subroutine (leadingQualifiedName rest)
    | none =>
      match afterKeyword? "our".toList text with
      | some rest => .vars (listedVariables rest)
      | none => .other

/-- Whether the line begins embedded documentation: an equals sign and a letter at its very
front. -/
def beginsDocumentation : List Char → Bool
  | '=' :: c :: _ => c.isAlpha
  | _ => false

/-- Whether the line ends embedded documentation. -/
def endsDocumentation (line : List Char) : Bool := startsWith "=cut".toList line

/-- Whether the code ends before the line, its leading blanks removed. -/
def isEndMarker (text : List Char) : Bool :=
  startsWith "__END__".toList text || startsWith "__DATA__".toList text

/-- The header of a package. -/
def packageHeader (name : List Char) (line : Nat) : Header where
  group := .classes
  tag := { name := .ofList name, line := line, kind := .packages }
  labels := [(.methods, "Subroutines"), (.vars, "Package Variables")]

/-- The state after a statement and its marks. -/
def declare (state : State) (line : Nat) : Statement → State × List Mark
  | .package name =>
    if name = "main".toList then ({ state with inPackage := false }, [.leave, .forget])
    else if name.isEmpty then (state, [])
    else ({ state with inPackage := true }, [.leave, .enter (packageHeader name line)])
  | .subroutine name =>
    if name.isEmpty then (state, [])
    else (state, [.leaf (if state.inPackage then .methods else .functions) (.ofList name) line])
  | .vars names => (state, names.map fun name => .leaf .vars (.ofList name) line)
  | .other => (state, [])

/-- The state after a line and its marks. -/
def readLine (state : State) (line : Nat) (text : List Char) : State × List Mark :=
  match state.mode with
  | .ended => (state, [])
  | .documentation =>
    (if endsDocumentation text then { state with mode := .code } else state, [])
  | .code =>
    if beginsDocumentation text then ({ state with mode := .documentation }, [])
    else
      let code := trimStart text
      if isEndMarker code then ({ state with mode := .ended }, [])
      else if code.isEmpty || Language.perl.comments.isLineComment code then (state, [])
      else declare state line (statement code)

/-- The marks of a source. -/
def marks (lines : List (List Char)) : List Mark := (readLines readLine 0 {} lines).2

/-- How the kinds of a source are shown. -/
def legend : Legend :=
  [⟨.classes, "Packages", 3⟩, ⟨.functions, "Subroutines", 2⟩, ⟨.vars, "Package Variables", 1⟩]

end Outliner.Perl
