import Outliner.Draft
import Outliner.Text.Line
import Outliner.ByText.Masking
import Outliner.ByText.Place
import Outliner.ByText.Signature

set_option autoImplicit false

/-!
# C and C++ sources

A source is read as a whole: its lines are joined, comments and literals masked, and definitions,
signatures and text substitutions searched for. A function whose name lies in the body of a class is
a method of the innermost such class. A function outside all classes whose name is qualified with
the name of a class is a method of the first class of that name. All other functions stand by
themselves.

## Main definitions

* `Outliner.CFamily.Body` — a class and the places of its braces.
* `Outliner.CFamily.Attribution` — where a function belongs.
* `Outliner.CFamily.Reading` — what is found in a masked text.
* `Outliner.CFamily.marks` — the marks of a source.
-/

namespace Outliner.CFamily

/-- The words that look like the name of a function but begin a statement or an expression. -/
def keywords : List String :=
  ["if", "else", "for", "while", "switch", "case", "catch", "return", "sizeof", "do"]

/-! ## Classes and functions -/

/-- A class and the places of its braces. -/
structure Body where
  /-- The name of the class. -/
  name : List Char
  /-- The line of the name. -/
  line : Nat
  /-- The place of the opening brace. -/
  opening : Nat
  /-- The place of the closing brace, or of the end of the text. -/
  closing : Nat
deriving DecidableEq, Repr

/-- Whether the place lies between the braces. -/
def Body.encloses (place : Nat) (body : Body) : Bool := body.opening < place && place < body.closing

/-- The body of a definition. -/
def Body.ofDefinition (text : List Char) (d : Definition) : Body where
  name := d.name
  line := Place.line text d.place
  opening := d.opening
  closing := Place.closing text d.opening

/-- The parts of a qualified name before and after its last pair of colons, if it has one. -/
def splitQualified? (name : List Char) : Option (List Char × List Char) :=
  (offset? "::".toList name.reverse).map fun n =>
    (name.take (name.length - n - 2), name.drop (name.length - n))

/-- Where a function belongs: to the class at a place in the list of classes, or to none, and how it
is called there. -/
structure Attribution where
  /-- The place of the class in the list of classes. -/
  owner : Option Nat
  /-- The name of the function there. -/
  name : List Char
deriving DecidableEq, Repr

/-- The place in the list of the last of the classes that enclose a place. Classes are listed in the
order of their opening braces, so this is the innermost one. -/
def innermost? (place : Nat) (bodies : List Body) : Option Nat :=
  (bodies.reverse.findIdx? (·.encloses place)).map fun n => bodies.length - 1 - n

/-- Where a function belongs. -/
def attributionOf (bodies : List Body) (signature : Signature) : Attribution :=
  match innermost? signature.place bodies with
  | some index => ⟨some index, signature.name⟩
  | none =>
    match splitQualified? signature.name with
    | none => ⟨none, signature.name⟩
    | some (owner, name) =>
      match bodies.findIdx? (·.name == owner) with
      | some index => ⟨some index, name⟩
      | none => ⟨none, signature.name⟩

/-- Whether the character is a blank within a line. -/
def isLineSpacing (c : Char) : Bool := c == ' ' || c == '\t'

/-- The text substitution that a line defines. -/
def macroName? (line : List Char) : Option (List Char) :=
  (after? ['#'] (line.dropWhile isLineSpacing)).bind fun directive =>
    (after? "define".toList (directive.dropWhile isLineSpacing)).bind fun rest =>
      if rest.head?.any isLineSpacing then leadingAsciiName? (rest.dropWhile isLineSpacing)
      else none

/-! ## Reading -/

/-- What is found in a masked text. -/
structure Reading where
  /-- The name spaces and their lines. -/
  nameSpaces : List (List Char × Nat)
  /-- The classes. -/
  bodies : List Body
  /-- The functions, with their lines. -/
  functions : List (Attribution × Nat)
  /-- The text substitutions and their lines. -/
  macros : List (List Char × Nat)

/-- What is found in a masked text. -/
def Reading.ofText (text : List Char) : Reading :=
  let definitions := Definition.all text
  let bodies := (definitions.filter (!·.isNameSpace)).map (Body.ofDefinition text)
  let signatures := (Signature.all text).filter fun s => !keywords.contains (.ofList s.name)
  { nameSpaces :=
      (definitions.filter (·.isNameSpace)).map fun d => (d.name, Place.line text d.place)
    bodies := bodies
    functions := signatures.map fun s => (attributionOf bodies s, Place.line text s.place)
    macros := ((splitLines text).mapIdx fun line content =>
      ((macroName? content).map (·, line)).toList).flatten }

/-- The leaves of the functions that belong to an owner. -/
def Reading.functionsOf (kind : Kind) (owner : Option Nat) (r : Reading) : List Mark :=
  (r.functions.filter fun f => f.1.owner == owner).map fun f => .leaf kind (.ofList f.1.name) f.2

/-- The header of a class. -/
def Body.header (body : Body) : Header where
  group := .classes
  tag := { name := .ofList body.name, line := body.line, kind := .classes }

/-- The marks of what is found: name spaces, functions by themselves, classes, text
substitutions. -/
def Reading.marks (r : Reading) : List Mark :=
  r.nameSpaces.map (fun n => .once .namespaces (.ofList n.1) n.2)
    ++ r.functionsOf .functions none
    ++ (r.bodies.mapIdx fun index body =>
        .enter body.header :: (r.functionsOf .methods (some index) ++ [.leave])).flatten
    ++ r.macros.map (fun m => .leaf .macros (.ofList m.1) m.2)

/-- The marks of a source. -/
def marks (lines : List (List Char)) : List Mark :=
  (Reading.ofText (Masking.mask (joinLines lines))).marks

/-- How the kinds of a source are shown. -/
def legend : Legend :=
  [⟨.macros, "Macros", 4⟩, ⟨.namespaces, "Namespaces", 3⟩, ⟨.classes, "Class Definitions", 2⟩,
    ⟨.functions, "Function Definitions", 1⟩]

end Outliner.CFamily
