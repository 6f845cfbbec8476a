import Outliner.Text.Piece

set_option autoImplicit false

/-!
# File paths

A path is a list of parts with slashes between them. Empty parts and parts that stand for the
directory they are in lead nowhere and are passed over.

## Main definitions

* `Outliner.Path.parts` — the parts that lead somewhere.
* `Outliner.Path.extension?` — the extension of the file at the end of a path.
-/

namespace Outliner.Path

/-- The parts of a path that lead somewhere. -/
def parts (path : List Char) : List (List Char) :=
  (pieces (· == '/') path).filter fun piece => !piece.isEmpty && piece != ['.']

/-- What follows the last dot of a file name, unless nothing precedes that dot. -/
def nameExtension? (name : List Char) : Option (List Char) :=
  match name.reverse.dropWhile (· != '.') with
  | _ :: _ :: _ => some (name.reverse.takeWhile (· != '.')).reverse
  | _ => none

/-- The extension of a path is that of its last part; the way to the parent directory has none. -/
def extension? (path : List Char) : Option (List Char) :=
  match (parts path).getLast? with
  | some name => if name = ['.', '.'] then none else nameExtension? name
  | none => none

end Outliner.Path
