import Outliner.Reader
import Outliner.Text.Word

set_option autoImplicit false

/-!
# Batch files

The outline of a batch file is the list of its jump targets. A target is declared by a colon at the
front of a line, up to the next blank or colon; two colons begin a comment. Only the first
declaration of a target counts.

## Main definitions

* `Outliner.Batch.label?` — the jump target that a line declares.
* `Outliner.Batch.marks` — the marks of a file.
-/

namespace Outliner.Batch

/-- The jump target that a line declares. -/
def label? (line : List Char) : Option (List Char) :=
  match trimStart line with
  | ':' :: text =>
    let name := text.takeWhile fun c => !isBlank c && c != ':'
    if name.isEmpty then none else some name
  | _ => none

/-- The marks of one line. -/
def lineMarks (line : Nat) (text : List Char) : List Mark :=
  ((label? text).map fun name => .once .labels (.ofList name) line).toList

/-- The marks of a file. -/
def marks (lines : List (List Char)) : List Mark := eachLine lineMarks lines

/-- How the kinds of a batch file are shown. -/
def legend : Legend := [⟨.labels, "Labels", 0⟩]

end Outliner.Batch
