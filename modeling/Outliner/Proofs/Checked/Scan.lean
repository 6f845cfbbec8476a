import Outliner.Proofs.Checked.ByCharacter
import Outliner.Proofs.Checked.ByLine
import Outliner.Proofs.Checked.ByText
import Outliner.Proofs.Checked.Filing
import Outliner.Scan

set_option autoImplicit false

/-!
# Outlining with checks

A program that outlines a source and checks what it does gives the outline of every source, of any
language and with any characters on its lines. It never cuts a line, a name or a masked text behind
its end or within a character, never takes a number from a smaller one, and repeats no pass that
leaves as much to do as there was before.

## Main definitions

* `Outliner.Language.runMarks`, `Outliner.Language.run` — the program.

## Main results

* `Outliner.Language.run_eq_scan` — the program gives the outline of every source.
-/

namespace Outliner.Language

open Checked

/-- The marks of a source. In a batch file nothing is cut or counted down. -/
def runMarks : Language → List (List Char) → Run (List Mark)
  | python => Python.run
  | c | cpp => CFamily.run
  | php => Php.run
  | perl => Perl.run
  | shell => Shell.run
  | tcl => Tcl.run
  | nsis => Nsis.run
  | verilog | systemVerilog => Verilog.run
  | css => StyleSheet.run
  | ess => StyleSheet.runStyles
  | ini => Ini.run
  | batch => fun lines => return Batch.marks lines
  | lua => Lua.run
  | latex => Latex.run

/-- The document of a source. -/
def run (language : Language) (lines : List String) : Run Document := do
  let marks ← language.runMarks (lines.map String.toList)
  let document ← Document.runMarks language.legend marks
  return if language.forgetsAtEnd then document.forgetLastClass else document

/-- Each language is read without anything going wrong, and its marks are those of the source. -/
lemma runMarks_eq (language : Language) (lines : List (List Char)) :
    language.runMarks lines = .ok (language.marks lines) := by
  cases language with
  | python => exact Python.run_eq lines
  | c => exact CFamily.run_eq lines
  | cpp => exact CFamily.run_eq lines
  | php => exact Php.run_eq lines
  | perl => exact Perl.run_eq lines
  | shell => exact Shell.run_eq lines
  | tcl => exact Tcl.run_eq lines
  | nsis => exact Nsis.run_eq lines
  | verilog => exact Verilog.run_eq lines
  | systemVerilog => exact Verilog.run_eq lines
  | css => exact StyleSheet.run_eq lines
  | ess => exact StyleSheet.runStyles_eq lines
  | ini => exact Ini.run_eq lines
  | batch => rfl
  | lua => exact Lua.run_eq lines
  | latex => exact Latex.run_eq lines

/-- **The program gives the outline of every source.** An outcome other than a fault means that
every text was cut at an offset within it and on a character boundary, that no number was taken from
a smaller one, and that each pass of a loop left less to do than there was before it.

**Proof sketch.** The reader of each language gives the marks of the source, and the filing of marks
the document that they make. -/
theorem run_eq_scan (language : Language) (lines : List String) :
    language.run lines = .ok (language.scan lines) := by
  rw [run, runMarks_eq, ok_bind, Document.runMarks_eq, ok_bind, scan]
  rfl

end Outliner.Language
