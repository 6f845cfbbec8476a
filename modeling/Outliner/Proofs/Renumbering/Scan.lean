import Outliner.Scan
import Outliner.Proofs.Renumbering.ByCharacter
import Outliner.Proofs.Renumbering.ByLine
import Outliner.Proofs.Renumbering.ByText

set_option autoImplicit false

/-!
# Empty lines before a source

Where a source stands in its file does not matter: empty lines before it add to its line numbers,
and that is all they do.

## Main results

* `Outliner.Language.marks_shift` — the marks of a source after empty lines.
* `Outliner.Language.scan_shift` — its document.
-/

namespace Outliner.Language

/-- Empty lines before a source move its marks, whatever the language. -/
theorem marks_shift (language : Language) (k : Nat) (lines : List (List Char)) :
    language.marks (List.replicate k [] ++ lines)
      = (language.marks lines).map (Mark.renumber (· + k)) := by
  cases language with
  | python => exact Python.marks_shift k lines
  | c => exact CFamily.marks_shift k lines
  | cpp => exact CFamily.marks_shift k lines
  | php => exact Php.marks_shift k lines
  | perl => exact Perl.marks_shift k lines
  | shell => exact Shell.marks_shift k lines
  | tcl => exact Tcl.marks_shift k lines
  | nsis => exact Nsis.marks_shift k lines
  | verilog => exact Verilog.marks_shift k lines
  | systemVerilog => exact Verilog.marks_shift k lines
  | css => exact StyleSheet.marks_shift k lines
  | ess => exact StyleSheet.styleMarks_shift k lines
  | ini => exact Ini.marks_shift k lines
  | batch => exact Batch.marks_shift k lines
  | lua => exact Lua.marks_shift k lines
  | latex => exact Latex.marks_shift k lines

/-- **Empty lines before a source move its document**: the same elements in the same groups, with
the number of empty lines added to each line. -/
theorem scan_shift (language : Language) (k : Nat) (lines : List String) :
    language.scan (List.replicate k "" ++ lines) = (language.scan lines).renumber (· + k) := by
  have hlines : (List.replicate k "" ++ lines).map String.toList
      = List.replicate k [] ++ lines.map String.toList := by
    rw [List.map_append, List.map_replicate]
    rfl
  rw [scan, hlines, marks_shift, Document.ofMarks_renumber, scan]
  split
  · rw [Document.renumber_forgetLastClass]
  · rfl

end Outliner.Language
