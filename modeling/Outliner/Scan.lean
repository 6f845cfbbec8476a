import Outliner.ByLine.Batch
import Outliner.ByLine.Ini
import Outliner.ByLine.Latex
import Outliner.ByLine.Nsis
import Outliner.ByLine.Perl
import Outliner.ByLine.Shell
import Outliner.ByLine.Tcl
import Outliner.ByCharacter.Lua
import Outliner.ByCharacter.Php
import Outliner.ByCharacter.Python
import Outliner.ByCharacter.StyleSheet
import Outliner.ByCharacter.Verilog
import Outliner.ByText.CFamily
import Outliner.Language

set_option autoImplicit false

/-!
# Outlining a source

Every language has a way to read marks off the lines of a source and a legend for its kinds.
Dialects share them. The document of a source is what its marks make.

## Main definitions

* `Outliner.Language.marks`, `Outliner.Language.legend` — how a language is read and shown.
* `Outliner.Language.scan`, `Outliner.Language.scanText` — the document of a source, given as lines
  or as one text.
-/

namespace Outliner.Language

/-- The marks of a source. -/
def marks : Language → List (List Char) → List Mark
  | python => Python.marks
  | c | cpp => CFamily.marks
  | php => Php.marks
  | perl => Perl.marks
  | shell => Shell.marks
  | tcl => Tcl.marks
  | nsis => Nsis.marks
  | verilog | systemVerilog => Verilog.marks
  | css => StyleSheet.marks
  | ess => StyleSheet.styleMarks
  | ini => Ini.marks
  | batch => Batch.marks
  | lua => Lua.marks
  | latex => Latex.marks

/-- How the kinds of a source are shown. -/
def legend : Language → Legend
  | python => Python.legend
  | c | cpp => CFamily.legend
  | php => Php.legend
  | perl => Perl.legend
  | shell => Shell.legend
  | tcl => Tcl.legend
  | nsis => Nsis.legend
  | verilog | systemVerilog => Verilog.legend
  | css => StyleSheet.legend
  | ess => StyleSheet.styleLegend
  | ini => Ini.legend
  | batch => Batch.legend
  | lua => Lua.legend
  | latex => Latex.legend

/-- Whether no class counts as the last one at the end of a source: where members are told apart by
the places of braces or units, none goes on after the end. -/
def forgetsAtEnd : Language → Bool
  | c | cpp | verilog | systemVerilog => true
  | _ => false

/-- The document of a source given as a list of lines. A line may hold any characters, also ends of
lines. -/
def scan (language : Language) (lines : List String) : Document :=
  let document := Document.ofMarks language.legend (language.marks (lines.map String.toList))
  if language.forgetsAtEnd then document.forgetLastClass else document

/-- Lines made of characters consist of these characters. -/
theorem map_toList_ofList (lines : List (List Char)) :
    (lines.map String.ofList).map String.toList = lines := by
  simp [Function.comp_def]

/-- The document of a source given as one text. -/
def scanText (language : Language) (text : String) : Document :=
  language.scan ((splitLines text.toList).map String.ofList)

end Outliner.Language
