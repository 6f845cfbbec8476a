import Outliner.Proofs.Names.ByCharacter
import Outliner.Proofs.Names.ByLine
import Outliner.Proofs.Names.ByText
import Outliner.Proofs.Scan

set_option autoImplicit false

/-!
# Names of the elements of a source

In all languages but C and C++ every element has a name. In these two it is missing where a function
outside all classes is qualified with the name of a class and nothing follows the colons.

## Main results

* `Outliner.Language.scan_hasNames_iff` — when all elements of a source have names.
-/

namespace Outliner.Language

/-- A source in which a method may be called by nothing. -/
def NamesNothing (language : Language) (lines : List String) : Prop :=
  (language = c ∨ language = cpp)
    ∧ CFamily.NamesNothing (Masking.mask (joinLines (lines.map String.toList)))

/-- The marks of a source report elements with names, unless a method is called by nothing. -/
lemma marks_hasName {language : Language} {lines : List String}
    (h : ¬language.NamesNothing lines) :
    ∀ m ∈ language.marks (lines.map String.toList), m.All Report.HasName := by
  cases language with
  | python => exact Python.marks_hasName
  | c => exact CFamily.marks_hasName fun hnothing => h ⟨.inl rfl, hnothing⟩
  | cpp => exact CFamily.marks_hasName fun hnothing => h ⟨.inr rfl, hnothing⟩
  | php => exact Php.marks_hasName
  | perl => exact Perl.marks_hasName
  | shell => exact Shell.marks_hasName
  | tcl => exact Tcl.marks_hasName
  | nsis => exact Nsis.marks_hasName
  | verilog => exact Verilog.marks_hasName
  | systemVerilog => exact Verilog.marks_hasName
  | css => exact StyleSheet.marks_hasName
  | ess => exact StyleSheet.styleMarks_hasName
  | ini => exact Ini.marks_hasName
  | batch => exact Batch.marks_hasName
  | lua => exact Lua.marks_hasName
  | latex => exact Latex.marks_hasName

/-- Where a method is called by nothing, a mark reports it. -/
lemma exists_leaf_of_namesNothing {language : Language} {lines : List String}
    (h : language.NamesNothing lines) :
    ∃ line, Mark.leaf .methods "" line ∈ language.marks (lines.map String.toList) := by
  obtain ⟨rfl | rfl, hnothing⟩ := h
  · exact CFamily.exists_leaf_of_namesNothing hnothing
  · exact CFamily.exists_leaf_of_namesNothing hnothing

/-- **All elements of a source have names, unless a method is called by nothing.** It is called so
in C and C++ only, where a function outside all classes has the name of a class and a pair of colons
with nothing after them.

**Proof sketch.** An element keeps the name with which it was reported. Where a method is called by
nothing it is reported so, and what is reported stays in the document. -/
theorem scan_hasNames_iff (language : Language) (lines : List String) :
    (∀ o ∈ (language.scan lines).occurrences, o.tag.name ≠ "")
      ↔ ¬language.NamesNothing lines := by
  constructor
  · intro hnames hnothing
    obtain ⟨line, hmark⟩ := exists_leaf_of_namesNothing hnothing
    obtain ⟨o, ho, hof⟩ := Document.exists_occurrence_of_leaf hmark language.legend
    rw [← occurrences_scan] at ho
    refine hnames o ho ?_
    rw [hof.tag, Tag.name_heldBy]
  · intro h o ho
    obtain ⟨r, hname, hof⟩ := exists_report (marks_hasName h) ho
    rw [hof.tag, Tag.name_heldBy]
    exact hname

/-- A method whose name is missing behind the colons. -/
theorem scan_nameless_method :
    (⟨⟨"", 2, .methods, some "A"⟩, .methods, [⟨"A", 0, .classes, none⟩]⟩ : Occurrence)
      ∈ (cpp.scan ["class A \x7b", "\x7d;", "void A::(int x) \x7b", "\x7d"]).occurrences := by
  decide +kernel

end Outliner.Language
