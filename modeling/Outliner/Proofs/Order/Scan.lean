import Outliner.Scan
import Outliner.Proofs.Order.ByCharacter
import Outliner.Proofs.Order.ByLine
import Outliner.Proofs.Order.ByText

set_option autoImplicit false

/-!
# The order of the elements of a source

However late an element is filed, it stands in its group in the order of the lines.

## Main results

* `Outliner.Language.ofMarks_inOrder` — the elements of a source are in order, and no member begins
  before its class, unless the source is read as a whole.
* `Outliner.Language.scan_ordered` — the order of the elements of a source, in all languages.
-/

namespace Outliner.Language

/-- Where a source is read line by line, its document is in order.

**Proof sketch.** The marks of each reader come in the right order, and only classes are filed under
the kinds under which classes are filed. -/
lemma ofMarks_inOrder {language : Language} (hc : language ≠ c) (hcpp : language ≠ cpp)
    (lines : List (List Char)) :
    (Document.ofMarks language.legend (language.marks lines)).scope.Ascends
      ∧ (Document.ofMarks language.legend (language.marks lines)).Throughout Scope.InOrder := by
  cases language with
  | python => exact Document.ofMarks_inOrder _ Python.marks_fits Python.marks_precedes
  | c => exact absurd rfl hc
  | cpp => exact absurd rfl hcpp
  | php => exact Document.ofMarks_inOrder _ Php.marks_fits Php.marks_precedes
  | perl => exact Document.ofMarks_inOrder _ Perl.marks_fits Perl.marks_precedes
  | shell => exact Document.ofMarks_inOrder _ Shell.marks_fits Shell.marks_precedes
  | tcl => exact Document.ofMarks_inOrder _ Tcl.marks_fits Tcl.marks_precedes
  | nsis => exact Document.ofMarks_inOrder _ Nsis.marks_fits Nsis.marks_precedes
  | verilog => exact Document.ofMarks_inOrder _ Verilog.marks_fits Verilog.marks_precedes
  | systemVerilog => exact Document.ofMarks_inOrder _ Verilog.marks_fits Verilog.marks_precedes
  | css => exact Document.ofMarks_inOrder _ StyleSheet.marks_fits StyleSheet.marks_precedes
  | ess => exact Document.ofMarks_inOrder _ StyleSheet.styleMarks_fits StyleSheet.styleMarks_precedes
  | ini => exact Document.ofMarks_inOrder _ Ini.marks_fits Ini.marks_precedes
  | batch => exact Document.ofMarks_inOrder _ Batch.marks_fits Batch.marks_precedes
  | lua => exact Document.ofMarks_inOrder _ Lua.marks_fits Lua.marks_precedes
  | latex => exact Document.ofMarks_inOrder _ Latex.marks_fits Latex.marks_precedes

/-- The scope of a document that was scanned is the one that its marks make. -/
lemma scope_scan (language : Language) (lines : List String) :
    (language.scan lines).scope
      = (Document.ofMarks language.legend (language.marks (lines.map String.toList))).scope := by
  rw [scan]
  split
  · rfl
  · rfl

/-- **The elements of a source stand in the order of their lines**: in each group at the top and in
each group of a class, at any depth, the lines do not decrease. In all languages but C and C++ no
member begins before its class.

**Proof sketch.** In all languages but C and C++ the marks come in the order of their lines, and
this is kept from mark to mark (`ofMarks_inOrder`). In C and C++ the marks are sorted before they
are filed. -/
theorem scan_ordered (language : Language) (lines : List String) :
    (language.scan lines).scope.Ascends
      ∧ (language.scan lines).Throughout (fun _ members => members.Ascends)
      ∧ (language ≠ c → language ≠ cpp →
        (language.scan lines).Throughout fun line members => members.BeginsFrom line) := by
  have hthroughout : ∀ P : Nat → Scope Element → Prop,
      (Document.ofMarks language.legend (language.marks (lines.map String.toList))).Throughout P →
        (language.scan lines).Throughout P := by
    intro P h
    rwa [Document.Throughout, scope_scan]
  rw [scope_scan]
  by_cases hwhole : language = c ∨ language = cpp
  · have hascends : (Document.ofMarks language.legend
        (language.marks (lines.map String.toList))).scope.Ascends
          ∧ (Document.ofMarks language.legend
            (language.marks (lines.map String.toList))).Throughout Ascending := by
      rcases hwhole with rfl | rfl
      · exact CFamily.ofMarks_ascends _ _
      · exact CFamily.ofMarks_ascends _ _
    refine ⟨hascends.1, hthroughout _ hascends.2, fun hc hcpp => ?_⟩
    rcases hwhole with hwhole | hwhole
    · exact absurd hwhole hc
    · exact absurd hwhole hcpp
  · obtain ⟨hc, hcpp⟩ := not_or.1 hwhole
    obtain ⟨hascends, hbelow⟩ := ofMarks_inOrder hc hcpp (lines.map String.toList)
    have himp : ∀ P : Nat → Scope Element → Prop, (∀ line s, Scope.InOrder line s → P line s) →
        (language.scan lines).Throughout P :=
      fun P h => hthroughout P fun g hg e he => (hbelow g hg e he).imp h
    exact ⟨hascends, himp _ fun _ _ h => h.ascends, fun _ _ => himp _ fun _ _ h => h.beginsFrom⟩

end Outliner.Language
