import Outliner.Scan
import Outliner.Proofs.Reports.ByCharacter
import Outliner.Proofs.Reports.ByLine
import Outliner.Proofs.Reports.ByText

set_option autoImplicit false

/-!
# What holds of every outlined source

Whatever the language and whatever the source, the elements of its document lead back to the source,
form a tree of owners, and stay where they are when the source goes on.

## Main definitions

* `Outliner.Language.kindUnder` — the kind of what is filed under a kind.
* `Outliner.Language.verbatim` — the languages whose names are reported as they stand.

## Main results

* `Outliner.Language.scan_navigable` — every element begins on a line of the source, and its name
  stands there.
* `Outliner.Language.scan_owned` — every element belongs to the class that holds it, and is filed
  under its kind.
* `Outliner.Language.scan_truncated` — a source cut short gives no element that the whole one does
  not give.
-/

namespace Outliner

/-! ## Tags within classes -/

namespace Tag

/-- A tag that belongs to no class yet belongs to the innermost of its holders. -/
lemma scope_heldBy {holders : List Tag} {tag : Tag} (h : tag.scope = none) :
    (tag.heldBy holders).scope = holders.head?.map Tag.name := by
  cases holders with
  | nil => exact h
  | cons holder holders => rw [heldBy, h, Option.getD_none, List.head?_cons, Option.map_some]

end Tag

namespace Language

/-! ## From elements to marks -/

/-- The kind of what is filed under a kind. Only Perl files packages with the classes. -/
def kindUnder : Language → Kind → Kind
  | perl => Perl.kindUnder
  | _ => fun group => group

/-- The languages whose names are reported as they stand on their line. -/
def verbatim : List Language :=
  [python, c, cpp, php, perl, shell, tcl, nsis, ini, batch, lua]

/-- The elements of a document are those that the marks of its source make. -/
lemma occurrences_scan (language : Language) (lines : List String) :
    (language.scan lines).occurrences
      = (Document.ofMarks language.legend
          (language.marks (lines.map String.toList))).occurrences := by
  simp only [scan]
  split
  · rw [Document.occurrences_forgetLastClass]
  · rfl

/-- What holds of all that the marks of a source report holds of what each element was reported
as. -/
lemma exists_report {language : Language} {lines : List String} {P : Report → Prop}
    (hmarks : ∀ m ∈ language.marks (lines.map String.toList), m.All P) {o : Occurrence}
    (ho : o ∈ (language.scan lines).occurrences) : ∃ r, P r ∧ o.IsOf r := by
  rw [occurrences_scan] at ho
  obtain ⟨r, hr, hof⟩ := Document.mem_occurrences_ofMarks ho
  obtain ⟨m, hm, hr⟩ := List.mem_flatMap.1 hr
  exact ⟨r, hmarks m hm r hr, hof⟩

variable {lines : List (List Char)}

/-- The marks of a source report elements of kinds that fit their groups. -/
lemma marks_plain (language : Language) (lines : List (List Char)) :
    ∀ m ∈ language.marks lines, m.All (Report.Plain language.kindUnder) := by
  intro m hm
  cases language with
  | python => exact (Python.marks_named m hm).imp fun r hr => hr.toPlain
  | c => exact CFamily.marks_plain lines m hm
  | cpp => exact CFamily.marks_plain lines m hm
  | php => exact (Php.marks_named m hm).imp fun r hr => hr.toPlain
  | perl => exact (Perl.marks_named m hm).imp fun r hr => hr.toPlain
  | shell => exact (Shell.marks_named m hm).imp fun r hr => hr.toPlain
  | tcl => exact (Tcl.marks_named m hm).imp fun r hr => hr.toPlain
  | nsis => exact (Nsis.marks_named m hm).imp fun r hr => hr.toPlain
  | verilog => exact (Verilog.marks_placed m hm).imp fun r hr => hr.toPlain
  | systemVerilog => exact (Verilog.marks_placed m hm).imp fun r hr => hr.toPlain
  | css => exact (StyleSheet.marks_placed m hm).imp fun r hr => hr.toPlain
  | ess => exact (StyleSheet.styleMarks_placed m hm).imp fun r hr => hr.toPlain
  | ini => exact (Ini.marks_named m hm).imp fun r hr => hr.toPlain
  | batch => exact (Batch.marks_named m hm).imp fun r hr => hr.toPlain
  | lua => exact (Lua.marks_named m hm).imp fun r hr => hr.toPlain
  | latex => exact (Latex.marks_placed m hm).imp fun r hr => hr.toPlain

/-- The marks of a source in which names are kept report names that stand on their lines. -/
lemma marks_named {language : Language} (hverbatim : language ∈ verbatim)
    (hlines : ∀ line ∈ lines, '\n' ∉ line) :
    ∀ m ∈ language.marks lines, m.All (Report.Named language.kindUnder lines) := by
  cases language with
  | python => exact Python.marks_named
  | c => exact CFamily.marks_named hlines
  | cpp => exact CFamily.marks_named hlines
  | php => exact Php.marks_named
  | perl => exact Perl.marks_named
  | shell => exact Shell.marks_named
  | tcl => exact Tcl.marks_named
  | nsis => exact Nsis.marks_named
  | ini => exact Ini.marks_named
  | batch => exact Batch.marks_named
  | lua => exact Lua.marks_named
  | verilog => exact absurd hverbatim (by decide)
  | systemVerilog => exact absurd hverbatim (by decide)
  | css => exact absurd hverbatim (by decide)
  | ess => exact absurd hverbatim (by decide)
  | latex => exact absurd hverbatim (by decide)

/-- The marks of a source report elements on its lines. -/
lemma marks_placed {language : Language} (hlines : ∀ line ∈ lines, '\n' ∉ line) :
    ∀ m ∈ language.marks lines, m.All (Report.Placed language.kindUnder lines) := by
  intro m hm
  by_cases hverbatim : language ∈ verbatim
  · exact (marks_named hverbatim hlines m hm).imp fun r hr => hr.placed
  · cases language with
    | verilog => exact Verilog.marks_placed m hm
    | systemVerilog => exact Verilog.marks_placed m hm
    | css => exact StyleSheet.marks_placed m hm
    | ess => exact StyleSheet.styleMarks_placed m hm
    | latex => exact Latex.marks_placed m hm
    | _ => exact absurd (by decide) hverbatim

/-! ## Leading back to the source -/

/-- **Every element leads back to the source.** In every language, an element begins on one of the
lines of the source, if no line holds a line end. Where names are reported as they stand, the line
holds the name.

**Proof sketch.** An element was reported by a mark, and being filed in a class it keeps its name
and line. What a mark reports stands on a line of the source (`marks_placed`, `marks_named`). -/
theorem scan_navigable (language : Language) (lines : List String)
    (hlines : ∀ line ∈ lines, '\n' ∉ line.toList) :
    ∀ o ∈ (language.scan lines).occurrences, o.tag.line < lines.length
      ∧ (language ∈ verbatim →
        ∃ text, lines[o.tag.line]? = some text ∧ o.tag.name.toList <:+: text.toList) := by
  intro o ho
  have hchars : ∀ line ∈ lines.map String.toList, '\n' ∉ line := by
    simpa only [List.forall_mem_map] using hlines
  constructor
  · obtain ⟨r, hplaced, hof⟩ := exists_report (marks_placed hchars) ho
    have hline := hplaced.line
    rw [List.length_map] at hline
    rwa [hof.tag, Tag.line_heldBy]
  · intro hverbatim
    obtain ⟨r, hnamed, hof⟩ := exists_report (marks_named hverbatim hchars) ho
    obtain ⟨chars, hline, hname⟩ := hnamed.name
    rw [List.getElem?_map] at hline
    obtain ⟨text, htext, rfl⟩ := Option.map_eq_some_iff.1 hline
    rw [hof.tag, Tag.line_heldBy, Tag.name_heldBy]
    exact ⟨text, htext, hname⟩

/-- A class whose header and brace stand on different lines. -/
theorem scan_navigable_split_header :
    let lines := ["<?php class A", "\x7b public $x;", "\x7d"]
    let o : Occurrence := ⟨⟨"A", 0, .classes, none⟩, .classes, []⟩
    (∀ line ∈ lines, '\n' ∉ line.toList) ∧ o ∈ (php.scan lines).occurrences
      ∧ o.tag.line < lines.length
      ∧ (php ∈ verbatim →
        ∃ text, lines[o.tag.line]? = some text ∧ o.tag.name.toList <:+: text.toList) := by
  intro lines o
  have hlines : ∀ line ∈ lines, '\n' ∉ line.toList := by
    simp [lines]
  have ho : o ∈ (php.scan lines).occurrences := by
    decide +kernel
  exact ⟨hlines, ho, scan_navigable php lines hlines o ho⟩

/-! ## Owners -/

/-- **Every element belongs to the class that holds it, and is filed under its kind.** What no class
holds belongs to none. Only the packages of Perl are filed under another kind than their own.

**Proof sketch.** A mark reports elements that belong to no class yet (`marks_plain`), and an
element that is filed in a class, be it at once or when an open class is left, then belongs to this
one. -/
theorem scan_owned (language : Language) (lines : List String) :
    ∀ o ∈ (language.scan lines).occurrences,
      o.tag.scope = o.holders.head?.map Tag.name ∧ o.tag.kind = language.kindUnder o.group := by
  intro o ho
  obtain ⟨r, hplain, hof⟩ := exists_report (language.marks_plain _) ho
  constructor
  · rw [hof.tag]
    exact Tag.scope_heldBy hplain.scope
  · rw [hof.tag, Tag.kind_heldBy, hof.group]
    exact hplain.kind

/-- A subroutine of a package. -/
theorem scan_owned_subroutine :
    let lines := ["package A;", "sub f \x7b\x7d"]
    let o : Occurrence := ⟨⟨"f", 1, .methods, some "A"⟩, .methods, [⟨"A", 0, .packages, none⟩]⟩
    o ∈ (perl.scan lines).occurrences ∧ o.tag.scope = o.holders.head?.map Tag.name
      ∧ o.tag.kind = perl.kindUnder o.group := by
  intro lines o
  have ho : o ∈ (perl.scan lines).occurrences := by
    decide +kernel
  exact ⟨ho, scan_owned perl lines o ho⟩

/-! ## Sources cut short -/

/-- A source that goes on has the marks it had before, if it is read from its beginning on.

**Proof sketch.** A reader of lines cannot see beyond the line it reads. The style sheets are read
by selectors, and the marks of a sheet are those of its selectors one after the other. -/
lemma marks_isPrefix {language : Language} (hc : language ≠ c) (hcpp : language ≠ cpp)
    (a b : List (List Char)) : language.marks a <+: language.marks (a ++ b) := by
  have hselectors : StyleSheet.selectors a <+: StyleSheet.selectors (a ++ b) :=
    readLines_isPrefix StyleSheet.readLine _ a b
  cases language with
  | python => exact readLines_isPrefix Python.readLine _ a b
  | c => exact absurd rfl hc
  | cpp => exact absurd rfl hcpp
  | php => exact readLines_isPrefix Php.readLine _ a b
  | perl => exact readLines_isPrefix Perl.readLine _ a b
  | shell => exact eachLine_isPrefix Shell.lineMarks a b
  | tcl => exact readLines_isPrefix Tcl.readLine _ a b
  | nsis => exact readLines_isPrefix Nsis.readLine _ a b
  | verilog => exact readLines_isPrefix Verilog.readLine _ a b
  | systemVerilog => exact readLines_isPrefix Verilog.readLine _ a b
  | css =>
    obtain ⟨more, hmore⟩ := hselectors
    simp only [marks, StyleSheet.marks]
    rw [← hmore, List.flatMap_append]
    exact List.prefix_append _ _
  | ess => exact hselectors.map _
  | ini => exact eachLine_isPrefix Ini.lineMarks a b
  | batch => exact eachLine_isPrefix Batch.lineMarks a b
  | lua => exact readLines_isPrefix Lua.readLine _ a b
  | latex => exact eachLine_isPrefix Latex.lineMarks a b

/-- **A source cut short gives no element that the whole one does not give.** In every language that
is read from the beginning on, an element of the first lines is an element of all lines, with the
same tag, filed under the same kind, within the same classes, and at least as often.

**Proof sketch.** The marks of the first lines are the first marks of all lines (`marks_isPrefix`),
and the first marks of a list leave no more than all of them: what is open at the cut is filed there
in one case and later in the other, but within the same classes
(`Document.occurrences_ofMarks_subperm`). -/
theorem scan_truncated {language : Language} (hc : language ≠ c) (hcpp : language ≠ cpp)
    (a b : List String) :
    (language.scan a).occurrences.Subperm (language.scan (a ++ b)).occurrences := by
  obtain ⟨more, hmore⟩ := marks_isPrefix hc hcpp (a.map String.toList) (b.map String.toList)
  rw [occurrences_scan, occurrences_scan, List.map_append, ← hmore]
  exact Document.occurrences_ofMarks_subperm language.legend _ more

/-- A source that is cut within a class. -/
theorem scan_truncated_open_class :
    python ≠ c ∧ python ≠ cpp
      ∧ (python.scan ["class A:", "    x = 1"]).occurrences.Subperm
        (python.scan (["class A:", "    x = 1"] ++ ["    def f(self): pass"])).occurrences :=
  ⟨by decide, by decide, scan_truncated (by decide) (by decide) _ _⟩

end Language

end Outliner
