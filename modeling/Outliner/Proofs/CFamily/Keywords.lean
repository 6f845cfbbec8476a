import Outliner.Proofs.Names.ByText
import Outliner.Proofs.Scan

set_option autoImplicit false

/-!
# Statements taken for functions

A statement such as `if` with a block behind its parentheses looks like a function with a body.
Functions with such names are passed over. But names may hold colons, so the label of a statement,
or the last part of a name, is read as part of the name where no blank stands between, and the whole
is no longer the name of a statement. Other functions are never taken for one.

## Main definitions

* `Outliner.CFamily.IsStatement` — a name is that of a statement.
* `Outliner.CFamily.LabelsStatement` — a name in a text ends in a colon and that of a statement.

## Main results

* `Outliner.Language.scan_keywords_iff` — when no statement is taken for a function.
-/

namespace Outliner

namespace CFamily

/-! ## The last part of a name -/

/-- What follows the last colon of a name, or all of it if it has none. -/
def lastPart (name : List Char) : List Char := (name.reverse.takeWhile (· != ':')).reverse

/-- What stands in front of a colon does not belong to the last part. -/
lemma lastPart_append (label word : List Char) :
    lastPart (label ++ ':' :: word) = lastPart word := by
  rw [lastPart, lastPart, List.reverse_append, List.reverse_cons, List.append_assoc,
    List.takeWhile_append]
  split
  · next hall =>
    rw [(List.takeWhile_sublist _).eq_of_length hall]
    simp
  · rfl

/-- A name without colons is its own last part. -/
lemma lastPart_of_not_mem {name : List Char} (h : ':' ∉ name) : lastPart name = name := by
  have hall : name.reverse.takeWhile (· != ':') = name.reverse := by
    rw [List.takeWhile_eq_self_iff]
    intro c hc
    rw [bne_iff_ne]
    rintro rfl
    exact h (List.mem_reverse.1 hc)
  rw [lastPart, hall, List.reverse_reverse]

/-! ## Names of statements -/

/-- The name, or its last part, is a word that begins a statement. -/
def IsStatement (name : String) : Prop :=
  name ∈ keywords ∨ .ofList (lastPart name.toList) ∈ keywords

/-- A signature in the text has a name that ends in a colon and a word that begins a statement. -/
def LabelsStatement (text : List Char) : Prop :=
  ∃ s ∈ Signature.all text, ':' ∈ s.name ∧ .ofList (lastPart s.name) ∈ keywords

instance (name : String) : Decidable (IsStatement name) := inferInstanceAs (Decidable (_ ∨ _))

instance (text : List Char) : Decidable (LabelsStatement text) :=
  inferInstanceAs (Decidable (∃ s ∈ Signature.all text, _))

/-- The words that begin a statement have no colons. -/
lemma colon_not_mem_keyword : ∀ word ∈ keywords, ':' ∉ word.toList := by decide

/-- A name is that of a statement if its last part is. -/
lemma isStatement_iff {name : String} :
    IsStatement name ↔ .ofList (lastPart name.toList) ∈ keywords := by
  refine ⟨fun h => h.elim (fun hname => ?_) id, .inr⟩
  rw [lastPart_of_not_mem (colon_not_mem_keyword name hname), String.ofList_toList]
  exact hname

/-- A function keeps the last part of its name, wherever it belongs. -/
lemma lastPart_attributionOf (bodies : List Body) (s : Signature) :
    lastPart (attributionOf bodies s).name = lastPart s.name := by
  unfold attributionOf
  split
  · rfl
  · split
    · rfl
    · next owner name hsplit =>
      split
      · have hname := (splitQualified?_eq_some_iff.1 hsplit).1
        rw [hname, lastPart_append, ← List.nil_append (':' :: name), lastPart_append]
      · rfl

/-- What is reported as a function is called by no word that begins a statement, unless a name in
the text ends in a colon and one.

**Proof sketch.** Only functions are in question. The name of a function is no keyword as a whole.
Its last part is the whole name, unless there is a colon in it, and this is what is excluded. -/
lemma marks_not_isStatement {lines : List (List Char)}
    (h : ¬LabelsStatement (Masking.mask (joinLines lines))) :
    ∀ m ∈ marks lines, m.All fun r =>
      r.tag.kind = .functions ∨ r.tag.kind = .methods → ¬IsStatement r.tag.name := by
  refine Reading.marks_all (fun n _ hkind => ?_) (fun f hf kind _ => ?_) (fun body _ hkind => ?_)
    (fun m _ hkind => ?_)
  · simp at hkind
  · obtain ⟨s, hs, rfl⟩ := List.mem_map.1 hf
    obtain ⟨hsignature, hname⟩ := List.mem_filter.1 hs
    rw [isStatement_iff, String.toList_ofList, lastPart_attributionOf]
    intro hword
    by_cases hcolon : ':' ∈ s.name
    · exact h ⟨s, hsignature, hcolon, hword⟩
    · rw [lastPart_of_not_mem hcolon] at hword
      simp [hword] at hname
  · simp at hkind
  · simp at hkind

/-- A signature whose name ends in a colon and a word that begins a statement is reported.

**Proof sketch.** A name with a colon is no keyword, so the signature is kept as a function, and it
is reported under the last part of its name. -/
lemma exists_leaf_of_labelsStatement {lines : List (List Char)}
    (h : LabelsStatement (Masking.mask (joinLines lines))) :
    ∃ kind name line, (kind = .functions ∨ kind = .methods) ∧ IsStatement name
      ∧ Mark.leaf kind name line ∈ marks lines := by
  obtain ⟨s, hs, hcolon, hword⟩ := h
  have hother : keywords.contains (.ofList s.name) = false := by
    rw [List.contains_eq_mem, decide_eq_false_iff_not]
    intro hkeyword
    refine colon_not_mem_keyword _ hkeyword ?_
    rwa [String.toList_ofList]
  refine ⟨_, _, _, ?_, ?_, Reading.mem_marks_of_function (mem_functions hs hother)
    fun index => attributionOf_lt⟩
  · split
    · exact .inl rfl
    · exact .inr rfl
  · rwa [isStatement_iff, String.toList_ofList, lastPart_attributionOf]

end CFamily

namespace Language

/-- **No statement is taken for a function or a method, unless a name ends in a colon and a word
that begins a statement.** The word alone is passed over. Behind a label or a pair of colons it is
the last part of a longer name, and that name is reported.

**Proof sketch.** A function is reported by its name or by what follows the last pair of colons, so
the last part of the name is kept. Where the name has no colon the last part is all of it, and such
names are passed over. -/
theorem scan_keywords_iff {language : Language} (hlanguage : language = c ∨ language = cpp)
    (lines : List String) :
    (∀ o ∈ (language.scan lines).occurrences,
        o.tag.kind = .functions ∨ o.tag.kind = .methods → ¬CFamily.IsStatement o.tag.name)
      ↔ ¬CFamily.LabelsStatement (Masking.mask (joinLines (lines.map String.toList))) := by
  have hmarks : language.marks = CFamily.marks := by
    rcases hlanguage with rfl | rfl <;> rfl
  constructor
  · intro hnone hlabels
    obtain ⟨kind, name, line, hkind, hname, hmark⟩ :=
      CFamily.exists_leaf_of_labelsStatement hlabels
    rw [← hmarks] at hmark
    obtain ⟨o, ho, hof⟩ := Document.exists_occurrence_of_leaf hmark language.legend
    rw [← occurrences_scan] at ho
    refine hnone o ho ?_ ?_
    · rwa [hof.tag, Tag.kind_heldBy]
    · rwa [hof.tag, Tag.name_heldBy]
  · intro h o ho
    obtain ⟨r, hr, hof⟩ := exists_report (hmarks ▸ CFamily.marks_not_isStatement h) ho
    rw [hof.tag, Tag.kind_heldBy, Tag.name_heldBy]
    exact hr

/-- A statement behind a label and a blank is no function, and neither is a loop in a method. -/
theorem scan_keywords_apart :
    (cpp = c ∨ cpp = cpp)
      ∧ ∀ o ∈ (cpp.scan ["class A \x7b", "  int f(int x) \x7b", "    one: if (x) \x7b \x7d",
          "    else while (x) \x7b \x7d", "  \x7d", "\x7d;"]).occurrences,
        o.tag.kind = .functions ∨ o.tag.kind = .methods → ¬CFamily.IsStatement o.tag.name :=
  ⟨.inr rfl, (scan_keywords_iff (.inr rfl) _).2 (by decide +kernel)⟩

/-- A statement right behind its label is taken for a function. -/
theorem scan_labelled_statement :
    (⟨⟨"ONE:if", 2, .functions, none⟩, .functions, []⟩ : Occurrence)
        ∈ (c.scan ["void f(int x) \x7b", "  switch (x) \x7b", "    case ONE:if (x) \x7b",
          "    \x7d", "  \x7d", "\x7d"]).occurrences
      ∧ CFamily.IsStatement "ONE:if" := by
  decide +kernel

end Language

end Outliner
