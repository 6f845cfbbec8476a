import Outliner.Proofs.Php.Regions
import Outliner.Proofs.Scan

set_option autoImplicit false

/-!
# Hidden text of PHP sources

What comments and the text outside the tags are made of should make no difference to the document,
so it may be overwritten with spaces. The reading along the lines keeps to that. The declarations of
properties do not, since they are looked for on the whole line, hidden text included. Where no
declaration is affected, nothing is.

## Main definitions

* `Outliner.Php.Overwritten` — a source with hidden characters overwritten with spaces.
* `Outliner.Php.SameProperties` — the lines of two sources declare the same properties.

## Main results

* `Outliner.Php.Overwritten.marks_eq` — what is hidden makes no difference to the marks, but for the
  properties.
* `Outliner.Language.scan_php_overwritten` — an overwritten source has the document of the source if
  and only if its lines declare the same properties.
-/

namespace Outliner

namespace Php

/-! ## Sources -/

/-- Hidden characters of the lines are overwritten with spaces, where the first line begins in the
region. -/
def OverwrittenFrom : Region → List (List Char) → List (List Char) → Prop
  | _, [], [] => True
  | region, a :: lines, b :: lines' =>
    List.Forall₂ Overwrites (survey region a).places b
      ∧ OverwrittenFrom (survey region a).behind.nextLine lines lines'
  | _, _, _ => False

/-- Hidden characters of the source are overwritten with spaces. -/
def Overwritten (lines lines' : List (List Char)) : Prop := OverwrittenFrom .page lines lines'

instance decidableOverwrittenFrom : ∀ (region : Region) (lines lines' : List (List Char)),
    Decidable (OverwrittenFrom region lines lines')
  | _, [], [] => .isTrue trivial
  | region, a :: lines, _ :: lines' =>
    have := decidableOverwrittenFrom (survey region a).behind.nextLine lines lines'
    inferInstanceAs (Decidable (_ ∧ _))
  | _, [], _ :: _ => .isFalse id
  | _, _ :: _, [] => .isFalse id

instance (lines lines' : List (List Char)) : Decidable (Overwritten lines lines') :=
  decidableOverwrittenFrom .page lines lines'

/-! ## Reading line by line -/

section Lines

variable {region behind : Region} {s : State} {a b : List Char} {lines lines' : List (List Char)}

/-- The mode does not change at the end of a line. -/
lemma Region.mode_nextLine (region : Region) : region.nextLine.mode = region.mode := by
  cases region <;> rfl

/-- No line begins in a remark. -/
lemma Region.nextLine_ne_remark (region : Region) : region.nextLine ≠ .remark := by
  cases region <;> simp [Region.nextLine]

/-- At the beginning of a line reading goes on in the region of the state. -/
lemma walk_start_eq_resume (hregion : region ≠ .remark) (hmode : s.mode = region.mode) (line : Nat)
    (text : List Char) :
    Cursor.walk (step line) s (.start text) = resume line region s (.start text) := by
  obtain ⟨mode, braces, classBraces, pending⟩ := s
  obtain rfl : mode = region.mode := hmode
  cases region with
  | remark => exact absurd rfl hregion
  | _ => rfl

/-- **Two lines that differ in what is hidden are read alike**, but for the properties that they
declare. -/
lemma Twins.readLine (h : Twins region behind a b) (hregion : region ≠ .remark)
    (hmode : s.mode = region.mode) (line : Nat) :
    ∃ s' walked, s'.mode = behind.nextLine.mode
      ∧ Php.readLine s line a = (s', propertyMarks s line a ++ walked)
      ∧ Php.readLine s line b = (s', propertyMarks s line b ++ walked) := by
  obtain ⟨hsame, hlast⟩ := resume_eq (c := .start a) (d := .start b) h (fun _ => rfl) line s
  refine ⟨(resume line region s (.start a)).1, (resume line region s (.start a)).2, ?_, ?_, ?_⟩
  · rw [hlast, Region.mode_nextLine]
  · rw [Php.readLine, walk_start_eq_resume hregion hmode]
  · rw [Php.readLine, walk_start_eq_resume hregion hmode, hsame]

/-- Sources that differ in what is hidden are read alike up to any of their lines.

**Proof sketch.** Induction on the number of lines. Each line is read alike in both sources
(`Twins.readLine`) and ends in the same state. -/
lemma OverwrittenFrom.state_eq (h : OverwrittenFrom region lines lines')
    (hregion : region ≠ .remark) (hmode : s.mode = region.mode) (first i : Nat) :
    (readLines Php.readLine first s (lines'.take i)).1
      = (readLines Php.readLine first s (lines.take i)).1 := by
  induction i generalizing region s lines lines' first with
  | zero => rfl
  | succ i ih =>
    cases lines with
    | nil =>
      cases lines' with
      | nil => rfl
      | cons b lines' => exact h.elim
    | cons a lines =>
      cases lines' with
      | nil => exact h.elim
      | cons b lines' =>
        obtain ⟨hplaces, hlater⟩ := h
        obtain ⟨s', walked, hmode', ha, hb⟩ :=
          Twins.readLine ⟨hplaces, rfl⟩ hregion hmode first
        simp only [List.take_succ_cons, readLines, ha, hb]
        exact ih hlater (Region.nextLine_ne_remark _) hmode' (first + 1)

/-- Sources that differ in what is hidden have the same marks, if their lines declare the same
properties.

**Proof sketch.** Induction on the lines. Each of them has the same marks in both sources, since it
is read alike and declares the same property. -/
lemma OverwrittenFrom.marks_eq (h : OverwrittenFrom region lines lines')
    (hregion : region ≠ .remark) (hmode : s.mode = region.mode) {first : Nat}
    (hproperties : ∀ i a b, lines[i]? = some a → lines'[i]? = some b →
      propertyMarks (readLines Php.readLine first s (lines.take i)).1 (first + i) b
        = propertyMarks (readLines Php.readLine first s (lines.take i)).1 (first + i) a) :
    (readLines Php.readLine first s lines').2 = (readLines Php.readLine first s lines).2 := by
  induction lines generalizing region s lines' first with
  | nil =>
    cases lines' with
    | nil => rfl
    | cons b lines' => exact h.elim
  | cons a lines ih =>
    cases lines' with
    | nil => exact h.elim
    | cons b lines' =>
      obtain ⟨hplaces, hlater⟩ := h
      obtain ⟨s', walked, hmode', ha, hb⟩ := Twins.readLine ⟨hplaces, rfl⟩ hregion hmode first
      have hhere : propertyMarks s first b = propertyMarks s first a := hproperties 0 a b rfl rfl
      have hrest : (readLines Php.readLine (first + 1) s' lines').2
          = (readLines Php.readLine (first + 1) s' lines).2 :=
        ih hlater (Region.nextLine_ne_remark _) hmode'
        fun i a' b' ha' hb' => by
          have := hproperties (i + 1) a' b' ha' hb'
          simp only [List.take_succ_cons, readLines, ha] at this
          rwa [Nat.add_assoc, Nat.add_comm 1 i]
      simp only [readLines, ha, hb, hhere, hrest]

/-- The state before the line of a number. -/
def stateBefore (lines : List (List Char)) (i : Nat) : State :=
  (readLines Php.readLine 0 {} (lines.take i)).1

/-- The line of the number begins in code, directly in the body of a class. -/
def BeginsInBody (lines : List (List Char)) (i : Nat) : Prop :=
  (stateBefore lines i).mode = .code ∧ (stateBefore lines i).atMemberLevel = true

/-- The lines that begin directly in the body of a class declare the same properties. -/
def SameProperties (lines lines' : List (List Char)) : Prop :=
  ∀ i < lines.length, BeginsInBody lines i →
    lines'[i]?.bind propertyName? = lines[i]?.bind propertyName?

instance (lines : List (List Char)) (i : Nat) : Decidable (BeginsInBody lines i) :=
  inferInstanceAs (Decidable (_ ∧ _))

instance (lines lines' : List (List Char)) : Decidable (SameProperties lines lines') :=
  inferInstanceAs (Decidable (∀ i < lines.length, _ → _))

/-- Overwritten sources are in the same state before each line. -/
lemma Overwritten.stateBefore_eq (h : Overwritten lines lines') (i : Nat) :
    stateBefore lines' i = stateBefore lines i :=
  h.state_eq (by simp) rfl 0 i

/-- **A source in which hidden text is overwritten has the marks of the source**, if its lines
declare the same properties. -/
theorem Overwritten.marks_eq (h : Overwritten lines lines') (hsame : SameProperties lines lines') :
    marks lines' = marks lines := by
  refine OverwrittenFrom.marks_eq h (by simp) rfl fun i a b ha hb => ?_
  simp only [propertyMarks]
  split
  · next hbody =>
    have hname := hsame i (List.getElem?_eq_some_iff.1 ha).1 hbody
    rw [ha, hb, Option.bind_some, Option.bind_some] at hname
    rw [hname]
  · rfl

/-- The property that a line declares is marked.

**Proof sketch.** The source is cut in front of the line, where the reader is at member level, so
the property that the line declares is marked there. -/
lemma mem_marks_of_propertyName? {i : Nat} {name : List Char} (ha : lines[i]? = some a)
    (hbody : BeginsInBody lines i) (hname : propertyName? a = some name) :
    Mark.leaf .vars (.ofList name) i ∈ marks lines := by
  obtain ⟨hi, -⟩ := List.getElem?_eq_some_iff.1 ha
  have hsplit : lines.take i ++ a :: lines.drop (i + 1) = lines := by
    have hdrop : lines.drop i = a :: lines.drop (i + 1) := by
      rw [List.drop_eq_getElem?_toList_append, ha]
      rfl
    rw [← hdrop, List.take_append_drop]
  have hlength : (lines.take i).length = i := List.length_take_of_le (Nat.le_of_lt hi)
  have hmark : Mark.leaf .vars (.ofList name) i ∈ propertyMarks (stateBefore lines i) i a := by
    have hmember : (stateBefore lines i).mode = .code
        ∧ (stateBefore lines i).atMemberLevel = true :=
      hbody
    rw [propertyMarks, if_pos hmember, hname]
    exact List.mem_singleton_self _
  rw [← hsplit, marks, readLines_append, hlength, Nat.zero_add]
  exact List.mem_append_right _ (List.mem_append_left _ (List.mem_append_left _ hmark))

end Lines

/-! ## Where properties are declared -/

section Declarations

/-- The element is no property. -/
def NoProperty (r : Report) : Prop := r.tag.kind ≠ .vars

/-- What a function is marked as is no property. -/
lemma functionMarks_noProperty (s : State) (name : List Char) (line : Nat) :
    ∀ m ∈ functionMarks s name line, m.All NoProperty := by
  unfold functionMarks
  split_ifs <;> simp [NoProperty]

/-- No word is marked as a property. -/
lemma wordStep_noProperty (line : Nat) (s : State) (c : Cursor) :
    ∀ m ∈ (wordStep line s c).found, m.All NoProperty := by
  simp only [wordStep]
  split_ifs
  · simp
  · split <;> simp
  · split
    · exact functionMarks_noProperty s _ line
    · simp
  · simp
  · simp [NoProperty]
  · simp

/-- Opening a brace marks no property. -/
lemma openBrace_noProperty (s : State) : ∀ m ∈ (openBrace s).2, m.All NoProperty := by
  rw [openBrace]
  split <;> simp [NoProperty, classHeader]

/-- Closing a brace marks no property. -/
lemma closeBrace_noProperty (s : State) : ∀ m ∈ (closeBrace s).2, m.All NoProperty := by
  simp only [closeBrace]
  split <;> simp

/-- No step in code marks a property. -/
lemma codeStep_noProperty (line : Nat) (s : State) (c : Cursor) (ch : Char) :
    ∀ m ∈ (codeStep line s c ch).found, m.All NoProperty := by
  simp only [codeStep]
  split_ifs
  · simp
  · simp
  · simp
  · simp
  · simp
  · exact openBrace_noProperty s
  · exact closeBrace_noProperty s
  · simp
  · exact wordStep_noProperty line s c
  · simp

/-- No step marks a property. -/
lemma step_noProperty (line : Nat) (s : State) (c : Cursor) (ch : Char) :
    ∀ m ∈ (step line s c ch).found, m.All NoProperty := by
  simp only [step]
  split
  · split <;> simp
  · simp
  · simp
  · exact codeStep_noProperty line s c ch

/-- A property is declared on the line of its number. -/
def IsDeclared (lines : List (List Char)) (r : Report) : Prop :=
  r.tag.kind = .vars →
    ∃ text name, lines[r.tag.line]? = some text ∧ propertyName? text = some name
      ∧ r.tag.name = .ofList name

/-- **What is marked as a property is declared on the line of its number.** -/
lemma marks_isDeclared (lines : List (List Char)) :
    ∀ m ∈ marks lines, m.All (IsDeclared lines) := by
  refine readLines_found (fun s i text htext m hm => ?_) ({} : State)
  rcases List.mem_append.1 hm with hm | hm
  · unfold propertyMarks at hm
    split at hm
    · obtain ⟨name, hname, rfl⟩ := Option.map_eq_some_iff.1 (Option.mem_toList.1 hm)
      exact Mark.all_leaf.2 fun _ => ⟨text, name, htext, hname, rfl⟩
    · exact absurd hm List.not_mem_nil
  · have hother := (Cursor.walk_keeps (I := fun _ => True) (P := Mark.All NoProperty)
      (fun s c ch _ => ⟨trivial, step_noProperty i s c ch⟩) trivial (.start text)).found m hm
    exact hother.imp fun r hr hkind => absurd hkind hr

end Declarations

end Php

namespace Language

open Php in
/-- A property of the one source is declared in the other, if they have one document.

**Proof sketch.** The property occurs in the first document, so it occurs in the second. What a
property is reported for is declared by the line on which it stands (`marks_isDeclared`), under the
same name. -/
lemma propertyName?_of_scan_eq {lines lines' : List String} {i : Nat} {name : List Char}
    (hscan : php.scan lines = php.scan lines') (hbody : BeginsInBody (lines.map String.toList) i)
    (hname : (lines.map String.toList)[i]?.bind propertyName? = some name) :
    (lines'.map String.toList)[i]?.bind propertyName? = some name := by
  obtain ⟨a, ha, hname⟩ := Option.bind_eq_some_iff.1 hname
  obtain ⟨o, ho, hof⟩ :=
    Document.exists_occurrence_of_leaf (mem_marks_of_propertyName? ha hbody hname) php.legend
  have hthere : o ∈ (php.scan lines').occurrences := by
    rw [← hscan, occurrences_scan]
    exact ho
  have hmarks : ∀ m ∈ php.marks (lines'.map String.toList),
      m.All (IsDeclared (lines'.map String.toList)) := marks_isDeclared (lines'.map String.toList)
  obtain ⟨r, hdeclared, hof'⟩ := exists_report hmarks hthere
  have htag := hof'.tag.symm.trans hof.tag
  have hkind : r.tag.kind = .vars := by
    simpa only [Tag.kind_heldBy] using congrArg Tag.kind htag
  have hline : r.tag.line = i := by
    simpa only [Tag.line_heldBy] using congrArg Tag.line htag
  have hsame : r.tag.name = .ofList name := by
    simpa only [Tag.name_heldBy] using congrArg Tag.name htag
  obtain ⟨text, name', htext, hname', hother⟩ := hdeclared hkind
  rw [← hline, htext, ← String.ofList_inj.1 (hother.symm.trans hsame)]
  exact hname'

/-- **An overwritten source has the document of the source if and only if its lines declare the same
properties.** Where comments and text outside the tags are overwritten with spaces, nothing else can
change: the declarations of properties are looked for on whole lines, and nothing else is.

**Proof sketch.** The reading along the lines does not see what is hidden (`Php.resume_eq`), so the
marks are the same but for the properties. These are marks of their own, which no other mark is
taken for, and what is marked is in the document. -/
theorem scan_php_overwritten {lines lines' : List String}
    (h : Php.Overwritten (lines.map String.toList) (lines'.map String.toList)) :
    php.scan lines' = php.scan lines
      ↔ Php.SameProperties (lines.map String.toList) (lines'.map String.toList) := by
  constructor
  · intro hscan i _ hbody
    have hbody' : Php.BeginsInBody (lines'.map String.toList) i := by
      rw [Php.BeginsInBody, h.stateBefore_eq]
      exact hbody
    ext1 name
    exact ⟨propertyName?_of_scan_eq hscan hbody', propertyName?_of_scan_eq hscan.symm hbody⟩
  · intro hsame
    have hmarks : Php.marks (lines'.map String.toList) = Php.marks (lines.map String.toList) :=
      h.marks_eq hsame
    rw [scan, scan, marks, hmarks]

/-- Classes and functions in comments of all kinds and outside the tags, and a comment behind a
property. -/
theorem scan_php_overwritten_disguised :
    Php.Overwritten
        (["function page() \x7b <?php", "class A \x7b // class B \x7b", "private $x; /* $y",
          "function c() \x7b */ function m() \x7b\x7d # \x7d", "\x7d ?> class D \x7b"].map
            String.toList)
        (["                  <?php", "class A \x7b //          ", "private $x; /*   ",
          "               */ function m() \x7b\x7d #  ", "\x7d ?>          "].map String.toList)
      ∧ php.scan ["                  <?php", "class A \x7b //          ", "private $x; /*   ",
          "               */ function m() \x7b\x7d #  ", "\x7d ?>          "]
        = php.scan ["function page() \x7b <?php", "class A \x7b // class B \x7b",
          "private $x; /* $y", "function c() \x7b */ function m() \x7b\x7d # \x7d",
          "\x7d ?> class D \x7b"] :=
  have h : Php.Overwritten
      (["function page() \x7b <?php", "class A \x7b // class B \x7b", "private $x; /* $y",
        "function c() \x7b */ function m() \x7b\x7d # \x7d", "\x7d ?> class D \x7b"].map
          String.toList)
      (["                  <?php", "class A \x7b //          ", "private $x; /*   ",
        "               */ function m() \x7b\x7d #  ", "\x7d ?>          "].map String.toList) := by
    decide +kernel
  ⟨h, (scan_php_overwritten h).2 (by decide +kernel)⟩

/-- A variable in a comment is taken for the property that stands behind it. -/
theorem scan_php_commented_property :
    Php.Overwritten
        (["<?php", "class A \x7b", "private /* string $old */ $new;", "\x7d"].map String.toList)
        (["<?php", "class A \x7b", "private /*             */ $new;", "\x7d"].map String.toList)
      ∧ (⟨⟨"old", 2, .vars, some "A"⟩, .vars, [⟨"A", 1, .classes, none⟩]⟩ : Occurrence)
        ∈ (php.scan
          ["<?php", "class A \x7b", "private /* string $old */ $new;", "\x7d"]).occurrences
      ∧ (⟨⟨"old", 2, .vars, some "A"⟩, .vars, [⟨"A", 1, .classes, none⟩]⟩ : Occurrence)
        ∉ (php.scan
          ["<?php", "class A \x7b", "private /*             */ $new;", "\x7d"]).occurrences := by
  decide +kernel

end Language

end Outliner
