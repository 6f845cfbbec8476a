import Outliner.Draft
import Outliner.Proofs.Occurrence

set_option autoImplicit false

/-!
# What marks leave in a document

Each mark reports at most two elements, and taking a mark adds to a draft at most what the mark
reports: an occurrence of a reported element, held by the classes in which it is filed. No mark
takes anything away. A class that is left is filed in the place it had while it was open, so leaving
changes nothing, and neither does the end of the source, where all open classes are left.

Two laws of the documents that marks make follow. An element of such a document was reported by a
mark, and a list of marks leaves at least what its first marks leave.

## Main definitions

* `Outliner.Report`, `Outliner.Mark.reports` — the elements that a mark reports.
* `Outliner.Occurrence.IsOf` — an occurrence of a reported element.
* `Outliner.Draft.occurrences` — the elements of a draft, with those of the open classes.

## Main results

* `Outliner.Draft.occurrences_mark`, `Outliner.Draft.occurrences_marks` — what one mark, and what a
  list of marks adds.
* `Outliner.Draft.occurrences_finish` — the end of the source adds nothing.
* `Outliner.Document.mem_occurrences_ofMarks` — every element was reported.
* `Outliner.Document.exists_occurrence_of_leaf`, `Outliner.Document.exists_occurrence_of_atTop` —
  what is marked without members is there.
* `Outliner.Document.occurrences_ofMarks_subperm` — the first marks leave no more than all of them.
-/

namespace Outliner

/-- An element as a mark reports it, before it is known in which class it is filed. -/
structure Report where
  /-- The kind under which the element is filed. -/
  group : Kind
  /-- What the mark tells about the element. -/
  tag : Tag
deriving DecidableEq, Repr

/-- The elements that a mark reports. A method may report its class too, and a qualified name is
reported under the kind it has in its class and under the one it has without it. -/
def Mark.reports : Mark → List Report
  | .leaf kind name line => [⟨kind, { name := name, line := line, kind := kind }⟩]
  | .atTop kind name line => [⟨kind, { name := name, line := line, kind := kind }⟩]
  | .once kind name line => [⟨kind, { name := name, line := line, kind := kind }⟩]
  | .enter header => [⟨header.group, header.tag⟩]
  | .leave => []
  | .forget => []
  | .method owner name line =>
    [⟨.classes, { name := owner, line := line, kind := .classes }⟩,
      ⟨.methods, { name := name, line := line, kind := .methods }⟩]
  | .qualified _ owned free name line =>
    [⟨owned, { name := name, line := line, kind := owned }⟩,
      ⟨free, { name := name, line := line, kind := free }⟩]

/-- The occurrence is one of the reported element, which has learned which class holds it. -/
structure Occurrence.IsOf (o : Occurrence) (r : Report) : Prop where
  /-- The element is filed as reported. -/
  group : o.group = r.group
  /-- The element is what was reported. -/
  tag : o.tag = r.tag.heldBy o.holders

/-- The occurrence of a reported element in the given classes. -/
def Report.heldBy (holders : List Tag) (r : Report) : Occurrence :=
  ⟨r.tag.heldBy holders, r.group, holders⟩

/-- An element that is held by classes is still the one reported. -/
lemma Report.isOf_heldBy (holders : List Tag) (r : Report) : (r.heldBy holders).IsOf r := ⟨rfl, rfl⟩

/-! ## The elements of a draft -/

/-- The tags of the open classes, each as it will be when the class is filed. -/
def holdersOf : List OpenClass → List Tag
  | [] => []
  | innermost :: outer => innermost.body.tag.heldBy (holdersOf outer) :: holdersOf outer

/-- The occurrences of the open classes and of their members, each as it will be when the class is
filed. -/
def openOccurrences : List OpenClass → List Occurrence
  | [] => []
  | innermost :: outer =>
    openOccurrences outer
      ++ ((Element.ofClass innermost.body).heldBy (holdersOf outer)).occurrences (holdersOf outer)
        innermost.group

/-- The elements of a draft: those that are filed and those that are open. -/
def Draft.occurrences (d : Draft) : List Occurrence :=
  d.document.occurrences ++ openOccurrences d.opened

/-- A class has one occurrence for itself and those of its members. -/
lemma occurrences_heldBy_ofClass (holders : List Tag) (group : Kind) (c : Class) :
    ((Element.ofClass c).heldBy holders).occurrences holders group
      = ⟨c.tag.heldBy holders, group, holders⟩
        :: c.members.occurrences (c.tag.heldBy holders :: holders) := by
  rw [Element.ofClass, Element.heldBy, Element.occurrences_branch]

namespace Draft

/-! ## Filing -/

/-- Filing an element adds its occurrences, held by the open classes.

**Proof sketch.** Where no class is open, the element is added to the document. Where one is, the
element becomes a member of the innermost one, which has its occurrences from the classes around it.
-/
lemma occurrences_file (kind : Kind) (e : Element) (d : Draft) :
    (d.file kind e).occurrences.Perm (d.occurrences
      ++ (e.heldBy (holdersOf d.opened)).occurrences (holdersOf d.opened) kind) := by
  obtain ⟨document, opened⟩ := d
  cases opened with
  | nil =>
    simp only [file, occurrences, openOccurrences, holdersOf, List.append_nil, Element.heldBy_nil]
    exact Document.occurrences_add kind e document
  | cons innermost outer =>
    have hname : innermost.body.name = (innermost.body.tag.heldBy (holdersOf outer)).name :=
      (Tag.name_heldBy _ _).symm
    simp only [file, occurrences, openOccurrences, holdersOf, occurrences_heldBy_ofClass,
      List.append_assoc, List.cons_append]
    refine List.Perm.append_left _ (List.Perm.append_left _ (List.Perm.cons _ ?_))
    rw [Class.add, hname, Element.withinScope_eq_heldBy _ (holdersOf outer)]
    exact Scope.occurrences_add _ kind _ _

/-- Leaving a class changes nothing: it is filed where it was open.

**Proof sketch.** The innermost class was counted where it was open. Left, it is filed in the
document or in the next class, with the same occurrences. -/
lemma occurrences_leave (d : Draft) : d.leave.occurrences.Perm d.occurrences := by
  obtain ⟨document, opened⟩ := d
  match opened with
  | [] => exact List.Perm.refl _
  | [innermost] =>
    simp only [leave, occurrences, openOccurrences, holdersOf, List.append_nil, List.nil_append,
      Element.heldBy_nil]
    split
    · next hgroup =>
      rw [hgroup]
      exact Document.occurrences_addClass innermost.body document
    · exact Document.occurrences_add innermost.group _ document
  | innermost :: next :: outer =>
    refine (occurrences_file innermost.group _ _).trans ?_
    simp only [occurrences, openOccurrences, List.append_assoc]
    exact List.Perm.refl _

/-- The end of the source changes nothing: the open classes are filed where they were open. -/
theorem occurrences_finish (d : Draft) : d.finish.occurrences.Perm d.occurrences := by
  rw [finish]
  generalize hn : d.opened.length = n
  induction n generalizing d with
  | zero =>
    have hopened : d.opened = [] := List.length_eq_zero_iff.1 hn
    rw [List.replicate_zero, marks_nil, occurrences, hopened, openOccurrences, List.append_nil]
  | succ n ih =>
    have hleft : d.leave.opened.length = n := by
      rw [length_opened_leave, hn]
      rfl
    rw [List.replicate_succ, marks_cons]
    exact (ih d.leave hleft).trans d.occurrences_leave

/-! ## Holders -/

/-- A member that is filed leaves the open classes as they are. -/
lemma holdersOf_file (kind : Kind) (e : Element) (d : Draft) :
    holdersOf (d.file kind e).opened = holdersOf d.opened := by
  obtain ⟨document, opened⟩ := d
  cases opened <;> rfl

/-- Leaving a class leaves those around it. -/
lemma holdersOf_leave (d : Draft) : holdersOf d.leave.opened = (holdersOf d.opened).tail := by
  obtain ⟨document, opened⟩ := d
  match opened with
  | [] => rfl
  | [innermost] => rfl
  | innermost :: next :: outer => exact holdersOf_file innermost.group _ _

/-! ## Marks -/

/-- What is filed at the top stays apart from what is open. -/
lemma occurrences_of_document {d : Draft} {document : Document} {new : List Occurrence}
    (h : document.occurrences.Perm (d.document.occurrences ++ new)) :
    ({ d with document := document } : Draft).occurrences.Perm (d.occurrences ++ new) := by
  rw [occurrences, occurrences, List.append_assoc]
  refine (h.append_right _).trans ?_
  rw [List.append_assoc]
  exact List.Perm.append_left _ List.perm_append_comm

/-- An element without members that is filed is one occurrence of it, held by the open classes. -/
lemma occurrences_file_leafOf (kind : Kind) (name : String) (line : Nat) (d : Draft) :
    (d.file kind (leafOf kind name line)).occurrences.Perm (d.occurrences
      ++ [Report.heldBy (holdersOf d.opened)
        ⟨kind, { name := name, line := line, kind := kind }⟩]) := by
  refine (occurrences_file kind _ d).trans ?_
  rw [leafOf, Element.heldBy, Element.occurrences_leaf]
  rfl

/-- An element without members that is filed at the top is one occurrence of it. -/
lemma occurrences_add_leafOf (kind : Kind) (name : String) (line : Nat) (d : Document) :
    ∃ o : Occurrence, o.IsOf ⟨kind, { name := name, line := line, kind := kind }⟩
      ∧ (d.add kind (leafOf kind name line)).occurrences.Perm (d.occurrences ++ [o]) := by
  refine ⟨⟨{ name := name, line := line, kind := kind }, kind, []⟩, ⟨rfl, rfl⟩,
    (Document.occurrences_add kind _ d).trans ?_⟩
  rw [leafOf, Element.occurrences_leaf]

/-- An element without members that is filed in a class of a name is one occurrence of it. -/
lemma occurrences_modifyClassNamed_leafOf {owner : String} {d : Document}
    (h : (d.classNamed? owner).isSome) (kind : Kind) (name : String) (line : Nat) :
    ∃ o : Occurrence, o.IsOf ⟨kind, { name := name, line := line, kind := kind }⟩
      ∧ (d.modifyClassNamed owner (·.add kind (leafOf kind name line))).occurrences.Perm
        (d.occurrences ++ [o]) := by
  obtain ⟨holder, -, hperm⟩ := Document.occurrences_modifyClassNamed_add h kind _
  exact ⟨_, ⟨rfl, rfl⟩, hperm⟩

/-- A class just added is found by its name. -/
lemma classNamed?_addClass (c : Class) (d : Document) :
    ((d.addClass c).classNamed? c.name).isSome := by
  rw [Document.classNamed?, List.find?_isSome]
  refine ⟨c, List.mem_filterMap.2 ⟨.ofClass c, ?_, Element.class?_ofClass c⟩, beq_self_eq_true _⟩
  rw [Document.addClass, Scope.get_add, if_pos rfl]
  exact List.mem_append_right _ (List.mem_singleton.2 rfl)

/-- A method is one occurrence of it, beside an occurrence of its class where this is new.

**Proof sketch.** If the owner is there, the method is added to it. If not, the owner is added
first, and this is one more occurrence that the mark reports. -/
lemma occurrences_method (owner name : String) (line : Nat) (d : Document) :
    let owned :=
      if (d.classNamed? owner).isSome then d
      else d.addClass (.empty { name := owner, line := line, kind := .classes })
    ∃ new : List Occurrence,
      (owned.modifyClassNamed owner (·.add .methods (leafOf .methods name line))).occurrences.Perm
          (d.occurrences ++ new)
        ∧ ∀ o ∈ new, ∃ r ∈ (Mark.method owner name line).reports, o.IsOf r := by
  intro owned
  by_cases h : (d.classNamed? owner).isSome
  · rw [show owned = d from if_pos h]
    obtain ⟨o, ho, hperm⟩ := occurrences_modifyClassNamed_leafOf h .methods name line
    refine ⟨[o], hperm, ?_⟩
    simpa [Mark.reports] using Or.inr ho
  · rw [show owned = d.addClass (.empty { name := owner, line := line, kind := .classes }) from
      if_neg h]
    have hnew := classNamed?_addClass (.empty { name := owner, line := line, kind := .classes }) d
    obtain ⟨o, ho, hperm⟩ := occurrences_modifyClassNamed_leafOf hnew .methods name line
    have hclass := d.occurrences_addClass (.empty { name := owner, line := line, kind := .classes })
    refine ⟨[⟨{ name := owner, line := line, kind := .classes }, .classes, []⟩] ++ [o], ?_, ?_⟩
    · rw [← List.append_assoc]
      exact hperm.trans (hclass.append_right _)
    · have hc : Occurrence.IsOf ⟨{ name := owner, line := line, kind := .classes }, .classes, []⟩
          ⟨.classes, { name := owner, line := line, kind := .classes }⟩ := ⟨rfl, rfl⟩
      simpa [Mark.reports] using ⟨Or.inl hc, Or.inr ho⟩

/-- A header without members begins a class without members. -/
lemma toClass_eq (header : Header) :
    header.toClass.tag = header.tag
      ∧ ∀ holders, header.toClass.members.occurrences holders = [] := by
  obtain ⟨group, tag, labels⟩ := header
  suffices h : ∀ c : Class, c.tag = tag → (∀ holders, c.members.occurrences holders = []) →
      (labels.foldl (fun c label => c.modifyMembers (·.describe label.1 label.2)) c).tag = tag
        ∧ ∀ holders, (labels.foldl (fun c label => c.modifyMembers (·.describe label.1 label.2))
            c).members.occurrences holders = [] from
    h (.empty tag) rfl fun _ => rfl
  induction labels with
  | nil => exact fun c htag hmembers => ⟨htag, hmembers⟩
  | cons label labels ih => exact fun c htag hmembers => ih _ htag fun holders => hmembers holders

/-- The beginning of a class is one occurrence of it, held by the classes that are open already. -/
lemma occurrences_mark_enter (d : Draft) (header : Header) :
    (d.mark (.enter header)).occurrences
      = d.occurrences ++ [Report.heldBy (holdersOf d.opened) ⟨header.group, header.tag⟩] := by
  obtain ⟨htag, hmembers⟩ := toClass_eq header
  rw [mark, occurrences, occurrences, openOccurrences, occurrences_heldBy_ofClass, htag, hmembers,
    List.append_assoc]
  rfl

/-- **A mark adds occurrences of elements that it reports, and takes nothing away.**

**Proof sketch.** Case by case. Filing adds one occurrence, entering adds that of the header,
leaving and forgetting add none, and a mark with an owner adds the element where the owner is. -/
theorem occurrences_mark (d : Draft) (m : Mark) :
    ∃ new : List Occurrence, (d.mark m).occurrences.Perm (d.occurrences ++ new)
      ∧ ∀ o ∈ new, ∃ r ∈ m.reports, o.IsOf r := by
  have hnothing : d.occurrences.Perm (d.occurrences ++ [])
      ∧ ∀ o ∈ ([] : List Occurrence), ∃ r ∈ m.reports, o.IsOf r := by
    rw [List.append_nil]
    exact ⟨List.Perm.refl _, by simp⟩
  cases m with
  | leaf kind name line =>
    refine ⟨_, occurrences_file_leafOf kind name line d, ?_⟩
    simpa [Mark.reports] using Report.isOf_heldBy _ _
  | atTop kind name line =>
    obtain ⟨o, ho, hperm⟩ := occurrences_add_leafOf kind name line d.document
    exact ⟨[o], occurrences_of_document hperm, by simpa [Mark.reports] using ho⟩
  | once kind name line =>
    rw [mark]
    split
    · exact ⟨[], hnothing⟩
    · obtain ⟨o, ho, hperm⟩ := occurrences_add_leafOf kind name line d.document
      exact ⟨[o], occurrences_of_document hperm, by simpa [Mark.reports] using ho⟩
  | enter header =>
    refine ⟨_, List.Perm.of_eq (d.occurrences_mark_enter header), ?_⟩
    simpa [Mark.reports] using Report.isOf_heldBy _ _
  | leave => exact ⟨[], d.occurrences_leave.trans hnothing.1, hnothing.2⟩
  | forget => exact ⟨[], hnothing⟩
  | method owner name line =>
    obtain ⟨new, hperm, hnew⟩ := occurrences_method owner name line d.document
    exact ⟨new, occurrences_of_document hperm, hnew⟩
  | qualified owner owned free name line =>
    rw [mark]
    split
    · next h =>
      obtain ⟨o, ho, hperm⟩ := occurrences_modifyClassNamed_leafOf h owned name line
      exact ⟨[o], occurrences_of_document hperm, by simpa [Mark.reports] using Or.inl ho⟩
    · refine ⟨_, occurrences_file_leafOf free name line d, ?_⟩
      simpa [Mark.reports] using Or.inr (Report.isOf_heldBy _ _)

/-- Marks add occurrences of elements that they report, and take nothing away.

**Proof sketch.** Induction on the marks, with `occurrences_mark` for the first one. -/
theorem occurrences_marks (d : Draft) (list : List Mark) :
    ∃ new : List Occurrence, (d.marks list).occurrences.Perm (d.occurrences ++ new)
      ∧ ∀ o ∈ new, ∃ r ∈ list.flatMap Mark.reports, o.IsOf r := by
  induction list generalizing d with
  | nil => exact ⟨[], by rw [marks_nil, List.append_nil], by simp⟩
  | cons m list ih =>
    obtain ⟨first, hfirst, hreported⟩ := d.occurrences_mark m
    obtain ⟨further, hfurther, hreported'⟩ := ih (d.mark m)
    refine ⟨first ++ further, ?_, fun o ho => ?_⟩
    · rw [marks_cons, ← List.append_assoc]
      exact hfurther.trans (hfirst.append_right _)
    · rw [List.flatMap_cons]
      rcases List.mem_append.1 ho with ho | ho
      · obtain ⟨r, hr, hof⟩ := hreported o ho
        exact ⟨r, List.mem_append_left _ hr, hof⟩
      · obtain ⟨r, hr, hof⟩ := hreported' o ho
        exact ⟨r, List.mem_append_right _ hr, hof⟩

end Draft

/-! ## Documents made of marks -/

namespace Document

/-- A legend brings no elements. -/
lemma occurrences_withLegend (legend : Legend) : (Document.withLegend legend).occurrences = [] := by
  suffices h : ∀ d : Document, (legend.foldl (fun d entry =>
      (d.describe entry.kind entry.description).prioritise entry.kind entry.priority) d).occurrences
        = d.occurrences from h {}
  induction legend with
  | nil => exact fun d => rfl
  | cons entry legend ih => exact fun d => ih _

/-- The elements of a draft at the end of the marks are those of the document. -/
lemma occurrences_ofMarks (legend : Legend) (list : List Mark) :
    (ofMarks legend list).occurrences.Perm
      (Draft.marks { document := .withLegend legend } list).occurrences :=
  Draft.occurrences_finish _

/-- **Every element of a document was reported by a mark.** -/
theorem mem_occurrences_ofMarks {legend : Legend} {list : List Mark} {o : Occurrence}
    (h : o ∈ (ofMarks legend list).occurrences) : ∃ r ∈ list.flatMap Mark.reports, o.IsOf r := by
  obtain ⟨new, hperm, hnew⟩ := Draft.occurrences_marks { document := .withLegend legend } list
  have hnone : Draft.occurrences { document := .withLegend legend } = [] := by
    rw [Draft.occurrences, occurrences_withLegend, openOccurrences, List.append_nil]
  rw [hnone, List.nil_append] at hperm
  exact hnew o (hperm.mem_iff.1 ((occurrences_ofMarks legend list).mem_iff.1 h))

/-- What a mark leaves in every draft is there in the end.

**Proof sketch.** It is filed by its mark, and the marks after it take nothing away. -/
lemma exists_occurrence_of_mark {list : List Mark} {mark : Mark} {r : Report} (h : mark ∈ list)
    (hfiled : ∀ d : Draft, ∃ o ∈ (d.mark mark).occurrences, o.IsOf r) (legend : Legend) :
    ∃ o ∈ (ofMarks legend list).occurrences, o.IsOf r := by
  obtain ⟨before, after, rfl⟩ := List.append_of_mem h
  let d : Draft := Draft.marks { document := .withLegend legend } before
  obtain ⟨o, ho, hof⟩ := hfiled d
  obtain ⟨new, hperm, -⟩ := Draft.occurrences_marks (d.mark mark) after
  rw [← Draft.marks_cons, ← Draft.marks_append] at hperm
  exact ⟨o, (occurrences_ofMarks legend _).mem_iff.2
    (hperm.mem_iff.2 (List.mem_append_left _ ho)), hof⟩

/-- An element that is marked without members is there in the end. -/
theorem exists_occurrence_of_leaf {list : List Mark} {kind : Kind} {name : String} {line : Nat}
    (h : Mark.leaf kind name line ∈ list) (legend : Legend) :
    ∃ o ∈ (ofMarks legend list).occurrences,
      o.IsOf ⟨kind, { name := name, line := line, kind := kind }⟩ := by
  refine exists_occurrence_of_mark h (fun d => ?_) legend
  have hfiled := Draft.occurrences_file_leafOf kind name line d
  exact ⟨_, hfiled.mem_iff.2 (List.mem_append_right _ (List.mem_singleton.2 rfl)),
    Report.isOf_heldBy (holdersOf d.opened) _⟩

/-- So is an element that is marked for the top. -/
theorem exists_occurrence_of_atTop {list : List Mark} {kind : Kind} {name : String} {line : Nat}
    (h : Mark.atTop kind name line ∈ list) (legend : Legend) :
    ∃ o ∈ (ofMarks legend list).occurrences,
      o.IsOf ⟨kind, { name := name, line := line, kind := kind }⟩ := by
  refine exists_occurrence_of_mark h (fun d => ?_) legend
  obtain ⟨o, hof, hperm⟩ := Draft.occurrences_add_leafOf kind name line d.document
  have hfiled := Draft.occurrences_of_document hperm
  exact ⟨o, hfiled.mem_iff.2 (List.mem_append_right _ (List.mem_singleton.2 rfl)), hof⟩

/-- **The first marks of a list leave no more than all of them**: each element they leave is there
in the end, in the same classes and as often. -/
theorem occurrences_ofMarks_subperm (legend : Legend) (a b : List Mark) :
    (ofMarks legend a).occurrences.Subperm (ofMarks legend (a ++ b)).occurrences := by
  obtain ⟨new, hperm, -⟩ :=
    Draft.occurrences_marks (Draft.marks { document := .withLegend legend } a) b
  rw [← Draft.marks_append] at hperm
  have hfirst := occurrences_ofMarks legend a
  have hall := occurrences_ofMarks legend (a ++ b)
  exact hfirst.subperm.trans ((List.sublist_append_left _ new).subperm.trans
    (hperm.symm.subperm.trans hall.symm.subperm))

end Document

end Outliner
