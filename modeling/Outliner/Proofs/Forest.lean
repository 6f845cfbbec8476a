import Mathlib.Tactic.Lemma
import Outliner.Proofs.Once

set_option autoImplicit false

/-!
# Forests of constructs

Where constructs stand within each other in a source, what is declared there is a forest: each
construct has a header and members, in the order of the source, or it has no members. Marks that
enter and leave each construct around its members make the document that files the forest, one
construct after the other. Classes that are left only at the end of the source make no difference.

## Main definitions

* `Outliner.Construct` — a construct of a source.
* `Outliner.Construct.marks` — the marks of a construct.
* `Outliner.Construct.element` — a construct as an element.
* `Outliner.Document.ofForest` — the document of a forest.

## Main results

* `Outliner.Document.ofMarks_forest` — the marks of a forest make its document.
* `Outliner.Document.get_ofForest`, `Outliner.Construct.get_fill` — each group lists its constructs
  in the order of the source.
* `Outliner.Draft.marks_once` — constructs that are filed unless their name is there.
* `Outliner.Document.ofMarks_leave` — classes need not be left at the end.
* `Outliner.Document.mem_get_ofMarks_leaves` — where nothing has members.
-/

namespace Outliner

/-- A construct of a source, with what is known of it and, in the order of the source, its
members. -/
inductive Construct where
  /-- A construct without members. -/
  | leaf (kind : Kind) (name : String) (line : Nat)
  /-- A construct with a header, and with members. -/
  | branch (header : Header) (members : List Construct)

namespace Construct

/-- The kind under which the construct is filed. -/
def group : Construct → Kind
  | leaf kind _ _ => kind
  | branch header _ => header.group

mutual

/-- The marks of a construct. A construct with a header is entered before its members and left after
them. -/
def marks : Construct → List Mark
  | leaf kind name line => [.leaf kind name line]
  | branch header members => .enter header :: (marksOf members ++ [.leave])

/-- The marks of a forest. -/
def marksOf : List Construct → List Mark
  | [] => []
  | c :: forest => c.marks ++ marksOf forest

end

/-- The constructs of a kind without members that have these names and lines. -/
def leaves (kind : Kind) (entries : List (String × Nat)) : List Construct :=
  entries.map fun entry => leaf kind entry.1 entry.2

/-- The marks of constructs without members, of whatever kinds. -/
lemma marksOf_entries (entries : List (Kind × String × Nat)) :
    marksOf (entries.map fun entry => .leaf entry.1 entry.2.1 entry.2.2)
      = entries.map fun entry => .leaf entry.1 entry.2.1 entry.2.2 := by
  induction entries with
  | nil => rfl
  | cons entry entries ih =>
    rw [List.map_cons, List.map_cons, marksOf, ih]
    rfl

/-- The marks of leaves are leaves. -/
lemma marksOf_leaves (kind : Kind) (entries : List (String × Nat)) :
    marksOf (leaves kind entries) = entries.map fun entry => Mark.leaf kind entry.1 entry.2 := by
  have hmarks := marksOf_entries (entries.map fun entry => (kind, entry.1, entry.2))
  rwa [List.map_map, List.map_map] at hmarks

/-- Marks that are leaves are given by entries. -/
lemma exists_entries {list : List Mark}
    (h : ∀ m ∈ list, ∃ kind name line, m = .leaf kind name line) :
    ∃ entries : List (Kind × String × Nat),
      list = entries.map fun entry => .leaf entry.1 entry.2.1 entry.2.2 := by
  induction list with
  | nil => exact ⟨[], rfl⟩
  | cons m list ih =>
    obtain ⟨kind, name, line, rfl⟩ := h m List.mem_cons_self
    obtain ⟨entries, rfl⟩ := ih fun m hm => h m (List.mem_cons_of_mem _ hm)
    exact ⟨(kind, name, line) :: entries, rfl⟩

/-- The marks of a forest are those of its parts. -/
lemma marksOf_append (forest further : List Construct) :
    marksOf (forest ++ further) = marksOf forest ++ marksOf further := by
  induction forest with
  | nil => rw [marksOf, List.nil_append, List.nil_append]
  | cons c forest ih => rw [List.cons_append, marksOf, marksOf, ih, List.append_assoc]

mutual

/-- The construct as an element. -/
def element : Construct → Element
  | leaf kind name line => Draft.leafOf kind name line
  | branch header members => .ofClass (fill header.toClass members)

/-- The class in which the constructs are filed, one after the other. -/
def fill (body : Class) : List Construct → Class
  | [] => body
  | c :: forest => fill (body.add c.group c.element) forest

end

end Construct

/-- Files a construct at the top. A construct that is filed with the classes becomes the last
class. -/
def Document.addConstruct (d : Document) : Construct → Document
  | .leaf kind name line => d.add kind (Draft.leafOf kind name line)
  | .branch header members =>
    let body := Construct.fill header.toClass members
    if header.group = .classes then d.addClass body else d.add header.group (.ofClass body)

/-- The document in which the constructs of a forest are filed, one after the other. -/
def Document.ofForest (legend : Legend) (forest : List Construct) : Document :=
  forest.foldl addConstruct (.withLegend legend)

/-! ## Groups of a forest -/

namespace Construct

variable {forest : List Construct} {kind : Kind}

/-- **The members of a kind are listed in the order of the source.** Each of them belongs to the
class. -/
theorem get_fill (body : Class) :
    (fill body forest).members.get kind = body.members.get kind
      ++ (forest.filter (·.group = kind)).map fun c => c.element.withinScope body.name := by
  induction forest generalizing body with
  | nil => simp [fill]
  | cons c forest ih =>
    have hname : (body.add c.group c.element).name = body.name := rfl
    rw [fill, ih, hname, Class.add, Scope.get_add]
    by_cases h : c.group = kind
    · simp [h]
    · simp [h, Ne.symm h]

end Construct

namespace Document

/-- A construct that is filed is the last one of its group, and other groups stay as they are.

**Proof sketch.** A class is filed like any other element, and that it becomes the last class as
well does not matter to the groups. -/
lemma get_addConstruct (d : Document) (c : Construct) (kind : Kind) :
    (d.addConstruct c).get kind
      = d.get kind ++ (if c.group = kind then [c.element] else []) := by
  have hadd : ∀ e : Element, (d.add c.group e).get kind
      = d.get kind ++ (if c.group = kind then [e] else []) := by
    intro e
    rw [get, get, add, Scope.get_add]
    by_cases h : c.group = kind
    · simp [h]
    · simp [h, Ne.symm h]
  cases c with
  | leaf kind' name line =>
    rw [addConstruct, Construct.element]
    exact hadd _
  | branch header members =>
    rw [addConstruct, Construct.element]
    split
    · next hclasses =>
      have hsame : (d.addClass (Construct.fill header.toClass members)).get kind
          = (d.add header.group (.ofClass (Construct.fill header.toClass members))).get kind := by
        rw [hclasses]
        rfl
      rw [hsame]
      exact hadd _
    · exact hadd _

/-- What was the last class before makes no difference to what is filed. -/
lemma addConstruct_forgetLastClass (d : Document) (c : Construct) :
    (d.forgetLastClass.addConstruct c).forgetLastClass = (d.addConstruct c).forgetLastClass := by
  cases c with
  | leaf kind name line => rfl
  | branch header members =>
    rw [addConstruct, addConstruct]
    split
    · rfl
    · rfl

/-- **The constructs of a kind at the top are listed in the order of the source.** -/
theorem get_ofForest (legend : Legend) (forest : List Construct) (kind : Kind) :
    (ofForest legend forest).get kind
      = (forest.filter (·.group = kind)).map Construct.element := by
  suffices h : ∀ d : Document, (forest.foldl addConstruct d).get kind
      = d.get kind ++ (forest.filter (·.group = kind)).map Construct.element by
    rw [ofForest, h, get_withLegend, List.nil_append]
  induction forest with
  | nil => simp
  | cons c forest ih =>
    intro d
    rw [List.foldl_cons, ih, get_addConstruct]
    by_cases h : c.group = kind <;> simp [h]

end Document

/-! ## Marks of a forest -/

namespace Draft

/-- Files a construct in the innermost open class, or else at the top. -/
def fileConstruct (d : Draft) (c : Construct) : Draft :=
  match d.opened with
  | [] => { d with document := d.document.addConstruct c }
  | _ :: _ => d.file c.group c.element

/-- A forest that is filed at the top. -/
lemma foldl_fileConstruct_top (forest : List Construct) (document : Document) :
    forest.foldl fileConstruct ⟨document, []⟩ = ⟨forest.foldl .addConstruct document, []⟩ := by
  induction forest generalizing document with
  | nil => rfl
  | cons c forest ih => exact ih (document.addConstruct c)

/-- A forest that is filed in a class. -/
lemma foldl_fileConstruct_opened (forest : List Construct) (document : Document) (group : Kind)
    (body : Class) (outer : List OpenClass) :
    forest.foldl fileConstruct ⟨document, ⟨group, body⟩ :: outer⟩
      = ⟨document, ⟨group, Construct.fill body forest⟩ :: outer⟩ := by
  induction forest generalizing body with
  | nil =>
    rw [Construct.fill]
    rfl
  | cons c forest ih =>
    rw [Construct.fill]
    exact ih (body.add c.group c.element)

/-- A class that is left after its members is filed as a construct. -/
lemma leave_eq_fileConstruct (d : Draft) (header : Header) (members : List Construct) :
    leave ⟨d.document, ⟨header.group, Construct.fill header.toClass members⟩ :: d.opened⟩
      = d.fileConstruct (.branch header members) := by
  obtain ⟨document, opened⟩ := d
  cases opened with
  | nil => rfl
  | cons next outer =>
    rw [fileConstruct, Construct.element]
    rfl

mutual

/-- The marks of a construct file it.

**Proof sketch.** A leaf is filed in the innermost element that is open, or at the top. Entering a
branch opens an element, its members are filed there, and leaving files the element as one
construct. -/
theorem marks_construct (c : Construct) (d : Draft) : d.marks c.marks = d.fileConstruct c := by
  cases c with
  | leaf kind name line =>
    rw [Construct.marks]
    obtain ⟨document, opened⟩ := d
    cases opened with
    | nil => rfl
    | cons next outer =>
      rw [fileConstruct, Construct.element]
      rfl
  | branch header members =>
    have hmembers := marks_marksOf members (d.mark (.enter header))
    rw [Construct.marks, marks_cons, marks_append, hmembers, marks_cons, marks_nil]
    show leave (members.foldl fileConstruct
      ⟨d.document, ⟨header.group, header.toClass⟩ :: d.opened⟩) = _
    rw [foldl_fileConstruct_opened, leave_eq_fileConstruct]

/-- The marks of a forest file its constructs, one after the other. -/
theorem marks_marksOf (forest : List Construct) (d : Draft) :
    d.marks (Construct.marksOf forest) = forest.foldl fileConstruct d := by
  cases forest with
  | nil => rw [Construct.marksOf, marks_nil, List.foldl_nil]
  | cons c forest =>
    rw [Construct.marksOf, marks_append, marks_construct c d, marks_marksOf forest,
      List.foldl_cons]

end

/-- Constructs that are filed at the top unless one of their name is there are filed where it is
not.

**Proof sketch.** Induction on the entries. One whose name is there already is left out, and any
other one is filed like a leaf. -/
lemma marks_once {d : Draft} (hopened : d.opened = []) (kind : Kind)
    (entries : List (String × Nat)) :
    ∃ kept, kept.Sublist entries
      ∧ d.marks (entries.map fun entry => .once kind entry.1 entry.2)
        = d.marks (Construct.marksOf (Construct.leaves kind kept)) := by
  induction entries generalizing d with
  | nil => exact ⟨[], .slnil, rfl⟩
  | cons entry entries ih =>
    rw [List.map_cons, marks_cons]
    by_cases hthere : d.document.contains kind entry.1 = true
    · have hsame : d.mark (.once kind entry.1 entry.2) = d := if_pos hthere
      rw [hsame]
      obtain ⟨kept, hkept, hmarks⟩ := ih hopened
      exact ⟨kept, hkept.cons entry, hmarks⟩
    · have hleaf : d.mark (.once kind entry.1 entry.2) = d.mark (.leaf kind entry.1 entry.2) :=
        (if_neg hthere).trans (by rw [mark, file, hopened])
      have hopened' : (d.mark (.leaf kind entry.1 entry.2)).opened = [] := by
        rw [mark, file, hopened]
      obtain ⟨kept, hkept, hmarks⟩ := ih hopened'
      refine ⟨entry :: kept, hkept.cons_cons entry, ?_⟩
      rw [hleaf, hmarks, Construct.marksOf_leaves, Construct.marksOf_leaves]
      rfl

/-! ## The end of the source -/

/-- At the end of the source all classes are left, so it does not matter if some were left just
before. -/
lemma finish_leave (d : Draft) : d.leave.finish = d.finish := by
  cases hopened : d.opened with
  | nil =>
    rw [leave, hopened]
  | cons innermost outer =>
    have hlength : d.opened.length = d.leave.opened.length + 1 := by
      rw [length_opened_leave, hopened, List.length_cons, Nat.add_sub_cancel]
    rw [finish, finish, hlength, List.replicate_succ, marks_cons]
    rfl

/-- Leaving some of the open elements before the end makes no difference at the end. -/
lemma finish_marks_leave (n : Nat) (d : Draft) :
    (d.marks (List.replicate n .leave)).finish = d.finish := by
  induction n generalizing d with
  | zero => rfl
  | succ n ih =>
    rw [List.replicate_succ, marks_cons, ih]
    exact finish_leave d

end Draft

namespace Document

/-- Classes need not be left at the end of the marks. -/
lemma ofMarks_leave (legend : Legend) (list : List Mark) (n : Nat) :
    ofMarks legend (list ++ List.replicate n .leave) = ofMarks legend list := by
  rw [ofMarks, Draft.marks_append, Draft.finish_marks_leave, ofMarks]

/-- **The marks of a forest make its document.** -/
theorem ofMarks_forest (legend : Legend) (forest : List Construct) :
    ofMarks legend (Construct.marksOf forest) = ofForest legend forest := by
  rw [ofMarks, Draft.marks_marksOf, Draft.foldl_fileConstruct_top]
  rfl

/-- **The marks of a forest make its document**, also behind constructs that are filed unless their
name is there. -/
theorem ofMarks_once_forest (legend : Legend) (kind : Kind) (entries : List (String × Nat))
    (forest : List Construct) :
    ∃ kept, kept.Sublist entries
      ∧ ofMarks legend ((entries.map fun entry => .once kind entry.1 entry.2)
          ++ Construct.marksOf forest)
        = ofForest legend (Construct.leaves kind kept ++ forest) := by
  obtain ⟨kept, hkept, hmarks⟩ :=
    Draft.marks_once (d := { document := .withLegend legend }) rfl kind entries
  refine ⟨kept, hkept, ?_⟩
  rw [← ofMarks_forest, Construct.marksOf_append, ofMarks, Draft.marks_append, hmarks,
    ← Draft.marks_append]
  rfl

/-- Where all marks are of constructs without members, each of them is filed under its kind. -/
theorem mem_get_ofMarks_leaves {legend : Legend} {list : List Mark}
    (h : ∀ m ∈ list, ∃ kind name line, m = .leaf kind name line) {kind : Kind} {e : Element} :
    e ∈ (ofMarks legend list).get kind ↔ ∃ name line,
      Mark.leaf kind name line ∈ list ∧ e = Draft.leafOf kind name line := by
  obtain ⟨entries, rfl⟩ := Construct.exists_entries h
  rw [← Construct.marksOf_entries, ofMarks_forest, get_ofForest, Construct.marksOf_entries]
  simp only [List.mem_map, List.mem_filter, decide_eq_true_eq]
  constructor
  · rintro ⟨c, ⟨⟨⟨kind', name, line⟩, hentry, rfl⟩, rfl⟩, rfl⟩
    exact ⟨name, line, ⟨_, hentry, rfl⟩, by rw [Construct.element]; rfl⟩
  · rintro ⟨name, line, ⟨⟨kind', name', line'⟩, hentry, heq⟩, rfl⟩
    cases heq
    exact ⟨_, ⟨⟨_, hentry, rfl⟩, rfl⟩, by rw [Construct.element]⟩

end Document

end Outliner
