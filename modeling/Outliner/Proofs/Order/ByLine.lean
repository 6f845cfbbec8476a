import Outliner.Proofs.Order.Reading
import Outliner.Proofs.Renumbering.ByLine

set_option autoImplicit false

/-!
# The order of marks in sources read line by line

All marks of these sources name the line on which they are found, so they come in the right order.
What remains to be seen is under which kinds classes are filed.

## Main results

* `Outliner.Batch.marks_precedes`, `Outliner.Batch.marks_fits` and their like — the marks of a
  source come in the right order.
-/

namespace Outliner

variable {lines : List (List Char)} {entered : Kind → Prop}

/-! ## Batch files and shell scripts -/

namespace Batch

/-- The marks of a batch file come in the order of their lines. -/
theorem marks_precedes : (marks lines).Pairwise (Mark.Precedes entered) :=
  eachLine_precedes (fun i text => Mark.onLine_of_renumber (lineMarks_renumber (fun _ => i) i text))
    lines

/-- A batch file has but leaves. -/
theorem marks_fits : ∀ m ∈ marks lines, m.Fits enteredNever := by
  intro m hm
  obtain ⟨i, text, -, hm⟩ := mem_eachLine hm
  obtain ⟨name, -, rfl⟩ := Option.map_eq_some_iff.1 (Option.mem_toList.1 hm)
  exact id

end Batch

namespace Shell

/-- The marks of a shell script come in the order of their lines. -/
theorem marks_precedes : (marks lines).Pairwise (Mark.Precedes entered) :=
  eachLine_precedes (fun i text => Mark.onLine_of_renumber (lineMarks_renumber (fun _ => i) i text))
    lines

/-- A shell script has but leaves. -/
theorem marks_fits : ∀ m ∈ marks lines, m.Fits enteredNever := by
  intro m hm
  obtain ⟨i, text, -, hm⟩ := mem_eachLine hm
  obtain ⟨name, -, rfl⟩ := Option.map_eq_some_iff.1 (Option.mem_toList.1 hm)
  exact id

end Shell

/-! ## Configuration files -/

namespace Ini

/-- Sections are filed under their kind. -/
def enteredKinds : Kind → Prop := fun kind => kind = .sections

/-- The marks of a configuration file come in the order of their lines. -/
theorem marks_precedes : (marks lines).Pairwise (Mark.Precedes entered) :=
  eachLine_precedes (fun i text => Mark.onLine_of_renumber (lineMarks_renumber (fun _ => i) i text))
    lines

/-- Only sections are entered in a configuration file. -/
theorem marks_fits : ∀ m ∈ marks lines, m.Fits enteredKinds := by
  intro m hm
  obtain ⟨i, text, -, hm⟩ := mem_eachLine hm
  unfold lineMarks at hm
  split at hm
  · exact absurd hm List.not_mem_nil
  · simp only [List.mem_cons, List.not_mem_nil, or_false] at hm
    rcases hm with rfl | rfl
    · trivial
    · exact rfl
  · obtain rfl := List.mem_singleton.1 hm
    trivial

end Ini

/-! ## Installer scripts -/

namespace Nsis

/-- The marks of a line are on the line. -/
lemma readLine_onLine (inComment : Bool) (i : Nat) (text : List Char) :
    ∀ m ∈ (readLine inComment i text).2, m.OnLine i :=
  Mark.onLine_of_renumber (congrArg Prod.snd (readLine_renumber (fun _ => i) inComment i text))

/-- The marks of an installer script come in the order of their lines. -/
theorem marks_precedes : (marks lines).Pairwise (Mark.Precedes entered) :=
  readLines_precedes readLine_onLine false lines

/-- An installer script has but leaves. -/
theorem marks_fits : ∀ m ∈ marks lines, m.Fits enteredNever := by
  refine readLines_found (fun inComment i text _ => ?_) _
  unfold readLine
  split
  · simp
  · split
    · simp
    · intro m hm
      obtain ⟨found, -, rfl⟩ := Option.map_eq_some_iff.1 (Option.mem_toList.1 hm)
      trivial

end Nsis

/-! ## Perl sources -/

namespace Perl

/-- Packages are filed with the classes. -/
def enteredKinds : Kind → Prop := fun kind => kind = .classes

/-- The marks of a line are on the line. -/
lemma readLine_onLine (s : State) (i : Nat) (text : List Char) :
    ∀ m ∈ (readLine s i text).2, m.OnLine i :=
  Mark.onLine_of_renumber (congrArg Prod.snd (readLine_renumber (fun _ => i) s i text))

/-- The marks of a Perl source come in the order of their lines. -/
theorem marks_precedes : (marks lines).Pairwise (Mark.Precedes entered) :=
  readLines_precedes readLine_onLine {} lines

/-- A statement enters nothing but a package.

**Proof sketch.** Statement by statement. A package is entered as a class; all other marks are
leaves or lead out of a package. -/
lemma declare_fits (s : State) (i : Nat) (statement : Statement) :
    ∀ m ∈ (declare s i statement).2, m.Fits enteredKinds := by
  intro m hm
  cases statement with
  | package name =>
    simp only [declare] at hm
    split at hm
    · simp only [List.mem_cons, List.not_mem_nil, or_false] at hm
      rcases hm with rfl | rfl
      · trivial
      · trivial
    · split at hm
      · exact absurd hm List.not_mem_nil
      · simp only [List.mem_cons, List.not_mem_nil, or_false] at hm
        rcases hm with rfl | rfl
        · trivial
        · exact rfl
  | subroutine name =>
    simp only [declare] at hm
    split at hm
    · exact absurd hm List.not_mem_nil
    · obtain rfl := List.mem_singleton.1 hm
      trivial
  | vars names =>
    obtain ⟨name, -, rfl⟩ := List.mem_map.1 hm
    trivial
  | other => exact absurd hm List.not_mem_nil

/-- Only packages are entered in a Perl source. -/
theorem marks_fits : ∀ m ∈ marks lines, m.Fits enteredKinds := by
  refine readLines_found (fun s i text _ => ?_) _
  unfold readLine
  split
  · simp
  · simp
  · split
    · simp
    · dsimp only
      split
      · simp
      · split
        · simp
        · exact declare_fits s i _

end Perl

/-! ## Tcl scripts -/

namespace Tcl

/-- Name spaces and classes are filed under their kinds. -/
def enteredKinds : Kind → Prop := fun kind => kind = .namespaces ∨ kind = .classes

/-- The marks of a line are on the line. -/
lemma readLine_onLine (s : State) (i : Nat) (text : List Char) :
    ∀ m ∈ (readLine s i text).2, m.OnLine i :=
  Mark.onLine_of_renumber (congrArg Prod.snd (readLine_renumber (fun _ => i) s i text))

/-- The marks of a Tcl source come in the order of their lines. -/
theorem marks_precedes : (marks lines).Pairwise (Mark.Precedes entered) :=
  readLines_precedes readLine_onLine {} lines

/-- A command enters nothing but a namespace or a class. -/
lemma declare_fits (s : State) (i : Nat) (command : Command) :
    ∀ m ∈ (declare s i command).2, m.Fits enteredKinds := by
  intro m hm
  cases command with
  | procedure name =>
    simp only [declare] at hm
    split at hm
    · exact absurd hm List.not_mem_nil
    · obtain rfl := List.mem_singleton.1 hm
      trivial
  | method name =>
    simp only [declare] at hm
    split at hm
    · obtain rfl := List.mem_singleton.1 hm
      trivial
    · exact absurd hm List.not_mem_nil
  | nameSpace name =>
    obtain rfl := List.mem_singleton.1 hm
    exact .inl rfl
  | classOf name =>
    obtain rfl := List.mem_singleton.1 hm
    exact .inr rfl
  | other => exact absurd hm List.not_mem_nil

/-- Only namespaces and classes are entered in a Tcl source. -/
theorem marks_fits : ∀ m ∈ marks lines, m.Fits enteredKinds := by
  refine readLines_found (fun s i text _ => ?_) _
  unfold readLine
  dsimp only
  split
  · simp
  · intro m hm
    rcases List.mem_append.1 hm with hm | hm
    · exact declare_fits s i _ m hm
    · obtain rfl := List.eq_of_mem_replicate hm
      trivial

end Tcl

/-! ## LaTeX documents -/

namespace Latex

/-- The marks of a LaTeX document come in the order of their lines. -/
theorem marks_precedes : (marks lines).Pairwise (Mark.Precedes entered) :=
  eachLine_precedes (fun i text => Mark.onLine_of_renumber (lineMarks_renumber (fun _ => i) i text))
    lines

section Forall

variable {P : Mark → Prop} (hleaf : ∀ kind, kind ≠ .macros → ∀ name i, P (.leaf kind name i))
  (honce : ∀ name i, P (.once .macros name i))

include hleaf in
/-- What is named by a command is a leaf of its kind, so what holds of leaves other than macros
holds of it. -/
lemma forall_named {kind : Kind} (hkind : kind ≠ .macros) (i : Nat) (c : Cursor) :
    ∀ m ∈ (named kind i c).found, P m := by
  unfold named
  split
  · simp
  · dsimp only
    split
    · simp
    · intro m hm
      obtain rfl := List.mem_singleton.1 hm
      exact hleaf kind hkind _ i

include honce in
/-- What holds of leaves and of macros that are filed once holds of what is found in a definition.
-/
lemma forall_definition (i : Nat) (c : Cursor) : ∀ m ∈ (definition i c).found, P m := by
  simp only [definition]
  split
  · simp
  · dsimp only
    split
    · simp
    · intro m hm
      obtain rfl := List.mem_singleton.1 hm
      exact honce _ i

include hleaf honce

/-- What holds of leaves and of macros that are filed once holds of what is found in a step. -/
lemma forall_step (i : Nat) (u : Unit) (c : Cursor) (ch : Char) :
    ∀ m ∈ (step i u c ch).found, P m := by
  unfold step
  split
  · simp
  · dsimp only
    split
    · simp
    · split
      · exact forall_named hleaf (by decide) i _
      · split
        · exact forall_definition honce i _
        · split
          · exact forall_named hleaf (by decide) i _
          · simp

/-- The marks of a document are its parts and environments, and macros that are reported once. -/
theorem forall_marks : ∀ m ∈ marks lines, P m := by
  intro m hm
  obtain ⟨i, text, -, hm⟩ := mem_eachLine hm
  exact (Cursor.walk_keeps (I := fun _ => True)
    (fun u c ch _ => ⟨trivial, forall_step hleaf honce i u c ch⟩) trivial _).found m hm

end Forall

/-- A LaTeX document has but leaves. -/
theorem marks_fits : ∀ m ∈ marks lines, m.Fits enteredNever :=
  forall_marks (fun _ _ _ _ => trivial) fun _ _ => id

end Latex

end Outliner
