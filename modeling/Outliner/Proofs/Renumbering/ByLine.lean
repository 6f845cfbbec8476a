import Outliner.ByLine.Batch
import Outliner.ByLine.Ini
import Outliner.ByLine.Latex
import Outliner.ByLine.Nsis
import Outliner.ByLine.Perl
import Outliner.ByLine.Shell
import Outliner.ByLine.Tcl
import Outliner.Proofs.Renumbering.Reading

set_option autoImplicit false

/-!
# Other line numbers in sources read line by line

What these readers make of a line does not depend on its number; they only put it into the marks.
None of them carries a number from one line to the next.

## Main results

* `Outliner.Batch.lineMarks_renumber` and its like — the marks of a line under another number.
* `Outliner.Batch.marks_shift` and its like — the marks of a source after empty lines.
-/

namespace Outliner

variable (f : Nat → Nat)

/-- What is found on a line, once or not at all, with another number. -/
lemma map_toList_renumber {α : Type} (found : Option α) (mark : Nat → α → Mark) (i j : Nat)
    (h : ∀ a, mark j a = (mark i a).renumber f) :
    (found.map (mark j)).toList = ((found.map (mark i)).toList).map (Mark.renumber f) := by
  cases found with
  | none => rfl
  | some a => simp [h]

/-! ## Batch files and shell scripts -/

namespace Batch

/-- The marks of a line are renumbered with the line. -/
lemma lineMarks_renumber (i : Nat) (text : List Char) :
    lineMarks (f i) text = (lineMarks i text).map (Mark.renumber f) :=
  map_toList_renumber f (label? text) (fun i name => .once .labels (.ofList name) i) i (f i)
    fun _ => rfl

/-- Empty lines before a source move its marks. -/
theorem marks_shift (k : Nat) (lines : List (List Char)) :
    marks (List.replicate k [] ++ lines) = (marks lines).map (Mark.renumber (· + k)) :=
  eachLine_shift Mark.renumber (fun _ => rfl) lineMarks_renumber k lines

end Batch

namespace Shell

/-- The marks of a line are renumbered with the line. -/
lemma lineMarks_renumber (i : Nat) (text : List Char) :
    lineMarks (f i) text = (lineMarks i text).map (Mark.renumber f) :=
  map_toList_renumber f (functionName? text) (fun i name => .once .functions (.ofList name) i) i
    (f i) fun _ => rfl

/-- Empty lines before a source move its marks. -/
theorem marks_shift (k : Nat) (lines : List (List Char)) :
    marks (List.replicate k [] ++ lines) = (marks lines).map (Mark.renumber (· + k)) :=
  eachLine_shift Mark.renumber (fun _ => rfl) lineMarks_renumber k lines

end Shell

/-! ## Configuration files -/

namespace Ini

/-- The marks of a line are renumbered with the line. -/
lemma lineMarks_renumber (i : Nat) (text : List Char) :
    lineMarks (f i) text = (lineMarks i text).map (Mark.renumber f) := by
  rw [lineMarks, lineMarks]
  rcases entry? text with _ | name | name
  · rfl
  · rfl
  · rfl

/-- Empty lines before a source move its marks. -/
theorem marks_shift (k : Nat) (lines : List (List Char)) :
    marks (List.replicate k [] ++ lines) = (marks lines).map (Mark.renumber (· + k)) :=
  eachLine_shift Mark.renumber (fun _ => rfl) lineMarks_renumber k lines

end Ini

/-! ## LaTeX documents -/

namespace Latex

/-- What is named by a command is renumbered with the line. -/
lemma named_renumber (kind : Kind) (i : Nat) (c : Cursor) :
    named kind (f i) c = (named kind i c).map id (Mark.renumber f) := by
  rw [named, named]
  rcases argument? c with _ | ⟨name, after⟩
  · rfl
  · simp only [Cursor.Step.map, id, apply_ite (List.map (Mark.renumber f))]
    rfl

/-- A part of the document is renumbered with the line. -/
lemma documentPart_renumber (i : Nat) (c : Cursor) :
    documentPart (f i) c = (documentPart i c).map id (Mark.renumber f) :=
  named_renumber f _ _ _

/-- So is a definition. -/
lemma definition_renumber (i : Nat) (c : Cursor) :
    definition (f i) c = (definition i c).map id (Mark.renumber f) := by
  simp only [definition]
  split
  · rfl
  · simp only [Cursor.Step.map, id, apply_ite (List.map (Mark.renumber f))]
    rfl

/-- A step is renumbered with the line. -/
lemma step_renumber (i : Nat) (u : Unit) (c : Cursor) (ch : Char) :
    step (f i) u c ch = (step i u c ch).map id (Mark.renumber f) := by
  simp only [step]
  split
  · rfl
  · refine Cursor.Step.ite_map rfl (Cursor.Step.ite_map ?_ (Cursor.Step.ite_map ?_
      (Cursor.Step.ite_map ?_ rfl)))
    · exact documentPart_renumber f i _
    · exact definition_renumber f i _
    · exact named_renumber f _ i _

/-- The marks of a line are renumbered with the line. -/
lemma lineMarks_renumber (i : Nat) (text : List Char) :
    lineMarks (f i) text = (lineMarks i text).map (Mark.renumber f) :=
  congrArg Prod.snd
    (Cursor.walk_map (step_renumber f i) () (.start (uncomment text)))

/-- An empty line has no marks. -/
lemma lineMarks_nil (i : Nat) : lineMarks i [] = [] :=
  congrArg Prod.snd (Cursor.walk_end (step i) () rfl)

/-- Empty lines before a source move its marks. -/
theorem marks_shift (k : Nat) (lines : List (List Char)) :
    marks (List.replicate k [] ++ lines) = (marks lines).map (Mark.renumber (· + k)) :=
  eachLine_shift Mark.renumber lineMarks_nil lineMarks_renumber k lines

end Latex

/-! ## Installer scripts -/

namespace Nsis

/-- A line is read as before, with its marks renumbered. -/
lemma readLine_renumber (inComment : Bool) (i : Nat) (text : List Char) :
    readLine inComment (f i) text
      = Prod.map id (List.map (Mark.renumber f)) (readLine inComment i text) := by
  rw [readLine, readLine]
  rcases uncomment inComment text with _ | code
  · rfl
  · simp only [apply_ite (Prod.map id (List.map (Mark.renumber f)))]
    congr 1
    refine Prod.ext rfl ?_
    exact map_toList_renumber f (declaration? code)
      (fun i declared => .leaf declared.1 (.ofList declared.2) i) i (f i) fun _ => rfl

/-- Empty lines before a source move its marks. -/
theorem marks_shift (k : Nat) (lines : List (List Char)) :
    marks (List.replicate k [] ++ lines) = (marks lines).map (Mark.renumber (· + k)) :=
  readLines_shift (fun _ => id) Mark.renumber (fun _ => rfl) (fun _ => rfl) readLine_renumber k lines

end Nsis

/-! ## Perl sources -/

namespace Perl

/-- What a statement declares is renumbered with the line. -/
lemma declare_renumber (s : State) (i : Nat) (statement : Statement) :
    declare s (f i) statement
      = Prod.map id (List.map (Mark.renumber f)) (declare s i statement) := by
  cases statement with
  | package name =>
    simp only [declare, apply_ite (Prod.map id (List.map (Mark.renumber f)))]
    rfl
  | subroutine name =>
    simp only [declare, apply_ite (Prod.map id (List.map (Mark.renumber f)))]
    rfl
  | vars names =>
    simp only [declare, Prod.map, List.map_map]
    rfl
  | other => rfl

/-- A line is read as before, with its marks renumbered. -/
lemma readLine_renumber (s : State) (i : Nat) (text : List Char) :
    readLine s (f i) text = Prod.map id (List.map (Mark.renumber f)) (readLine s i text) := by
  rw [readLine, readLine]
  split
  · rfl
  · rfl
  · simp only [apply_ite (Prod.map id (List.map (Mark.renumber f))), declare_renumber]
    rfl

/-- Empty lines before a source move its marks. -/
theorem marks_shift (k : Nat) (lines : List (List Char)) :
    marks (List.replicate k [] ++ lines) = (marks lines).map (Mark.renumber (· + k)) :=
  readLines_shift (fun _ => id) Mark.renumber (fun _ => rfl) (fun _ => rfl) readLine_renumber k lines

end Perl

/-! ## Tcl scripts -/

namespace Tcl

/-- What a command declares is renumbered with the line. -/
lemma declare_renumber (s : State) (i : Nat) (command : Command) :
    declare s (f i) command = Prod.map id (List.map (Mark.renumber f)) (declare s i command) := by
  cases command with
  | procedure name =>
    simp only [declare, Prod.map, apply_ite (List.map (Mark.renumber f))]
    rfl
  | method name =>
    simp only [declare, Prod.map, apply_ite (List.map (Mark.renumber f))]
    rfl
  | nameSpace name => rfl
  | classOf name => rfl
  | other => rfl

/-- A line is read as before, with its marks renumbered. -/
lemma readLine_renumber (s : State) (i : Nat) (text : List Char) :
    readLine s (f i) text = Prod.map id (List.map (Mark.renumber f)) (readLine s i text) := by
  simp only [readLine, declare_renumber, apply_ite (Prod.map id (List.map (Mark.renumber f)))]
  congr 1
  have hleave : ∀ n,
      (List.replicate n Mark.leave).map (Mark.renumber f) = List.replicate n .leave :=
    fun n => List.map_replicate
  simp only [Prod.map, id, settle, List.map_append, hleave]

/-- Empty lines before a source move its marks. -/
theorem marks_shift (k : Nat) (lines : List (List Char)) :
    marks (List.replicate k [] ++ lines) = (marks lines).map (Mark.renumber (· + k)) :=
  readLines_shift (fun _ => id) Mark.renumber (fun _ => rfl) (fun _ => rfl) readLine_renumber k lines

end Tcl

end Outliner
