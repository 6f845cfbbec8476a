import Outliner.Proofs.Python.Interior

set_option autoImplicit false

/-!
# Texts of long literals in a Python source

What stands on a line of a long literal, a docstring say, is no code, whatever it looks like. The
reader carries the same along after the line as before it, with the same classes and functions open,
and the document of the source does not depend on the line.

## Main definitions

* `Outliner.Python.stateAfter` — what is carried along after the lines of a source.

## Main results

* `Outliner.Python.readLine_text` — a line of a long literal does nothing.
* `Outliner.Language.scan_python_docstring` — the text of a long literal makes no difference.
-/

namespace Outliner

namespace Python

/-! ## Backslashes at the ends of lines -/

/-- Where a backslash has ended a line, no literal is open, and nothing more is read of the line. -/
def EndsLine (l : Lexical) (rest : List Char) : Prop :=
  l.continued = true → l.string = none ∧ rest = []

/-- Where no backslash ends the line, there is nothing to tell. -/
lemma endsLine_of_not_continued {l : Lexical} {rest : List Char} (h : l.continued = false) :
    EndsLine l rest := fun hcontinued => absurd hcontinued (by simp [h])

/-- Only a backslash outside literals ends a line, and it is the last character of the line.

**Proof sketch.** In a literal no backslash is followed to the next line. In code a step sees one
only at a backslash that is the last character of the line. -/
lemma EndsLine.step {s : Scan} {c : Cursor} {ch : Char} (h : EndsLine s.lexical c.after)
    (hch : c.peek? = some ch) (begins : Bool) :
    EndsLine (Python.step begins s c ch).state.lexical
      (Python.step begins s c ch).cursor.after := by
  have hmore : s.lexical.continued = false := by
    refine Bool.eq_false_iff.2 fun hcontinued => ?_
    rw [Cursor.peek?, (h hcontinued).2] at hch
    exact absurd hch (by simp)
  unfold Python.step
  split
  · simp only [stringStep]
    repeat' split
    all_goals exact endsLine_of_not_continued hmore
  · next hstring =>
    simp only [codeStep]
    repeat' split
    all_goals first
      | exact endsLine_of_not_continued hmore
      | exact fun _ => ⟨hstring, Cursor.isAtEnd_iff.1 ‹_›⟩

/-- No long literal is open where a backslash carries a statement over the end of a line. -/
lemma continued_scanLine {before : Lexical} {line : List Char} {quote : Char}
    (h : (scanLine before line).lexical.string = some quote) :
    (scanLine before line).lexical.continued = false := by
  have hends : EndsLine (scanLine before line).lexical [] :=
    scanLine_invariant (fun _ _ _ hch hs => hs.step hch _) (endsLine_of_not_continued rfl)
  refine Bool.eq_false_iff.2 fun hcontinued => ?_
  rw [(hends hcontinued).1] at h
  exact absurd h (by simp)

/-- Where a long literal is open, no backslash carries a statement on. -/
lemma continued_lexicalBefore {lines : List (List Char)} {k : Nat} (hk : k ≤ lines.length)
    {quote : Char} (h : (lexicalBefore lines k).string = some quote) :
    (lexicalBefore lines k).continued = false := by
  cases k with
  | zero => rfl
  | succ k =>
    rw [lexicalBefore_succ (List.getElem?_eq_getElem hk)] at h ⊢
    exact continued_scanLine h

/-! ## Lines of a long literal -/

/-- A character that stands for itself in a long literal is passed over. -/
lemma step_of_text {s : Scan} {quote ch : Char} (hstring : s.lexical.string = some quote)
    (hquote : ch ≠ quote) (hescape : ch ≠ '\\') (begins : Bool) (before rest : List Char) :
    Python.step begins s ⟨before, ch :: rest⟩ ch
      = { state := s, cursor := ⟨ch :: before, rest⟩ } := by
  have heat : Cursor.eat? (tripled quote) ⟨before, ch :: rest⟩ = none :=
    if_neg (Bool.eq_false_iff.1 (Cursor.startsWith_of_ne hquote before rest _))
  rw [Python.step, hstring]
  simp only [stringStep, if_neg hescape, heat]
  rfl

/-- **The text of a long literal does nothing**, as long as neither its quote nor a backslash stands
in it.

**Proof sketch.** Each character is passed over, so that what is carried along stays as it is, and
no statement begins where a literal is open. -/
lemma readLine_text {state : State} {quote : Char} (hstring : state.lexical.string = some quote)
    (hcontinued : state.lexical.continued = false) {text : List Char} (hquote : quote ∉ text)
    (hescape : '\\' ∉ text) (line : Nat) : readLine state line text = (state, []) := by
  have hstart : { state.lexical with continued := false } = state.lexical := by
    rw [← hcontinued]
  have hlexical : (scanLine state.lexical text).lexical = state.lexical := by
    refine (scanLine_invariant
      (J := fun l rest => l = state.lexical ∧ quote ∉ rest ∧ '\\' ∉ rest) ?_
      ⟨hstart, hquote, hescape⟩).1
    rintro s ⟨before, after⟩ ch hch ⟨hs, hquote, hescape⟩
    obtain ⟨rest, rfl⟩ := List.head?_eq_some_iff.1 hch
    rw [List.mem_cons, not_or] at hquote hescape
    rw [step_of_text (hs ▸ hstring) (Ne.symm hquote.1) (Ne.symm hescape.1)]
    exact ⟨hs, hquote.2, hescape.2⟩
  have hnot : state.lexical.atStatement = false := by simp [Lexical.atStatement, hstring]
  rw [readLine_eq, statementLine?_of_not_atStatement hnot, hlexical]
  rfl

/-- The state after the lines of a source. -/
def stateAfter (lines : List (List Char)) : State := (readBefore lines lines.length).1

/-- The state after the lines is the one in which the reader leaves them. -/
lemma stateAfter_eq (lines : List (List Char)) :
    stateAfter lines = (readLines readLine 0 {} lines).1 := by
  rw [stateAfter, readBefore, List.take_length]

section Text

variable {before : List (List Char)} {quote : Char} {text : List Char}

/-- A line of a long literal leaves the state as it is, and nothing is found on it. -/
lemma readLine_stateAfter (hstring : (stateAfter before).lexical.string = some quote)
    (hquote : quote ∉ text) (hescape : '\\' ∉ text) (line : Nat) :
    readLine (stateAfter before) line text = (stateAfter before, []) := by
  have hlexical : (stateAfter before).lexical = lexicalBefore before before.length :=
    lexical_readBefore (Nat.le_refl before.length)
  refine readLine_text hstring ?_ hquote hescape line
  rw [hlexical] at hstring ⊢
  exact continued_lexicalBefore (Nat.le_refl before.length) hstring

/-- A line in a long literal leaves the state alone, unless it holds the quote or a backslash. -/
lemma stateAfter_text (hstring : (stateAfter before).lexical.string = some quote)
    (hquote : quote ∉ text) (hescape : '\\' ∉ text) :
    stateAfter (before ++ [text]) = stateAfter before := by
  have hread := readLine_stateAfter hstring hquote hescape (0 + before.length)
  rw [stateAfter_eq] at hread
  rw [stateAfter_eq, stateAfter_eq, readLines_append, readLines, hread]
  rfl

/-- The marks of a source do not depend on a line of a long literal. -/
lemma marks_text (hstring : (stateAfter before).lexical.string = some quote)
    (hquote : quote ∉ text) (hescape : '\\' ∉ text) (after : List (List Char)) :
    marks (before ++ text :: after)
      = marks before ++ (readLines readLine (before.length + 1) (stateAfter before) after).2 := by
  have hread := readLine_stateAfter hstring hquote hescape (0 + before.length)
  rw [stateAfter_eq] at hread ⊢
  rw [marks, readLines_append, readLines, hread, Nat.zero_add]
  rfl

end Text

end Python

namespace Language

/-- **The text of a long literal makes no difference.** A line of the literal leaves what is carried
along as it is, and with another text in its place the document is the same.

**Proof sketch.** Nothing is found on such a line, whatever stands on it (`Python.readLine_text`),
so that the lines after it are read in the same state. -/
theorem scan_python_docstring (before after : List String) {quote : Char} {text text' : String}
    (hstring : (Python.stateAfter (before.map String.toList)).lexical.string = some quote)
    (htext : quote ∉ text.toList ∧ '\\' ∉ text.toList)
    (htext' : quote ∉ text'.toList ∧ '\\' ∉ text'.toList) :
    python.scan (before ++ text :: after) = python.scan (before ++ text' :: after)
      ∧ Python.stateAfter ((before ++ [text]).map String.toList)
        = Python.stateAfter (before.map String.toList) := by
  have hmarks := Python.marks_text hstring htext.1 htext.2 (after.map String.toList)
  have hmarks' := Python.marks_text hstring htext'.1 htext'.2 (after.map String.toList)
  constructor
  · show Document.ofMarks Python.legend (Python.marks _)
      = Document.ofMarks Python.legend (Python.marks _)
    rw [List.map_append, List.map_cons, hmarks, List.map_append, List.map_cons, hmarks']
  · rw [List.map_append]
    exact Python.stateAfter_text hstring htext.1 htext.2

/-- A function and a blank line in the long literal of a class that goes on after it. -/
theorem scan_python_docstring_function :
    let before := ["class A:", "    \'\'\'"]
    let after := ["\'\'\'", "    x = 0"]
    (Python.stateAfter (before.map String.toList)).lexical.string = some '\''
      ∧ ('\'' ∉ "def f():".toList ∧ '\\' ∉ "def f():".toList)
      ∧ ('\'' ∉ "".toList ∧ '\\' ∉ "".toList)
      ∧ python.scan (before ++ "def f():" :: after) = python.scan (before ++ "" :: after)
      ∧ Python.stateAfter ((before ++ ["def f():"]).map String.toList)
        = Python.stateAfter (before.map String.toList) := by
  intro before after
  have hstring :
      (Python.stateAfter (before.map String.toList)).lexical.string = some '\'' := by
    decide +kernel
  have hfunction : '\'' ∉ "def f():".toList ∧ '\\' ∉ "def f():".toList := by decide
  have hblank : '\'' ∉ "".toList ∧ '\\' ∉ "".toList := by decide
  exact ⟨hstring, hfunction, hblank, scan_python_docstring before after hstring hfunction hblank⟩

end Language

end Outliner
