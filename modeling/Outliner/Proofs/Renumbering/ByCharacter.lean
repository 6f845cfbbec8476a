import Outliner.ByCharacter.Lua
import Outliner.ByCharacter.Php
import Outliner.ByCharacter.Python
import Outliner.ByCharacter.StyleSheet
import Outliner.ByCharacter.Verilog
import Outliner.Proofs.Renumbering.Reading

set_option autoImplicit false

/-!
# Other line numbers in sources read character by character

These readers may carry a number from one line to the next: the line of a class header that waits
for its brace, of a declaration whose name is still to come, of a selector that goes on. Under other
numbers they carry the other number and decide everything else as before.

## Main definitions

* `Outliner.Php.State.renumber`, `Outliner.StyleSheet.State.renumber`,
  `Outliner.Verilog.State.renumber` — what is carried along under other numbers.

## Main results

* `Outliner.Lua.readLine_renumber` and its like — a line read under another number.
* `Outliner.Lua.marks_shift` and its like — the marks of a source after empty lines.
-/

namespace Outliner

variable (f : Nat → Nat)

/-! ## Lua sources -/

namespace Lua

/-- A function is marked under the other number. -/
lemma functionMarks_renumber (name : List Char) (i : Nat) :
    functionMarks name (f i) = (functionMarks name i).map (Mark.renumber f) := by
  simp only [functionMarks, apply_ite (List.map (Mark.renumber f))]
  rfl

/-- A step at a name under another number. -/
lemma nameStep_renumber (i : Nat) (c : Cursor) :
    nameStep (f i) c = (nameStep i c).map id (Mark.renumber f) := by
  simp only [nameStep]
  refine Cursor.Step.ite_map ?_ ?_
  · rw [functionMarks_renumber]
    rfl
  · split
    · rw [functionMarks_renumber]
      rfl
    · rfl

/-- A step under another number. -/
lemma step_renumber (i : Nat) (s : Option Nat) (c : Cursor) (ch : Char) :
    step (f i) s c ch = (step i s c ch).map id (Mark.renumber f) := by
  unfold step
  split
  · rfl
  · split
    · split <;> rfl
    · refine Cursor.Step.ite_map rfl (Cursor.Step.ite_map ?_ (Cursor.Step.ite_map ?_ rfl))
      · split <;> rfl
      · exact nameStep_renumber f i c

/-- A line read under another number. -/
lemma readLine_renumber (s : Option Nat) (i : Nat) (text : List Char) :
    readLine s (f i) text = Prod.map id (List.map (Mark.renumber f)) (readLine s i text) :=
  Cursor.walk_map (step_renumber f i) s (.start text)

/-- Empty lines in front of a Lua source shift the lines of its marks. -/
theorem marks_shift (k : Nat) (lines : List (List Char)) :
    marks (List.replicate k [] ++ lines) = (marks lines).map (Mark.renumber (· + k)) :=
  readLines_shift (fun _ => id) Mark.renumber (fun _ => rfl)
    (fun i => Cursor.walk_end (step i) none rfl) readLine_renumber k lines

end Lua

/-! ## Python sources -/

namespace Python

/-- A statement is marked under the other number. -/
lemma declare_renumber (indent i : Nat) (s : State) (statement : Statement) :
    declare indent (f i) s statement
      = Prod.map id (List.map (Mark.renumber f)) (declare indent i s statement) := by
  rcases statement with (_ | name) | (_ | name) | name | _
  all_goals rfl

/-- A line read under another number. -/
lemma readLine_renumber (s : State) (i : Nat) (text : List Char) :
    readLine s (f i) text = Prod.map id (List.map (Mark.renumber f)) (readLine s i text) := by
  have hleft : ∀ indent (s : State),
      (settle indent s).2.map (Mark.renumber f) = (settle indent s).2 :=
    fun _ _ => List.map_replicate
  simp only [readLine, declare_renumber, apply_ite (Prod.map id (List.map (Mark.renumber f)))]
  congr 1
  simp only [Prod.map, id, List.map_append, hleft]

/-- An empty line at the beginning changes nothing. -/
lemma readLine_nil (i : Nat) : readLine {} i [] = ({}, []) := by
  have hscan : scanLine {} [] = { lexical := {} } := congrArg Prod.fst (Cursor.walk_end _ _ rfl)
  simp [readLine, hscan, trimStart]

/-- Empty lines in front of a Python source shift the lines of its marks. -/
theorem marks_shift (k : Nat) (lines : List (List Char)) :
    marks (List.replicate k [] ++ lines) = (marks lines).map (Mark.renumber (· + k)) :=
  readLines_shift (fun _ => id) Mark.renumber (fun _ => rfl) readLine_nil readLine_renumber k lines

end Python

/-! ## PHP sources -/

namespace Php

/-- The state where the header that waits for its brace has the line that `f` tells. -/
def State.renumber (s : State) : State := { s with pending := s.pending.map (Prod.map id f) }

/-- A function is marked under the other number. -/
lemma functionMarks_renumber (s : State) (name : List Char) (i : Nat) :
    functionMarks (s.renumber f) name (f i) = (functionMarks s name i).map (Mark.renumber f) := by
  simp only [functionMarks, apply_ite (List.map (Mark.renumber f))]
  rfl

/-- A step at a word under another number. -/
lemma wordStep_renumber (i : Nat) (s : State) (c : Cursor) :
    wordStep (f i) (s.renumber f) c
      = (wordStep i s c).map (State.renumber f) (Mark.renumber f) := by
  simp only [wordStep]
  refine Cursor.Step.ite_map rfl (Cursor.Step.ite_map ?_ (Cursor.Step.ite_map ?_
    (Cursor.Step.ite_map ?_ rfl)))
  · split <;> rfl
  · split
    · rw [functionMarks_renumber]
      rfl
    · rfl
  · simp only [Cursor.Step.map, apply_ite (List.map (Mark.renumber f))]
    rfl

/-- A class begins under the other number of its header. -/
lemma openBrace_renumber (s : State) :
    openBrace (s.renumber f)
      = Prod.map (State.renumber f) (List.map (Mark.renumber f)) (openBrace s) := by
  obtain ⟨mode, braces, classBraces, pending⟩ := s
  rcases pending with _ | ⟨name, line⟩
  · rfl
  · cases classBraces with
    | none => rfl
    | some outer => rfl

/-- A closing brace decides as before. -/
lemma closeBrace_renumber (s : State) :
    closeBrace (s.renumber f)
      = Prod.map (State.renumber f) (List.map (Mark.renumber f)) (closeBrace s) := by
  simp only [closeBrace, apply_ite (Prod.map (State.renumber f) (List.map (Mark.renumber f)))]
  rfl

/-- A step in code under another number. -/
lemma codeStep_renumber (i : Nat) (s : State) (c : Cursor) (ch : Char) :
    codeStep (f i) (s.renumber f) c ch
      = (codeStep i s c ch).map (State.renumber f) (Mark.renumber f) := by
  simp only [codeStep, openBrace_renumber, closeBrace_renumber, wordStep_renumber]
  iterate 9 refine Cursor.Step.ite_map rfl ?_
  rfl

/-- A step under another number. -/
lemma step_renumber (i : Nat) (s : State) (c : Cursor) (ch : Char) :
    step (f i) (s.renumber f) c ch = (step i s c ch).map (State.renumber f) (Mark.renumber f) := by
  obtain ⟨mode, braces, classBraces, pending⟩ := s
  cases mode with
  | page => exact Cursor.Step.ite_map rfl rfl
  | code => exact codeStep_renumber f i _ c ch
  | comment =>
    simp only [step, State.renumber, Cursor.Step.map]
    split <;> rfl
  | quoted quote =>
    simp only [step, State.renumber, Cursor.Step.map]
    split <;> rfl

/-- Properties are marked under the other number. -/
lemma propertyMarks_renumber (s : State) (i : Nat) (text : List Char) :
    propertyMarks (s.renumber f) (f i) text
      = (propertyMarks s i text).map (Mark.renumber f) := by
  simp only [propertyMarks, apply_ite (List.map (Mark.renumber f))]
  cases propertyName? text with
  | none => rfl
  | some name => rfl

/-- A line read under another number. -/
lemma readLine_renumber (s : State) (i : Nat) (text : List Char) :
    readLine (s.renumber f) (f i) text
      = Prod.map (State.renumber f) (List.map (Mark.renumber f)) (readLine s i text) := by
  simp only [readLine, Cursor.walk_map (step_renumber f i), propertyMarks_renumber, Prod.map,
    List.map_append]

/-- An empty line at the beginning changes nothing. -/
lemma readLine_nil (i : Nat) : readLine {} i [] = ({}, []) := by
  simp [readLine, Cursor.walk_end (step i) ({} : State) (c := .start []) rfl, propertyMarks]

/-- Empty lines in front of a PHP source shift the lines of its marks. -/
theorem marks_shift (k : Nat) (lines : List (List Char)) :
    marks (List.replicate k [] ++ lines) = (marks lines).map (Mark.renumber (· + k)) :=
  readLines_shift State.renumber Mark.renumber (fun _ => rfl) readLine_nil readLine_renumber k lines

end Php

/-! ## Style sheets -/

namespace StyleSheet

/-- The selector with the line that `f` tells. -/
def Selector.renumber (selector : Selector) : Selector := { selector with line := f selector.line }

/-- The piece with the line that `f` tells. -/
def Piece.renumber (piece : Piece) : Piece := { piece with line := f piece.line }

/-- The state where all selectors have the lines that `f` tells. -/
def State.renumber (s : State) : State :=
  { s with list := s.list.map (Selector.renumber f), piece := s.piece.map (Piece.renumber f) }

/-- A selector is made of its text under the other number. -/
lemma selector?_renumber (piece : Piece) :
    (piece.renumber f).selector? = piece.selector?.map (Selector.renumber f) := by
  simp only [Piece.selector?, apply_ite (Option.map (Selector.renumber f))]
  rfl

/-- A selector is ended under the other number. -/
lemma endSelector_renumber (s : State) : (s.renumber f).endSelector = s.endSelector.renumber f := by
  have hpiece : ((s.piece.map (Piece.renumber f)).bind Piece.selector?).toList
      = (s.piece.bind Piece.selector?).toList.map (Selector.renumber f) := by
    cases s.piece with
    | none => rfl
    | some piece =>
      simp only [Option.map_some, Option.bind_some, selector?_renumber]
      cases piece.selector? with
      | none => rfl
      | some selector => rfl
  simp only [State.endSelector, State.renumber, hpiece, List.map_append, Option.map_none]

/-- A selector is extended under the other number. -/
lemma extend_renumber (i : Nat) (text : List Char) (s : State) :
    (s.renumber f).extend (f i) text = (s.extend i text).renumber f := by
  simp only [State.extend, State.renumber]
  cases s.piece with
  | none => rfl
  | some piece => rfl

/-- A blank goes to the selector that is being read, if there is one. -/
lemma appendBlank_renumber (ch : Char) (s : State) :
    { s.renumber f with piece := (s.renumber f).piece.map (·.append [ch]) }
      = ({ s with piece := s.piece.map (·.append [ch]) } : State).renumber f := by
  simp only [State.renumber]
  cases s.piece with
  | none => rfl
  | some piece => rfl

/-- A step inside a block decides as before. -/
lemma blockStep_renumber (s : State) (c : Cursor) (ch : Char) :
    blockStep (s.renumber f) c ch
      = (blockStep s c ch).map (State.renumber f) (Selector.renumber f) := by
  iterate 3 refine Cursor.Step.ite_map rfl ?_
  rfl

/-- A step inside an at-rule decides as before. -/
lemma atRuleStep_renumber (nests : Bool) (s : State) (c : Cursor) (ch : Char) :
    atRuleStep nests (s.renumber f) c ch
      = (atRuleStep nests s c ch).map (State.renumber f) (Selector.renumber f) := by
  iterate 3 refine Cursor.Step.ite_map rfl ?_
  rfl

/-- A step among the selectors of a rule under another number. -/
lemma ruleStep_renumber (i : Nat) (s : State) (c : Cursor) (ch : Char) :
    ruleStep (f i) (s.renumber f) c ch
      = (ruleStep i s c ch).map (State.renumber f) (Selector.renumber f) := by
  have hfresh : (ch = '@' ∧ (s.renumber f).piece = none ∧ (s.renumber f).list = [])
      ↔ (ch = '@' ∧ s.piece = none ∧ s.list = []) := by
    simp [State.renumber]
  simp only [ruleStep, hfresh, endSelector_renumber, extend_renumber, appendBlank_renumber]
  iterate 7 refine Cursor.Step.ite_map rfl ?_
  rfl

/-- A step under another number. -/
lemma step_renumber (i : Nat) (s : State) (c : Cursor) (ch : Char) :
    step (f i) (s.renumber f) c ch
      = (step i s c ch).map (State.renumber f) (Selector.renumber f) := by
  have hblock : (s.renumber f).block = s.block := rfl
  have hatRule : (s.renumber f).atRule = s.atRule := rfl
  simp only [step, hblock, hatRule]
  refine Cursor.Step.ite_map rfl (Cursor.Step.ite_map rfl ?_)
  split
  · exact atRuleStep_renumber f _ s c ch
  · exact ruleStep_renumber f i s c ch
  · exact blockStep_renumber f s c ch

/-- A line read under another number. -/
lemma readLine_renumber (s : State) (i : Nat) (text : List Char) :
    readLine (s.renumber f) (f i) text
      = Prod.map (State.renumber f) (List.map (Selector.renumber f)) (readLine s i text) := by
  simp only [readLine, Cursor.walk_map (step_renumber f i), Prod.map, appendBlank_renumber]

/-- An empty line at the beginning changes nothing. -/
lemma readLine_nil (i : Nat) : readLine {} i [] = ({}, []) := by
  simp [readLine, Cursor.walk_end (step i) ({} : State) (c := .start []) rfl]

/-- Empty lines in front of a style sheet shift the lines of its selectors. -/
lemma selectors_shift (k : Nat) (lines : List (List Char)) :
    selectors (List.replicate k [] ++ lines)
      = (selectors lines).map (Selector.renumber (· + k)) :=
  readLines_shift State.renumber Selector.renumber (fun _ => rfl) readLine_nil readLine_renumber k
    lines

/-- Empty lines in front of a style sheet shift the lines of its marks. -/
theorem marks_shift (k : Nat) (lines : List (List Char)) :
    marks (List.replicate k [] ++ lines) = (marks lines).map (Mark.renumber (· + k)) := by
  rw [marks, selectors_shift, marks, List.flatMap_map, List.map_flatMap]
  congr 1
  funext selector
  rw [List.map_map]
  rfl

/-- Read as styles, the selectors are shifted as well. -/
theorem styleMarks_shift (k : Nat) (lines : List (List Char)) :
    styleMarks (List.replicate k [] ++ lines) = (styleMarks lines).map (Mark.renumber (· + k)) := by
  rw [styleMarks, selectors_shift, styleMarks, List.map_map, List.map_map]
  rfl

end StyleSheet

/-! ## Verilog sources -/

namespace Verilog

/-- The header with the line that `f` tells. -/
def PartialHeader.renumber (header : PartialHeader) : PartialHeader :=
  { header with line := f header.line }

/-- The state where the header that is being read has the line that `f` tells. -/
def State.renumber (s : State) : State :=
  { s with header := s.header.map (PartialHeader.renumber f) }

/-- A routine is marked under the other number. -/
lemma routineMark_renumber (routine : Routine) (owner : Option String) (units : List DesignUnit)
    (name : String) (i : Nat) :
    routineMark routine owner units name (f i)
      = (routineMark routine owner units name i).renumber f := by
  cases owner with
  | none => rfl
  | some owner => rfl

/-- A header ends under the other number.

**Proof sketch.** By the words of the header and what it declares. All cases but the routine hold by
definition. -/
lemma endHeader_renumber (s : State) :
    endHeader (s.renumber f)
      = Prod.map (State.renumber f) (List.map (Mark.renumber f)) (endHeader s) := by
  obtain ⟨inComment, braces, units, body, header, qualifiers⟩ := s
  rcases header with _ | ⟨declared, line, words, owner⟩
  · rfl
  · cases words with
    | nil => rfl
    | cons name words =>
      cases declared with
      | designUnit kind => rfl
      | routine kind isPrototype isExternal =>
        simp only [endHeader, State.renumber, Option.map_some, PartialHeader.renumber, Prod.map,
          apply_ite (List.map (Mark.renumber f)), routineMark_renumber]
        rfl
      | definition => rfl

/-- A word inside a header under another number. -/
lemma headerWord_renumber (s : State) (header : PartialHeader) (word : String) :
    headerWord (s.renumber f) (header.renumber f) word
      = Prod.map (State.renumber f) (List.map (Mark.renumber f)) (headerWord s header word) := by
  obtain ⟨declared, line, words, owner⟩ := header
  cases declared with
  | definition =>
    exact endHeader_renumber f { s with header := some ⟨.definition, line, word :: words, owner⟩ }
  | designUnit kind =>
    simp only [headerWord, PartialHeader.renumber,
      apply_ite (Prod.map (State.renumber f) (List.map (Mark.renumber f))), ← endHeader_renumber]
    rfl
  | routine kind isPrototype isExternal => rfl

/-- A word outside headers under another number. -/
lemma freeWord_renumber (s : State) (i : Nat) (word : String) :
    freeWord (s.renumber f) (f i) word
      = Prod.map (State.renumber f) (List.map (Mark.renumber f)) (freeWord s i word) := by
  have hunits : (s.renumber f).units = s.units := rfl
  have hqualifiers : (s.renumber f).qualifiers = s.qualifiers := rfl
  simp only [freeWord, hunits, hqualifiers]
  split
  · simp only [apply_ite (Prod.map (State.renumber f) (List.map (Mark.renumber f)))]
    rfl
  · rfl
  · split
    · simp only [apply_ite (Prod.map (State.renumber f) (List.map (Mark.renumber f)))]
      rfl
    · rfl

/-- A word under another number.

**Proof sketch.** In the body of a routine and between braces the numbers play no part. Else the
word is one of a header (`headerWord_renumber`) or stands outside headers (`freeWord_renumber`). -/
lemma word_renumber (s : State) (i : Nat) (text : String) :
    word (s.renumber f) (f i) text
      = Prod.map (State.renumber f) (List.map (Mark.renumber f)) (word s i text) := by
  obtain ⟨inComment, braces, units, body, header, qualifiers⟩ := s
  cases body with
  | some routine =>
    by_cases hend : text = routine.endWord
    · simp [word, State.renumber, hend]
    · simp [word, State.renumber, hend]
  | none =>
    by_cases hbraces : braces > 0
    · simp [word, State.renumber, hbraces]
    · cases header with
      | none =>
        simp only [word, State.renumber, hbraces, if_false, Option.map_none]
        exact freeWord_renumber f ⟨inComment, braces, units, none, none, qualifiers⟩ i text
      | some header =>
        simp only [word, State.renumber, hbraces, if_false, Option.map_some]
        exact headerWord_renumber f ⟨inComment, braces, units, none, some header, qualifiers⟩ header
          text

/-- The double colon decides as before. -/
lemma qualify_renumber (s : State) : qualify (s.renumber f) = (qualify s).renumber f := by
  obtain ⟨inComment, braces, units, body, header, qualifiers⟩ := s
  cases header with
  | none => rfl
  | some header => rfl

/-- A directive under another number. -/
lemma directiveStep_renumber (i : Nat) (s : State) (c : Cursor) :
    directiveStep (f i) (s.renumber f) c
      = (directiveStep i s c).map (State.renumber f) (Mark.renumber f) := by
  unfold directiveStep
  split
  · exact Cursor.Step.ite_map rfl rfl
  · rfl

/-- A step outside comments and strings under another number. -/
lemma codeStep_renumber (i : Nat) (s : State) (c : Cursor) (ch : Char) :
    codeStep (f i) (s.renumber f) c ch
      = (codeStep i s c ch).map (State.renumber f) (Mark.renumber f) := by
  simp only [codeStep, directiveStep_renumber, endHeader_renumber, qualify_renumber, word_renumber]
  iterate 4 refine Cursor.Step.ite_map rfl ?_
  refine Cursor.Step.ite_map ?_ ?_
  · simp only [Cursor.Step.map, apply_ite (State.renumber f)]
    rfl
  · iterate 3 refine Cursor.Step.ite_map rfl ?_
    rfl

/-- A step under another number. -/
lemma step_renumber (i : Nat) (s : State) (c : Cursor) (ch : Char) :
    step (f i) (s.renumber f) c ch = (step i s c ch).map (State.renumber f) (Mark.renumber f) := by
  refine Cursor.Step.ite_map rfl (Cursor.Step.ite_map rfl (Cursor.Step.ite_map rfl ?_))
  exact codeStep_renumber f i s c ch

/-- The end of a line under another number. -/
lemma endLine_renumber (s : State) :
    endLine (s.renumber f)
      = Prod.map (State.renumber f) (List.map (Mark.renumber f)) (endLine s) := by
  have hheader : (s.renumber f).header.any (·.declared == .definition)
      = s.header.any (·.declared == .definition) := by
    rw [State.renumber, Option.any_map]
    rfl
  simp only [endLine, hheader, endHeader_renumber,
    apply_ite (Prod.map (State.renumber f) (List.map (Mark.renumber f)))]
  rfl

/-- A line read under another number. -/
lemma readLine_renumber (s : State) (i : Nat) (text : List Char) :
    readLine (s.renumber f) (f i) text
      = Prod.map (State.renumber f) (List.map (Mark.renumber f)) (readLine s i text) := by
  simp only [readLine, Cursor.walk_map (step_renumber f i), endLine_renumber, Prod.map,
    List.map_append]

/-- An empty line at the beginning changes nothing. -/
lemma readLine_nil (i : Nat) : readLine {} i [] = ({}, []) := by
  simp [readLine, Cursor.walk_end (step i) ({} : State) (c := .start []) rfl, endLine]

/-- Empty lines in front of a hardware description shift the lines of its marks. -/
theorem marks_shift (k : Nat) (lines : List (List Char)) :
    marks (List.replicate k [] ++ lines) = (marks lines).map (Mark.renumber (· + k)) :=
  readLines_shift State.renumber Mark.renumber (fun _ => rfl) readLine_nil readLine_renumber k lines

end Verilog

end Outliner
