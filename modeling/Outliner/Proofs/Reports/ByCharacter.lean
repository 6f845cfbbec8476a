import Outliner.ByCharacter.Lua
import Outliner.ByCharacter.Php
import Outliner.ByCharacter.Python
import Outliner.ByCharacter.StyleSheet
import Outliner.ByCharacter.Verilog
import Outliner.Proofs.Reading

set_option autoImplicit false

/-!
# What character-based readers report

Where a line is walked along, a mark may name a line that lies further back: the line on which a
header began that waits for its name or its brace. What waits is part of the state, and the
invariant of a reader says that it was read off the line it names.

## Main definitions

* `Outliner.Php.State.Waits` — the header that waits stands on its line.
* `Outliner.Verilog.State.Waits`, `Outliner.StyleSheet.State.Waits` — what waits began on a line of
  the source.

## Main results

* `Outliner.Python.marks_named`, `Outliner.Lua.marks_named`, `Outliner.Php.marks_named` — what these
  report stands by its name on its line.
* `Outliner.Verilog.marks_placed`, `Outliner.StyleSheet.marks_placed`,
  `Outliner.StyleSheet.styleMarks_placed` — what these report stands on one of the lines.
-/

namespace Outliner

variable {lines : List (List Char)}

/-! ## Python sources -/

namespace Python

/-- A step stays on its line.

**Proof sketch.** Branch by branch, as no move of the cursor leaves the line. -/
lemma step_staysOn (begins : Bool) (s : Scan) (c : Cursor) (ch : Char) :
    (step begins s c ch).StaysOn c.line := by
  unfold step
  split
  · unfold stringStep
    refine .ite (fun _ => Cursor.line_forward 2 c) fun _ => ?_
    split
    · next after hafter => exact Cursor.line_eat? hafter
    · exact Cursor.line_next c
  · unfold codeStep
    refine .ite (fun _ => Cursor.line_toEnd c) fun _ => ?_
    refine .ite (fun _ => ?_) fun _ => ?_
    · split
      · next after hafter => exact Cursor.line_eat? hafter
      · exact Cursor.line_overQuoted ch c
    · refine .ite (fun _ => Cursor.line_next c) fun _ => ?_
      refine .ite (fun _ => Cursor.line_next c) fun _ => ?_
      refine .ite (fun _ => ?_) fun _ => ?_
      · exact .ite (fun _ => Cursor.line_next c) fun _ => Cursor.line_forward 2 c
      · refine .ite (fun _ => ?_) fun _ => Cursor.line_next c
        exact (Cursor.line_eat _ _).trans (Cursor.line_next c)

/-- What stands before the assignment sign, if it was met, is the beginning of the line. -/
def Scan.Begins (line : List Char) (s : Scan) : Prop :=
  ∀ target, s.target = some target → target <+: line

/-- A step keeps what was read as the target of an assignment a beginning of the line.

**Proof sketch.** Only the equals sign that assigns sets the target, and it takes what is consumed
by then. All other branches leave the target alone. -/
lemma step_begins {begins : Bool} {s : Scan} {c : Cursor} {ch : Char} (hs : s.Begins c.line) :
    (step begins s c ch).Keeps (Scan.Begins c.line) fun _ => True := by
  unfold step
  split
  · unfold stringStep
    refine .ite (fun _ => .silent hs) fun _ => ?_
    split
    · exact .silent hs
    · exact .silent hs
  · unfold codeStep
    refine .ite (fun _ => .silent hs) fun _ => ?_
    refine .ite (fun _ => ?_) fun _ => ?_
    · split
      · exact .silent hs
      · exact .silent hs
    · refine .ite (fun _ => .silent hs) fun _ => ?_
      refine .ite (fun _ => .silent hs) fun _ => ?_
      refine .ite (fun _ => .ite (fun _ => .silent hs) fun _ => .silent hs) fun _ => ?_
      refine .ite (fun _ => .silent fun target htarget => ?_) fun _ => .silent hs
      split at htarget
      · obtain rfl := Option.some.inj htarget
        exact c.consumed_isPrefix
      · exact hs target htarget

/-- The target of an assignment is a beginning of its line. -/
lemma scanLine_target {before : Lexical} {line target : List Char}
    (h : (scanLine before line).target = some target) : target <+: line := by
  have hstart : Scan.Begins line { lexical := { before with continued := false } } := by
    intro target htarget
    exact absurd htarget (by simp)
  have hstep : ∀ s c ch, c.line = line → Scan.Begins line s →
      (step before.atStatement s c ch).Keeps (Scan.Begins line) fun _ => True := by
    rintro s c ch rfl hs
    exact step_begins hs
  exact (Cursor.walk_keeps_on (step_staysOn before.atStatement) hstep hstart).state target h

/-- The name behind a keyword is an excerpt of the text behind the keyword. -/
lemma declaredName?_isInfix {text name : List Char} (h : declaredName? text = some name) :
    name <:+: text := by
  obtain ⟨hname, -⟩ := Option.filter_eq_some_iff.1 h
  exact (firstIdentifier?_isPrefix hname).isInfix

/-- The name that is assigned to is an excerpt of the target. -/
lemma assignedName_isInfix (target : List Char) : assignedName target <:+: target := by
  simp only [assignedName]
  split
  · split
    · refine (trim_isInfix _).trans (List.IsInfix.trans ?_ (trim_isInfix target))
      exact ((List.drop_suffix 1 _).trans (List.dropWhile_suffix _)).isInfix
    · refine (trimEnd_isPrefix _).isInfix.trans (List.IsInfix.trans ?_ (trim_isInfix target))
      exact (List.takeWhile_prefix _).isInfix
  · exact trim_isInfix target

/-- The name that a statement declares. -/
def Statement.name? : Statement → Option (List Char)
  | .classOf name => name
  | .function name => name
  | .variable name => some name
  | .other => none

/-- The name that a statement declares is an excerpt of its line.

**Proof sketch.** Behind `class` and behind `def`, with or without `async`, the name is read off a
suffix of the text. The name of an assignment is an excerpt of its target. -/
lemma statement_isInfix {line text name : List Char} {target : Option (List Char)}
    (htext : text <:+: line) (htarget : ∀ t, target = some t → t <:+: line)
    (h : (statement text target).name? = some name) : name <:+: line := by
  unfold statement at h
  split at h
  · next rest hrest =>
    exact (declaredName?_isInfix h).trans ((afterKeyword?_suffix hrest).isInfix.trans htext)
  · split at h
    · next rest hrest =>
      have hasync : (afterKeyword? "async".toList text).getD text <:+ text := by
        cases hafter : afterKeyword? "async".toList text with
        | none => exact List.suffix_refl text
        | some after => exact afterKeyword?_suffix hafter
      exact (declaredName?_isInfix h).trans
        (((afterKeyword?_suffix hrest).trans hasync).isInfix.trans htext)
    · split at h
      · exact absurd h (by simp [Statement.name?])
      · next target =>
        dsimp only at h
        split at h
        · obtain rfl := Option.some.inj h
          exact (assignedName_isInfix target).trans (htarget target rfl)
        · exact absurd h (by simp [Statement.name?])

/-- The mark of a statement names the name that it declares.

**Proof sketch.** Statement by statement: each marks the one name it declares, on the line that is
read. -/
lemma declare_named {indent i : Nat} {state : State} {text : List Char} {s : Statement}
    (hline : lines[i]? = some text) (hname : ∀ name, s.name? = some name → name <:+: text) :
    ∀ m ∈ (declare indent i state s).2, m.All (Report.Named id lines) := by
  intro m hm
  unfold declare at hm
  split at hm
  · exact absurd hm List.not_mem_nil
  · next name =>
    obtain rfl := List.mem_singleton.1 hm
    exact Mark.all_enter.2 (Report.named_leaf rfl hline (hname name rfl))
  · next found =>
    obtain ⟨name, rfl, rfl⟩ := Option.map_eq_some_iff.1 (Option.mem_toList.1 hm)
    exact Mark.all_leaf.2 (Report.named_leaf rfl hline (hname name rfl))
  · next name =>
    obtain rfl := List.mem_singleton.1 hm
    exact Mark.all_leaf.2 (Report.named_leaf rfl hline (hname name rfl))
  · exact absurd hm List.not_mem_nil

/-- Closing the open classes that a line ends names nothing. -/
lemma settle_named (indent : Nat) (state : State) :
    ∀ m ∈ (settle indent state).2, m.All (Report.Named id lines) := by
  intro m hm
  obtain rfl := List.eq_of_mem_replicate hm
  exact Mark.all_leave

/-- The marks of a line name what stands on it. -/
lemma readLine_named {state : State} {i : Nat} {text : List Char}
    (hline : lines[i]? = some text) :
    ∀ m ∈ (readLine state i text).2, m.All (Report.Named id lines) := by
  simp only [readLine]
  split
  · simp
  · split
    · exact settle_named _ _
    · intro m hm
      rcases List.mem_append.1 hm with hm | hm
      · exact settle_named _ _ m hm
      · refine declare_named hline (fun name hname => ?_) m hm
        exact statement_isInfix (trimStart_suffix text).isInfix
          (fun t ht => (scanLine_target ht).isInfix) hname

/-- The classes, functions and variables of a source stand on their lines. -/
theorem marks_named : ∀ m ∈ marks lines, m.All (Report.Named id lines) :=
  readLines_found (fun _ _ _ hline => readLine_named hline) _

end Python

/-! ## Lua sources -/

namespace Lua

/-- The cursor inside a long bracket is on the line of the bracket. -/
lemma longBracket?_line {c after : Cursor} {level : Nat}
    (h : longBracket? c = some (level, after)) : after.line = c.line := by
  simp only [longBracket?] at h
  split at h
  · split at h
    · obtain ⟨-, rfl⟩ := Prod.mk.inj (Option.some.inj h)
      exact Cursor.line_forward _ c
    · exact absurd h (by simp)
  · exact absurd h (by simp)

/-- The cursor behind an assigned function is on the line of the assignment. -/
lemma assignsFunction?_line {c after : Cursor} (h : assignsFunction? c = some after) :
    after.line = c.line := by
  unfold assignsFunction? at h
  split at h
  · split at h
    · exact absurd h (by simp)
    · split at h
      · split at h
        · exact absurd h (by simp)
        · obtain rfl := Option.some.inj h
          exact Cursor.line_forward _ c
      · exact absurd h (by simp)
  · exact absurd h (by simp)

/-- Reading a name stays on its line. -/
lemma nameStep_line (line : Nat) (c : Cursor) : (nameStep line c).cursor.line = c.line := by
  simp only [nameStep]
  split
  · rw [Cursor.line_span, Cursor.line_skipBlanks, Cursor.line_span]
  · split
    · next rest hrest => rw [assignsFunction?_line hrest, Cursor.line_span]
    · exact Cursor.line_span _ c

/-- A step stays on its line.

**Proof sketch.** Branch by branch. A comment is eaten before its bracket is looked for, so its
branches take two moves. -/
lemma step_staysOn (line : Nat) (state : Option Nat) (c : Cursor) (ch : Char) :
    (step line state c ch).StaysOn c.line := by
  unfold step
  split
  · exact Cursor.line_beyond _ c
  · split
    · next comment hcomment =>
      split
      · next level inside hinside =>
        exact (longBracket?_line hinside).trans (Cursor.line_eat? hcomment)
      · exact (Cursor.line_toEnd comment).trans (Cursor.line_eat? hcomment)
    · refine .ite (fun _ => Cursor.line_overQuoted ch c) fun _ => ?_
      refine .ite (fun _ => ?_) fun _ => ?_
      · split
        · next level inside hinside => exact longBracket?_line hinside
        · exact Cursor.line_next c
      · exact .ite (fun _ => nameStep_line line c) fun _ => Cursor.line_next c

/-- The owner and the name of a function are excerpts of what declares it.

**Proof sketch.** The owner is a beginning of the name and the method its end. A function with no
owner keeps the whole name. -/
lemma functionMarks_named {name text : List Char} {i : Nat} (hline : lines[i]? = some text)
    (hname : name <:+: text) : ∀ m ∈ functionMarks name i, m.All (Report.Named id lines) := by
  intro m hm
  simp only [functionMarks] at hm
  split at hm
  · split at hm
    · exact absurd hm List.not_mem_nil
    · obtain rfl := List.mem_singleton.1 hm
      have howner : name.take (name.length
          - (name.reverse.takeWhile (!isJoint ·)).reverse.length - 1) <:+: text :=
        (List.take_prefix _ name).isInfix.trans hname
      have hmember : (name.reverse.takeWhile (!isJoint ·)).reverse <:+: text :=
        (reverse_takeWhile_reverse_suffix _ name).isInfix.trans hname
      exact Mark.all_method.2
        ⟨Report.named_leaf rfl hline howner, Report.named_leaf rfl hline hmember⟩
  · split at hm
    · obtain rfl := List.mem_singleton.1 hm
      exact Mark.all_leaf.2 (Report.named_leaf rfl hline hname)
    · exact absurd hm List.not_mem_nil

/-- What is marked where a name is due stands on the line. -/
lemma nameStep_named {c : Cursor} {i : Nat} (hline : lines[i]? = some c.line) :
    ∀ m ∈ (nameStep i c).found, m.All (Report.Named id lines) := by
  simp only [nameStep]
  split
  · refine functionMarks_named hline ?_
    have hspan := Cursor.span_isInfix isNameChar (c.span isNameChar).2.skipBlanks
    rwa [Cursor.line_skipBlanks, Cursor.line_span] at hspan
  · split
    · exact functionMarks_named hline (Cursor.span_isInfix isNameChar c)
    · simp

/-- What a step marks stands on the line.

**Proof sketch.** Only the step that reads a name marks anything (`nameStep_named`). -/
lemma step_named {state : Option Nat} {c : Cursor} {ch : Char} {i : Nat}
    (hline : lines[i]? = some c.line) :
    (step i state c ch).Keeps (fun _ => True) (Mark.All (Report.Named id lines)) := by
  unfold step
  split
  · exact .silent trivial
  · split
    · split
      · exact .silent trivial
      · exact .silent trivial
    · refine .ite (fun _ => .silent trivial) fun _ => ?_
      refine .ite (fun _ => ?_) fun _ => ?_
      · split
        · exact .silent trivial
        · exact .silent trivial
      · exact .ite (fun _ => ⟨trivial, nameStep_named hline⟩) fun _ => .silent trivial

/-- The functions and methods of a source stand on their lines, and so do the classes that begin
with a method. -/
theorem marks_named : ∀ m ∈ marks lines, m.All (Report.Named id lines) := by
  refine readLines_found (fun s i text hline => ?_) _
  exact (Cursor.walk_keeps_on (step_staysOn i) (fun s c ch hc _ => step_named (hc ▸ hline))
    trivial).found

end Lua

/-! ## PHP sources -/

namespace Php

/-- The header that waits for its brace was read off the line it names. -/
def State.Waits (lines : List (List Char)) (s : State) : Prop :=
  ∀ name line, s.pending = some (name, line) →
    ∃ text, lines[line]? = some text ∧ name <:+: text

/-- Where no header waits, nothing is asked for. -/
lemma State.waits_of_none {s : State} (h : s.pending = none) : s.Waits lines := by
  intro name line hpending
  rw [h] at hpending
  exact absurd hpending (by simp)

/-- A name that is read at the cursor is an excerpt of the line. -/
lemma identifierAt_isInfix {c rest : Cursor} {name : List Char}
    (h : identifierAt c = (some name, rest)) : name <:+: c.line := by
  obtain ⟨hname, -⟩ := Prod.mk.inj h
  split at hname
  · obtain rfl := Option.some.inj hname
    exact Cursor.identifier_isInfix c
  · exact absurd hname (by simp)

/-- Reading a name at the cursor stays on the line. -/
lemma identifierAt_line {c rest : Cursor} {found : Option (List Char)}
    (h : identifierAt c = (found, rest)) : rest.line = c.line := by
  obtain ⟨-, rfl⟩ := Prod.mk.inj h
  exact Cursor.line_identifier c

/-- The name of a property is an excerpt of its line. -/
lemma propertyName?_isInfix {line name : List Char} (h : propertyName? line = some name) :
    name <:+: line := by
  simp only [propertyName?] at h
  split at h
  · exact absurd h (by simp)
  · split at h
    · exact absurd h (by simp)
    · split at h
      · obtain rfl := Option.some.inj h
        refine (List.takeWhile_prefix _).isInfix.trans (List.IsInfix.trans ?_
          (trimStart_suffix line).isInfix)
        exact ((List.drop_suffix 1 _).trans (List.dropWhile_suffix _)).isInfix.trans
          (List.takeWhile_prefix _).isInfix
      · exact absurd h (by simp)

/-- Reading a word stays on its line.

**Proof sketch.** After the word itself, blanks are skipped and a name is read, or characters are
passed over. None of these leaves the line. -/
lemma wordStep_line (line : Nat) (s : State) (c : Cursor) :
    (wordStep line s c).cursor.line = c.line := by
  simp only [wordStep]
  split_ifs
  · exact Cursor.line_identifier c
  · split
    · next name rest h =>
      exact (identifierAt_line h).trans (by rw [Cursor.line_skipBlanks, Cursor.line_identifier])
    · next rest h =>
      exact (identifierAt_line h).trans (by rw [Cursor.line_skipBlanks, Cursor.line_identifier])
  · split
    · next name rest h =>
      exact (identifierAt_line h).trans (by
        rw [Cursor.line_eat, Cursor.line_skipBlanks, Cursor.line_identifier])
    · next rest h =>
      exact (identifierAt_line h).trans (by
        rw [Cursor.line_eat, Cursor.line_skipBlanks, Cursor.line_identifier])
  · rw [Cursor.line_span, Cursor.line_skipBlanks, Cursor.line_identifier]
  · rw [Cursor.line_span, Cursor.line_skipBlanks, Cursor.line_identifier]
  · exact Cursor.line_identifier c

/-- Looking for the closing tag stays on the line. -/
lemma toClosingTag_line (c : Cursor) : (toClosingTag c).line = c.line := by
  unfold toClosingTag
  split
  · exact Cursor.line_forward _ c
  · exact Cursor.line_toEnd c

/-- A step in code stays on its line. -/
lemma codeStep_staysOn (line : Nat) (s : State) (c : Cursor) (ch : Char) :
    (codeStep line s c ch).StaysOn c.line := by
  unfold codeStep
  refine .ite (fun _ => Cursor.line_forward 2 c) fun _ => ?_
  refine .ite (fun _ => Cursor.line_forward 2 c) fun _ => ?_
  refine .ite (fun _ => Cursor.line_forward 2 c) fun _ => ?_
  refine .ite (fun _ => toClosingTag_line c) fun _ => ?_
  refine .ite (fun _ => Cursor.line_next c) fun _ => ?_
  refine .ite (fun _ => Cursor.line_next c) fun _ => ?_
  refine .ite (fun _ => Cursor.line_next c) fun _ => ?_
  refine .ite (fun _ => Cursor.line_next c) fun _ => ?_
  exact .ite (fun _ => wordStep_line line s c) fun _ => Cursor.line_next c

/-- A step stays on its line. -/
lemma step_staysOn (line : Nat) (s : State) (c : Cursor) (ch : Char) :
    (step line s c ch).StaysOn c.line := by
  unfold step
  split
  · refine .ite (fun _ => ?_) fun _ => Cursor.line_beyond _ c
    exact (Cursor.line_eat _ _).trans ((Cursor.line_eat _ _).trans (Cursor.line_beyond _ c))
  · exact Cursor.line_beyond _ c
  · exact Cursor.line_toClosingQuote _ c
  · exact codeStep_staysOn line s c ch

/-- A function is marked by a name that stands on the line. -/
lemma functionMarks_named {s : State} {name text : List Char} {i : Nat}
    (hline : lines[i]? = some text) (hname : name <:+: text) :
    ∀ m ∈ functionMarks s name i, m.All (Report.Named id lines) := by
  intro m hm
  unfold functionMarks at hm
  split_ifs at hm
  · obtain rfl := List.mem_singleton.1 hm
    exact Mark.all_leaf.2 (Report.named_leaf rfl hline hname)
  · exact absurd hm List.not_mem_nil
  · obtain rfl := List.mem_singleton.1 hm
    exact Mark.all_leaf.2 (Report.named_leaf rfl hline hname)

/-- A word may begin a header, which then waits, and names what it declares.

**Proof sketch.** Behind `class` and its like the name is read off the line and waits there. Behind
`function` it is marked at once, and so is the name of a namespace; the moves before it stay on the
line, so it is an excerpt of it. -/
lemma wordStep_named {s : State} {c : Cursor} {i : Nat} (hline : lines[i]? = some c.line)
    (hs : s.Waits lines) :
    (wordStep i s c).Keeps (State.Waits lines) (Mark.All (Report.Named id lines)) := by
  simp only [wordStep]
  refine .ite (fun _ => .silent hs) fun _ => ?_
  refine .ite (fun _ => ?_) fun _ => ?_
  · split
    · next name rest h =>
      have hname : name <:+: c.line := by
        have hexcerpt := identifierAt_isInfix h
        rwa [Cursor.line_skipBlanks, Cursor.line_identifier] at hexcerpt
      refine .silent fun waiting line hpending => ?_
      obtain ⟨rfl, rfl⟩ := Prod.mk.inj (Option.some.inj hpending)
      exact ⟨c.line, hline, hname⟩
    · exact .silent hs
  · refine .ite (fun _ => ?_) fun _ => ?_
    · split
      · next name rest h =>
        have hname : name <:+: c.line := by
          have hexcerpt := identifierAt_isInfix h
          rwa [Cursor.line_eat, Cursor.line_skipBlanks, Cursor.line_identifier] at hexcerpt
        exact ⟨hs, functionMarks_named hline hname⟩
      · exact .silent hs
    · refine .ite (fun _ => ⟨hs, fun m hm => ?_⟩) fun _ => .silent hs
      have hname := Cursor.span_isInfix (fun c => isIdentifierChar c || c == '\\')
        c.identifier.2.skipBlanks
      rw [Cursor.line_skipBlanks, Cursor.line_identifier] at hname
      dsimp only at hm
      split at hm
      · exact absurd hm List.not_mem_nil
      · obtain rfl := List.mem_singleton.1 hm
        exact Mark.all_leaf.2 (Report.named_leaf rfl hline hname)

/-- An opening brace ends the waiting, and the class that begins is the one that waited. -/
lemma openBrace_named {s : State} (hs : s.Waits lines) :
    Keeps (State.Waits lines) (Mark.All (Report.Named id lines)) (openBrace s) := by
  unfold openBrace
  split
  · next name line hpending _ =>
    obtain ⟨text, hline, hname⟩ := hs name line hpending
    exact .single (State.waits_of_none rfl) (Mark.all_enter.2 (Report.named_leaf rfl hline hname))
  · exact .silent (State.waits_of_none rfl)

/-- A closing brace names nothing. -/
lemma closeBrace_named {s : State} (hs : s.Waits lines) :
    Keeps (State.Waits lines) (Mark.All (Report.Named id lines)) (closeBrace s) := by
  unfold closeBrace
  refine .ite (fun _ => ⟨hs, fun m hm => ?_⟩) fun _ => .silent hs
  simp only [List.mem_cons, List.not_mem_nil, or_false] at hm
  rcases hm with rfl | rfl
  · exact Mark.all_leave
  · exact Mark.all_forget

/-- A step in code keeps the header that waits on its line, and names what stands on the line. -/
lemma codeStep_named {s : State} {c : Cursor} {ch : Char} {i : Nat}
    (hline : lines[i]? = some c.line) (hs : s.Waits lines) :
    (codeStep i s c ch).Keeps (State.Waits lines) (Mark.All (Report.Named id lines)) := by
  unfold codeStep
  refine .ite (fun _ => .silent hs) fun _ => ?_
  refine .ite (fun _ => .silent hs) fun _ => ?_
  refine .ite (fun _ => .silent hs) fun _ => ?_
  refine .ite (fun _ => .silent hs) fun _ => ?_
  refine .ite (fun _ => .silent hs) fun _ => ?_
  refine .ite (fun _ => openBrace_named hs) fun _ => ?_
  refine .ite (fun _ => closeBrace_named hs) fun _ => ?_
  refine .ite (fun _ => .silent (State.waits_of_none rfl)) fun _ => ?_
  exact .ite (fun _ => wordStep_named hline hs) fun _ => .silent hs

/-- A step keeps the header that waits on its line, and names what stands on the line. -/
lemma step_named {s : State} {c : Cursor} {ch : Char} {i : Nat}
    (hline : lines[i]? = some c.line) (hs : s.Waits lines) :
    (step i s c ch).Keeps (State.Waits lines) (Mark.All (Report.Named id lines)) := by
  have hcode : ({ s with mode := .code } : State).Waits lines := hs
  unfold step
  split
  · exact .ite (fun _ => .silent hs) fun _ => .silent hs
  · exact .silent (iteInduction (fun _ => hcode) fun _ => hs)
  · exact .silent (iteInduction (fun _ => hcode) fun _ => hs)
  · exact codeStep_named hline hs

/-- Properties are marked by names that stand on the line. -/
lemma propertyMarks_named {s : State} {i : Nat} {text : List Char}
    (hline : lines[i]? = some text) :
    ∀ m ∈ propertyMarks s i text, m.All (Report.Named id lines) := by
  intro m hm
  unfold propertyMarks at hm
  split at hm
  · obtain ⟨name, hname, rfl⟩ := Option.map_eq_some_iff.1 (Option.mem_toList.1 hm)
    exact Mark.all_leaf.2 (Report.named_leaf rfl hline (propertyName?_isInfix hname))
  · exact absurd hm List.not_mem_nil

/-- The classes, functions, methods, properties and name spaces of a source stand on their lines,
also where a header runs over several lines. -/
theorem marks_named : ∀ m ∈ marks lines, m.All (Report.Named id lines) := by
  refine (readLines_keeps (I := State.Waits lines) (fun s i text hline hs => ?_)
    (State.waits_of_none rfl)).found
  have hproperty : Keeps (State.Waits lines) (Mark.All (Report.Named id lines))
      (s, propertyMarks s i text) := ⟨hs, propertyMarks_named hline⟩
  exact hproperty.append (Cursor.walk_keeps_on (step_staysOn i)
    (fun s c ch hc hs => step_named (hc ▸ hline) hs) hs)

end Php

/-! ## Verilog sources -/

namespace Verilog

/-- The header that is being read began on a line of the source. -/
def State.Waits (lines : List (List Char)) (s : State) : Prop :=
  ∀ header, s.header = some header → header.line < lines.length

/-- Where no header is being read, nothing is asked for. -/
lemma State.waits_of_none {s : State} (h : s.header = none) : s.Waits lines := by
  intro header hheader
  rw [h] at hheader
  exact absurd hheader (by simp)

/-- A header that began on a line of the source waits. -/
lemma State.waits_of_some {s : State} {header : PartialHeader} (h : s.header = some header)
    (hline : header.line < lines.length) : s.Waits lines := by
  intro other hother
  rw [h] at hother
  obtain rfl := Option.some.inj hother
  exact hline

/-- A routine is reported on the line that its header names. -/
lemma routineMark_placed (routine : Routine) (owner : Option String) (units : List DesignUnit)
    (name : String) {i : Nat} (hline : i < lines.length) :
    (routineMark routine owner units name i).All (Report.Placed id lines) := by
  unfold routineMark
  dsimp only
  split
  · exact Mark.all_qualified.2 ⟨Report.placed_leaf rfl name hline, Report.placed_leaf rfl name hline⟩
  · exact Mark.all_leaf.2 (Report.placed_leaf rfl name hline)

/-- A header at its end waits no more, and its declaration is reported where it began.

**Proof sketch.** By what the header declares. In each branch no header is left, and the mark names
the line on which the header began, which is a line of the source. -/
lemma endHeader_placed {s : State} (hs : s.Waits lines) :
    Keeps (State.Waits lines) (Mark.All (Report.Placed id lines)) (endHeader s) := by
  unfold endHeader
  split
  · exact .silent hs
  · next header hheader =>
    have hline : header.line < lines.length := hs header hheader
    dsimp only
    split
    · exact .silent (State.waits_of_none rfl)
    · exact .single (State.waits_of_none rfl)
        (Mark.all_atTop.2 (Report.placed_leaf rfl _ hline))
    · exact .single (State.waits_of_none rfl)
        (Mark.all_enter.2 (Report.placed_leaf rfl _ hline))
    · refine ⟨State.waits_of_none rfl, fun m hm => ?_⟩
      split at hm
      · exact absurd hm List.not_mem_nil
      · obtain rfl := List.mem_singleton.1 hm
        exact routineMark_placed _ _ _ _ hline

/-- A word inside a header leaves it waiting, or ends it on the line on which it began. -/
lemma headerWord_placed {s : State} {header : PartialHeader} (w : String)
    (hline : header.line < lines.length) :
    Keeps (State.Waits lines) (Mark.All (Report.Placed id lines)) (headerWord s header w) := by
  unfold headerWord
  split
  · exact endHeader_placed (State.waits_of_some rfl hline)
  · refine .ite (fun _ => .silent (State.waits_of_some rfl hline)) fun _ => ?_
    refine .ite (fun _ => .silent (State.waits_of_some rfl hline)) fun _ => ?_
    exact endHeader_placed (State.waits_of_some rfl hline)
  · exact .silent (State.waits_of_some rfl hline)

/-- A word outside headers begins a header on the line that is read, or leaves a design unit. -/
lemma freeWord_placed {s : State} {i : Nat} (w : String) (hs : s.Waits lines)
    (hline : i < lines.length) :
    Keeps (State.Waits lines) (Mark.All (Report.Placed id lines)) (freeWord s i w) := by
  unfold freeWord
  dsimp only
  split
  · exact .ite (fun _ => .silent hs) fun _ => .silent (State.waits_of_some rfl hline)
  · exact .silent (State.waits_of_some rfl hline)
  · split
    · exact .ite (fun _ => .single hs Mark.all_leave) fun _ => .silent hs
    · exact .silent hs

/-- A word keeps what waits on a line of the source. -/
lemma word_placed {s : State} {i : Nat} (w : String) (hs : s.Waits lines)
    (hline : i < lines.length) :
    Keeps (State.Waits lines) (Mark.All (Report.Placed id lines)) (word s i w) := by
  unfold word
  split
  · exact .silent (iteInduction (fun _ => hs) fun _ => hs)
  · refine .ite (fun _ => .silent hs) fun _ => ?_
    split
    · next header hheader => exact headerWord_placed w (hs header hheader)
    · exact freeWord_placed w hs hline

/-- The double colon keeps what waits on a line of the source. -/
lemma qualify_placed {s : State} (hs : s.Waits lines) : (qualify s).Waits lines := by
  intro header hheader
  obtain ⟨before, hbefore, rfl⟩ := Option.map_eq_some_iff.1 hheader
  exact hs before hbefore

/-- A directive keeps what waits on a line of the source. -/
lemma directiveStep_placed {s : State} {i : Nat} (c : Cursor) (hs : s.Waits lines)
    (hline : i < lines.length) :
    (directiveStep i s c).Keeps (State.Waits lines) (Mark.All (Report.Placed id lines)) := by
  unfold directiveStep
  split
  · exact .ite (fun _ => .silent (State.waits_of_some rfl hline)) fun _ => .silent hs
  · exact .silent hs

/-- A step outside comments and strings keeps what waits on a line of the source. -/
lemma codeStep_placed {s : State} {i : Nat} (c : Cursor) (ch : Char) (hs : s.Waits lines)
    (hline : i < lines.length) :
    (codeStep i s c ch).Keeps (State.Waits lines) (Mark.All (Report.Placed id lines)) := by
  unfold codeStep
  refine .ite (fun _ => .silent hs) fun _ => ?_
  refine .ite (fun _ => .silent hs) fun _ => ?_
  refine .ite (fun _ => .silent hs) fun _ => ?_
  refine .ite (fun _ => directiveStep_placed c hs hline) fun _ => ?_
  refine .ite (fun _ => ?_) fun _ => ?_
  · have hended := endHeader_placed hs
    exact ⟨iteInduction (fun _ => hended.state) fun _ => hended.state, hended.found⟩
  · refine .ite (fun _ => .silent (qualify_placed hs)) fun _ => ?_
    refine .ite (fun _ => word_placed _ hs hline) fun _ => ?_
    exact .ite (fun _ => .silent hs) fun _ => .silent hs

/-- A step keeps what waits on a line of the source. -/
lemma step_placed {s : State} {i : Nat} (c : Cursor) (ch : Char) (hs : s.Waits lines)
    (hline : i < lines.length) :
    (step i s c ch).Keeps (State.Waits lines) (Mark.All (Report.Placed id lines)) := by
  unfold step
  refine .ite (fun _ => .silent hs) fun _ => ?_
  refine .ite (fun _ => .silent hs) fun _ => ?_
  exact .ite (fun _ => .silent hs) fun _ => codeStep_placed c ch hs hline

/-- The end of a line keeps what waits on a line of the source. -/
lemma endLine_placed {s : State} (hs : s.Waits lines) :
    Keeps (State.Waits lines) (Mark.All (Report.Placed id lines)) (endLine s) := by
  unfold endLine
  exact .ite (fun _ => endHeader_placed hs) fun _ => .silent hs

/-- The units, routines and text substitutions of a source stand on its lines, also where a header
runs over several lines. -/
theorem marks_placed : ∀ m ∈ marks lines, m.All (Report.Placed id lines) := by
  refine (readLines_keeps (I := State.Waits lines) (fun s i text htext hs => ?_)
    (State.waits_of_none rfl)).found
  obtain ⟨hline, -⟩ := List.getElem?_eq_some_iff.1 htext
  have hwalked := Cursor.walk_keeps (fun s c ch hs => step_placed c ch hs hline) hs (.start text)
  exact hwalked.append (endLine_placed hwalked.state)

end Verilog

/-! ## Style sheets -/

namespace StyleSheet

/-- The selectors that wait for the block of their rule began on lines of the sheet. -/
structure State.Waits (lines : List (List Char)) (s : State) : Prop where
  /-- The finished selectors did. -/
  list : ∀ selector ∈ s.list, selector.line < lines.length
  /-- The selector that is being read did. -/
  piece : ∀ piece, s.piece = some piece → piece.line < lines.length

/-- Selectors that are ended are still on lines of the source. -/
lemma State.Waits.endSelector {s : State} (hs : s.Waits lines) : s.endSelector.Waits lines := by
  refine ⟨fun selector hselector => ?_, by simp [State.endSelector]⟩
  rcases List.mem_append.1 hselector with hselector | hselector
  · exact hs.list selector hselector
  · obtain ⟨piece, hpiece, hmade⟩ := Option.bind_eq_some_iff.1 (Option.mem_toList.1 hselector)
    simp only [Piece.selector?] at hmade
    split at hmade
    · exact absurd hmade (by simp)
    · obtain rfl := Option.some.inj hmade
      exact hs.piece piece hpiece

/-- Where the selectors are given up, nothing is asked for. -/
lemma State.waits_dropSelectors (s : State) : s.dropSelectors.Waits lines :=
  ⟨by simp [State.dropSelectors], by simp [State.dropSelectors]⟩

/-- Text that is added to a selector stands on the line that is read. -/
lemma State.Waits.extend {s : State} (hs : s.Waits lines) {i : Nat} (hline : i < lines.length)
    (text : List Char) : (s.extend i text).Waits lines := by
  refine ⟨hs.list, fun piece hpiece => ?_⟩
  obtain rfl := Option.some.inj hpiece
  cases h : s.piece with
  | none => exact hline
  | some piece => exact hs.piece piece h

/-- A text put at the end of the selector that is being read leaves the line on which it began. -/
lemma State.Waits.append {s : State} (hs : s.Waits lines) (text : List Char) :
    ({ s with piece := s.piece.map (·.append text) } : State).Waits lines := by
  refine ⟨hs.list, fun piece hpiece => ?_⟩
  obtain ⟨before, hbefore, rfl⟩ := Option.map_eq_some_iff.1 hpiece
  exact hs.piece before hbefore

/-- A step inside a block finds nothing and keeps what waits. -/
lemma blockStep_placed {s : State} (c : Cursor) (ch : Char) (hs : s.Waits lines) :
    (blockStep s c ch).Keeps (State.Waits lines) (·.line < lines.length) := by
  unfold blockStep
  refine .ite (fun _ => .silent hs) fun _ => ?_
  refine .ite (fun _ => .silent ⟨hs.list, hs.piece⟩) fun _ => ?_
  exact .ite (fun _ => .silent ⟨hs.list, hs.piece⟩) fun _ => .silent hs

/-- A step inside an at-rule finds nothing and keeps what waits. -/
lemma atRuleStep_placed {s : State} (nests : Bool) (c : Cursor) (ch : Char) (hs : s.Waits lines) :
    (atRuleStep nests s c ch).Keeps (State.Waits lines) (·.line < lines.length) := by
  unfold atRuleStep
  refine .ite (fun _ => .silent ⟨hs.list, hs.piece⟩) fun _ => ?_
  refine .ite (fun _ => .silent ⟨hs.list, hs.piece⟩) fun _ => ?_
  exact .ite (fun _ => .silent hs) fun _ => .silent hs

/-- A step among the selectors of a rule keeps what waits on lines of the source. -/
lemma ruleStep_placed {s : State} {i : Nat} (c : Cursor) (ch : Char) (hs : s.Waits lines)
    (hline : i < lines.length) :
    (ruleStep i s c ch).Keeps (State.Waits lines) (·.line < lines.length) := by
  have hended : s.endSelector.Waits lines := hs.endSelector
  have hdropped : s.dropSelectors.Waits lines := s.waits_dropSelectors
  unfold ruleStep
  refine .ite (fun _ => .silent ⟨hs.list, hs.piece⟩) fun _ => ?_
  refine .ite (fun _ => ⟨⟨by simp, hended.piece⟩, hended.list⟩) fun _ => ?_
  refine .ite (fun _ => .silent ⟨hdropped.list, hdropped.piece⟩) fun _ => ?_
  refine .ite (fun _ => .silent hdropped) fun _ => ?_
  refine .ite (fun _ => .silent hended) fun _ => ?_
  refine .ite (fun _ => .silent (hs.extend hline _)) fun _ => ?_
  exact .ite (fun _ => .silent (hs.append _)) fun _ => .silent (hs.extend hline _)

/-- A step keeps what waits on lines of the source. -/
lemma step_placed {s : State} {i : Nat} (c : Cursor) (ch : Char) (hs : s.Waits lines)
    (hline : i < lines.length) :
    (step i s c ch).Keeps (State.Waits lines) (·.line < lines.length) := by
  unfold step
  refine .ite (fun _ => .silent ⟨hs.list, hs.piece⟩) fun _ => ?_
  refine .ite (fun _ => .silent ⟨hs.list, hs.piece⟩) fun _ => ?_
  split
  · exact atRuleStep_placed _ c ch hs
  · exact ruleStep_placed c ch hs hline
  · exact blockStep_placed c ch hs

/-- The selectors of a sheet begin on its lines, also where they run over several lines. -/
theorem selectors_placed : ∀ selector ∈ selectors lines, selector.line < lines.length := by
  refine (readLines_keeps (I := State.Waits lines) (fun s i text htext hs => ?_)
    ⟨by simp, by simp⟩).found
  obtain ⟨hline, -⟩ := List.getElem?_eq_some_iff.1 htext
  have hwalked := Cursor.walk_keeps (fun s c ch hs => step_placed c ch hs hline) hs (.start text)
  exact ⟨hwalked.state.append _, hwalked.found⟩

/-- The names that a sheet uses stand on its lines. -/
theorem marks_placed : ∀ m ∈ marks lines, m.All (Report.Placed id lines) := by
  intro m hm
  obtain ⟨selector, hselector, hm⟩ := List.mem_flatMap.1 hm
  obtain ⟨⟨kind, name⟩, -, rfl⟩ := List.mem_map.1 hm
  exact Mark.all_once.2 (Report.placed_leaf rfl _ (selectors_placed selector hselector))

/-- The named styles of a sheet stand on its lines. -/
theorem styleMarks_placed : ∀ m ∈ styleMarks lines, m.All (Report.Placed id lines) := by
  intro m hm
  obtain ⟨selector, hselector, rfl⟩ := List.mem_map.1 hm
  exact Mark.all_once.2 (Report.placed_leaf rfl _ (selectors_placed selector hselector))

end StyleSheet

end Outliner
