import Outliner.ByCharacter.Lua
import Outliner.ByCharacter.Php
import Outliner.ByCharacter.Python
import Outliner.ByCharacter.StyleSheet
import Outliner.ByCharacter.Verilog
import Outliner.Proofs.Checked.Cursor
import Outliner.Proofs.Checked.Reading
import Outliner.Proofs.Names.ByCharacter

set_option autoImplicit false

/-!
# Character readers with checks

What is read off the characters of lines with a state, as a program reads it that keeps its place in
bytes: with each cut, each difference and each loop. Nothing goes wrong in any source, every step
moves on, and the marks are those of the readers.

## Main definitions

* `Outliner.Python.run`, `Outliner.Lua.run`, `Outliner.Php.run`, `Outliner.StyleSheet.run`,
  `Outliner.StyleSheet.runStyles`, `Outliner.Verilog.run` — the programs.

## Main results

* `Outliner.Python.step_runs`, `Outliner.Lua.step_runs`, `Outliner.Php.step_runs`,
  `Outliner.StyleSheet.step_runs`, `Outliner.StyleSheet.nameStep_runs`,
  `Outliner.Verilog.step_runs` — every step runs and moves on.
* `Outliner.Python.run_eq`, `Outliner.Lua.run_eq`, `Outliner.Php.run_eq`,
  `Outliner.StyleSheet.run_eq`, `Outliner.StyleSheet.runStyles_eq`, `Outliner.Verilog.run_eq` —
  nothing goes wrong.
-/

namespace Outliner

open Checked

/-! ## Python sources -/

namespace Python

/-- One step within a tripled-quoted string. -/
def runStringStep (quote : Char) (s : Scan) (c : Checked.Cursor) (ch : Char) :
    Run (Checked.Step Scan Mark) := do
  if ch = '\\' then return { state := s, cursor := ← c.forward 2 }
  else
    match ← c.eat? (tripled quote) with
    | some after =>
      return { state := { s with lexical := { s.lexical with string := none } }, cursor := after }
    | none => return { state := s, cursor := (← c.next).2 }

/-- Whether the equals sign at the cursor is an operator by itself. -/
def runIsPlainSign (c : Checked.Cursor) : Run Bool := do
  let before ← c.previous
  let after ← c.peekAt 1
  return !before.any operatorChars.contains && after != some '='

/-- One step outside strings. -/
def runCodeStep (begins : Bool) (s : Scan) (c : Checked.Cursor) (ch : Char) :
    Run (Checked.Step Scan Mark) := do
  if ch = '#' then return { state := s, cursor := c.toEnd }
  else if ch = '"' ∨ ch = '\'' then
    match ← c.eat? (tripled ch) with
    | some after =>
      return { state := { s with lexical := { s.lexical with string := some ch } },
               cursor := after }
    | none => return { state := s, cursor := (← c.overQuoted ch).2 }
  else if ch = '(' ∨ ch = '[' ∨ ch = '\x7b' then
    return { state := { s with lexical := { s.lexical with brackets := s.lexical.brackets + 1 } }
             cursor := (← c.next).2 }
  else if ch = ')' ∨ ch = ']' ∨ ch = '\x7d' then
    return { state := { s with lexical := { s.lexical with brackets := s.lexical.brackets - 1 } }
             cursor := (← c.next).2 }
  else if ch = '\\' then
    let after := (← c.next).2
    if after.isAtEnd then
      return { state := { s with lexical := { s.lexical with continued := true } },
               cursor := after }
    else return { state := s, cursor := (← after.next).2 }
  else if ch = '=' then
    let isTarget :=
      begins && (← runIsPlainSign c) && s.lexical.brackets == 0 && s.target.isNone
    let target ← c.consumed
    return { state := if isTarget then { s with target := some target } else s
             cursor := ← (← c.next).2.eat ['='] }
  else return { state := s, cursor := (← c.next).2 }

/-- One step along a line. -/
def runStep (begins : Bool) (s : Scan) (c : Checked.Cursor) (ch : Char) :
    Run (Checked.Step Scan Mark) :=
  match s.lexical.string with
  | some quote => runStringStep quote s c ch
  | none => runCodeStep begins s c ch

/-- The lexical state after a line, and what stands before its first assignment sign if the line
begins a statement that has one. -/
def runScanLine (before : Lexical) (line : List Char) : Run Scan :=
  Prod.fst <$> Checked.walk (runStep before.atStatement)
    { lexical := { before with continued := false } } (.start line)

/-- The identifier at the front of the text. -/
def runDeclaredName? (text : List Char) : Run (Option (List Char)) :=
  Option.filter isIdentifier <$> Checked.firstIdentifier? text

/-- The name to which the text before an assignment sign assigns. -/
def runAssignedName (target : List Char) : Run (List Char) := do
  let text := trim target
  if text.contains ':' then
    let head := text.takeWhile (· != ':')
    let body := (text.dropWhile (· != ':')).drop 1
    let first ← Checked.firstIdentifier? (trimStart head)
    return if first.any isKeyword then trim body else trimEnd head
  else return text

/-- What a statement declares, given its text without indentation and what stands before its
assignment sign. -/
def runStatement (text : List Char) (target : Option (List Char)) : Run Statement := do
  match ← Checked.afterKeyword? "class".toList text with
  | some rest => return .classOf (← runDeclaredName? rest)
  | none =>
    let awaited ← Checked.afterKeyword? "async".toList text
    match ← Checked.afterKeyword? "def".toList (awaited.getD text) with
    | some rest => return .function (← runDeclaredName? rest)
    | none =>
      match target with
      | none => return .other
      | some target =>
        let name ← runAssignedName target
        return if isIdentifier name && !isKeyword name then .variable name else .other

/-- The state after a line and its marks. -/
def runLine (state : State) (line : Nat) (text : List Char) : Run (State × List Mark) := do
  let scanned ← runScanLine state.lexical text
  let next := { state with lexical := scanned.lexical }
  let code := trimStart text
  if !state.lexical.atStatement || code.isEmpty || startsWith ['#'] code then return (next, [])
  else
    let indent ← Checked.indentWidth text tabWidth
    let (settled, left) := settle indent next
    if settled.function.isSome then return (settled, left)
    else
      let (declared, marks) := declare indent line settled (← runStatement code scanned.target)
      return (declared, left ++ marks)

/-- The marks of a source. -/
def run (lines : List (List Char)) : Run (List Mark) :=
  Prod.snd <$> Checked.readLines runLine 0 {} lines

/-- A step within a tripled-quoted string runs and moves on. -/
lemma stringStep_runs (quote : Char) (s : Scan) (c : Cursor) (ch : Char) :
    (stringStep quote s c ch).RunsAs c (runStringStep quote s c.inBytes ch) := by
  rw [runStringStep, stringStep]
  refine .ite (fun _ => ⟨by simp, Cursor.advances_forward (by decide) c⟩) fun _ => ?_
  rw [Cursor.eat?_inBytes, ok_bind]
  cases h : c.eat? (tripled quote) with
  | some after => exact ⟨rfl, Cursor.advances_eat? (List.cons_ne_nil _ _) h⟩
  | none => exact ⟨by simp, Cursor.advances_next c⟩

/-- Asking whether an equals sign is an operator by itself runs. -/
lemma runIsPlainSign_eq (c : Cursor) : runIsPlainSign c.inBytes = .ok (isPlainSign c) := by
  rw [runIsPlainSign, Cursor.previous_inBytes, ok_bind, Cursor.peekAt_inBytes]
  rfl

/-- A step outside strings runs and moves on.

**Proof sketch.** Branch by branch: a quote advances by its tripled quotes or over the string it
opens, and a backslash by two characters or to the end of the line. All others advance by the
character at the cursor. -/
lemma codeStep_runs (begins : Bool) (s : Scan) {c : Cursor} {ch : Char} (h : c.peek? = some ch) :
    (codeStep begins s c ch).RunsAs c (runCodeStep begins s c.inBytes ch) := by
  have hnext : c.Advances c.next := Cursor.advances_next c
  rw [runCodeStep, codeStep]
  refine .ite (fun _ => ⟨by simp, Cursor.advances_toEnd c⟩) fun _ => ?_
  refine .ite (fun _ => ?_) fun _ => ?_
  · rw [Cursor.eat?_inBytes, ok_bind]
    cases heat : c.eat? (tripled ch) with
    | some after => exact ⟨rfl, Cursor.advances_eat? (List.cons_ne_nil _ _) heat⟩
    | none => exact ⟨by simp, Cursor.advances_overQuoted h⟩
  refine .ite (fun _ => ⟨by simp, hnext⟩) fun _ => ?_
  refine .ite (fun _ => ⟨by simp, hnext⟩) fun _ => ?_
  refine .ite (fun _ => ?_) fun _ => ?_
  · simp only [Cursor.next_inBytes, ok_bind, Cursor.isAtEnd_inBytes]
    refine .ite (fun _ => ⟨rfl, hnext⟩) fun _ => ⟨?_, Cursor.advances_forward (by decide) c⟩
    simp [Cursor.next_next]
  refine .ite (fun _ => ⟨?_, hnext.trans (Cursor.reaches_eat _ _)⟩) fun _ => ⟨by simp, hnext⟩
  simp [runIsPlainSign_eq]

/-- A step runs and moves on. -/
lemma step_runs (begins : Bool) (s : Scan) {c : Cursor} {ch : Char} (h : c.peek? = some ch) :
    (step begins s c ch).RunsAs c (runStep begins s c.inBytes ch) := by
  rw [runStep, step]
  cases s.lexical.string with
  | some quote => exact stringStep_runs quote s c ch
  | none => exact codeStep_runs begins s h

/-- Scanning a line runs. -/
lemma runScanLine_eq (before : Lexical) (line : List Char) :
    runScanLine before line = .ok (scanLine before line) := by
  rw [runScanLine, Cursor.walk_start fun s _ _ => step_runs before.atStatement s]
  rfl

/-- Reading the name behind a keyword runs. -/
lemma runDeclaredName?_eq (text : List Char) :
    runDeclaredName? text = .ok (declaredName? text) := by
  rw [runDeclaredName?, firstIdentifier?_eq]
  rfl

/-- Reading the name that is assigned to runs. -/
lemma runAssignedName_eq (target : List Char) :
    runAssignedName target = .ok (assignedName target) := by
  rw [runAssignedName, assignedName]
  simp only [firstIdentifier?_eq, ok_bind]
  split
  · rfl
  · rfl

/-- Reading a statement runs. -/
lemma runStatement_eq (text : List Char) (target : Option (List Char)) :
    runStatement text target = .ok (statement text target) := by
  rw [runStatement.eq_def, statement.eq_def]
  simp only [afterKeyword?_eq, runDeclaredName?_eq, runAssignedName_eq, ok_bind]
  cases Outliner.afterKeyword? "class".toList text with
  | some rest => rfl
  | none =>
    cases Outliner.afterKeyword? "def".toList
      ((Outliner.afterKeyword? "async".toList text).getD text) with
    | some rest => rfl
    | none =>
      cases target with
      | none => rfl
      | some target => rfl

/-- Reading a line runs. -/
lemma runLine_eq (state : State) (line : Nat) (text : List Char) :
    runLine state line text = .ok (readLine state line text) := by
  rw [runLine, readLine]
  simp only [runScanLine_eq, indentWidth_eq, runStatement_eq, ok_bind]
  split
  · rfl
  · split
    · rfl
    · rfl

/-- Nothing goes wrong in a Python source. -/
theorem run_eq (lines : List (List Char)) : run lines = .ok (marks lines) := by
  rw [run, readLines_eq runLine_eq]
  rfl

end Python

/-! ## Lua sources -/

namespace Lua

/-- The number of equals signs behind the next character, where `level` of them are counted
already. -/
def runLevel (c : Checked.Cursor) (level : Nat) : Run Nat :=
  loop (c.left - ·) (fun level => do
    return if (← c.peekAt (level + 1)) = some '=' then .inr (level + 1) else .inl level) level

/-- The level of the long bracket that opens at the cursor, and the cursor after it. -/
def runLongBracket? (c : Checked.Cursor) : Run (Option (Nat × Checked.Cursor)) := do
  if (← c.peek) = some '[' then
    let level ← runLevel c 0
    if (← c.peekAt (level + 1)) = some '[' then return some (level, ← c.forward (level + 2))
    else return none
  else return none

/-- The cursor after the word `function` if the text goes on with an assignment sign and that word.
The text up to there is cut off, and its characters are counted. -/
def runAssignsFunction? (c : Checked.Cursor) : Run (Option Checked.Cursor) := do
  let rest ← c.rest
  match trimStart rest with
  | '=' :: value =>
    if startsWith ['='] value then return none
    else
      let named := trimStart value
      match after? "function".toList named with
      | some after =>
        if after.head?.any isIdentifierChar then return none
        else
          let behind ← minus (byteLength rest) (byteLength named)
          let offset := behind + byteLength "function".toList
          return some (← c.forward (← sliceTo rest offset).length)
      | none => return none
  | _ => return none

/-- The marks of a function with this name, which is cut before and behind its last dot or colon. -/
def runFunctionMarks (name : List Char) (line : Nat) : Run (List Mark) := do
  match byteLastIndex? isJoint name with
  | some offset =>
    let owner ← sliceTo name offset
    let member ← sliceFrom name (offset + 1)
    return if owner.isEmpty || !isIdentifier member then []
      else [.method (.ofList owner) (.ofList member) line]
  | none => return if isIdentifier name then [.leaf .functions (.ofList name) line] else []

/-- One step outside long brackets at a name. -/
def runNameStep (line : Nat) (c : Checked.Cursor) : Run (Checked.Step (Option Nat) Mark) := do
  let (name, after) ← c.span isNameChar
  if name = "function".toList then
    let (declared, rest) ← (← after.skipBlanks).span isNameChar
    return { state := none, cursor := rest, found := ← runFunctionMarks declared line }
  else
    match ← runAssignsFunction? after with
    | some rest => return { state := none, cursor := rest, found := ← runFunctionMarks name line }
    | none => return { state := none, cursor := after }

/-- One step. -/
def runStep (line : Nat) (state : Option Nat) (c : Checked.Cursor) (ch : Char) :
    Run (Checked.Step (Option Nat) Mark) := do
  match state with
  | some level =>
    let (closed, after) ← c.beyond (closing level)
    return { state := if closed then none else some level, cursor := after }
  | none =>
    match ← c.eat? "--".toList with
    | some comment =>
      match ← runLongBracket? comment with
      | some (level, inside) => return { state := some level, cursor := inside }
      | none => return { state := none, cursor := comment.toEnd }
    | none =>
      if ch = '"' ∨ ch = '\'' then return { state := none, cursor := (← c.overQuoted ch).2 }
      else if ch = '[' then
        match ← runLongBracket? c with
        | some (level, inside) => return { state := some level, cursor := inside }
        | none => return { state := none, cursor := (← c.next).2 }
      else if (isAlphabetic ch || ch == '_') && (← c.isAtWordStart) then runNameStep line c
      else return { state := none, cursor := (← c.next).2 }

/-- The level of the long bracket open after a line, and the marks of the line. -/
def runLine (state : Option Nat) (line : Nat) (text : List Char) : Run (Option Nat × List Mark) :=
  Checked.walk (runStep line) state (.start text)

/-- The marks of a source. -/
def run (lines : List (List Char)) : Run (List Mark) :=
  Prod.snd <$> Checked.readLines runLine 0 none lines

/-- **The equals signs are counted one by one.**

**Proof sketch.** Induction on the characters that are not looked at yet. An equals sign that is
found there is a character of the rest, so that fewer signs are counted than the rest has bytes. -/
lemma runLevel_eq (c : Cursor) (level : Nat) :
    runLevel c.inBytes level
      = .ok (level + ((c.after.drop (level + 1)).takeWhile (· == '=')).length) := by
  rw [runLevel]
  induction htext : c.after.drop (level + 1) generalizing level with
  | nil =>
    have hpeek : c.peekAt? (level + 1) = none :=
      List.getElem?_eq_none (List.drop_eq_nil_iff.1 htext)
    refine loop_of_result ?_
    rw [Cursor.peekAt_inBytes, ok_bind, hpeek]
    rfl
  | cons ch text ih =>
    have hpeek : c.peekAt? (level + 1) = some ch := by
      rw [Cursor.peekAt?, ← List.head?_drop, htext]
      rfl
    by_cases hch : ch = '='
    · have htail : c.after.drop (level + 1 + 1) = text := by
        rw [← List.drop_drop, htext]
        rfl
      have hless : level + 1 < c.inBytes.left := by
        rw [Cursor.left_inBytes]
        exact (List.getElem?_eq_some_iff.1 hpeek).1.trans_le (length_le_byteLength c.after)
      rw [List.takeWhile_cons_of_pos (by simpa using hch), List.length_cons,
        ← Nat.succ_add_eq_add_succ, ← ih (level + 1) htail]
      refine loop_of_next ?_ (by omega)
      rw [Cursor.peekAt_inBytes, ok_bind, hpeek, hch]
      rfl
    · rw [List.takeWhile_cons_of_neg (by simpa using hch)]
      refine loop_of_result ?_
      rw [Cursor.peekAt_inBytes, ok_bind, hpeek]
      simp [hch]

/-- Reading a long bracket runs. -/
lemma runLongBracket?_eq (c : Cursor) :
    runLongBracket? c.inBytes
      = .ok ((longBracket? c).map fun found => (found.1, found.2.inBytes)) := by
  have hlevel : runLevel c.inBytes 0 = .ok (c.next.after.takeWhile (· == '=')).length := by
    have hcount := runLevel_eq c 0
    rwa [Nat.zero_add, Nat.zero_add, ← Cursor.after_forward, ← Cursor.next] at hcount
  rw [runLongBracket?, longBracket?]
  simp only [Cursor.peek_inBytes, hlevel, Cursor.peekAt_inBytes, Cursor.forward_inBytes, ok_bind]
  split
  · split
    · rfl
    · rfl
  · rfl

/-- A long bracket has at least one character. -/
lemma advances_longBracket? {c inside : Cursor} {level : Nat}
    (h : longBracket? c = some (level, inside)) : c.Advances inside := by
  simp only [longBracket?] at h
  split at h
  · split at h
    · obtain ⟨-, rfl⟩ := Prod.mk.inj (Option.some.inj h)
      exact Cursor.advances_forward (Nat.succ_pos _) c
    · cases h
  · cases h

/-- Looking for an assigned function runs.

**Proof sketch.** What stands behind the equals sign is a suffix of the rest, and so is what stands
behind the word. So the cut that measures the distance to it is at a boundary, the difference is not
negative, and the distance in characters is the one by which the cursor is moved. -/
lemma runAssignsFunction?_eq (c : Cursor) :
    runAssignsFunction? c.inBytes = .ok ((assignsFunction? c).map Cursor.inBytes) := by
  have hrest : trimStart c.after <:+ c.after := trimStart_suffix c.after
  rw [runAssignsFunction?, assignsFunction?, Cursor.rest_inBytes, ok_bind]
  generalize trimStart c.after = rest at hrest ⊢
  cases rest with
  | nil => rfl
  | cons ch value =>
    by_cases hch : ch = '='
    · subst hch
      change (if startsWith ['='] value then pure none else _ : Run (Option Checked.Cursor))
        = .ok (Option.map Cursor.inBytes (if startsWith ['='] value then none else _))
      split
      · rfl
      · dsimp only
        cases hafter : after? "function".toList (trimStart value) with
        | none => rfl
        | some after =>
          have hnamed : trimStart value = "function".toList ++ after := after?_eq_some_iff.1 hafter
          have hsuffix : "function".toList ++ after <:+ c.after := by
            rw [← hnamed]
            exact ((trimStart_suffix value).trans (List.suffix_cons '=' value)).trans hrest
          obtain ⟨hle, hcut⟩ := sliceTo_suffix hsuffix
          have hcount : (c.after.take (c.after.length - after.length)).length
              = c.after.length - after.length := by
            rw [List.length_take]
            omega
          dsimp only
          split
          · rfl
          · rw [hnamed, minus_of_le hle, ok_bind, hcut, ok_bind, hcount, Cursor.forward_inBytes]
            rfl
    · simp [hch]

/-- An assigned function lies ahead. -/
lemma reaches_assignsFunction? {c rest : Cursor} (h : assignsFunction? c = some rest) :
    c.Reaches rest := by
  unfold assignsFunction? at h
  split at h
  · split at h
    · cases h
    · split at h
      · split at h
        · cases h
        · obtain rfl := Option.some.inj h
          exact Cursor.reaches_forward _ c
      · cases h
  · cases h

/-- Reading the owner and the name of a function runs.

**Proof sketch.** Where a colon or a period occurs, the name is split at the last one into owner,
joint and member. The joint takes one byte, so both cuts are at boundaries; they give the owner and
the member, as the reader takes them from the end. -/
lemma runFunctionMarks_eq (name : List Char) (line : Nat) :
    runFunctionMarks name line = .ok (functionMarks name line) := by
  rw [runFunctionMarks, functionMarks]
  cases hoffset : byteLastIndex? isJoint name with
  | none =>
    have hany : name.any isJoint = false := by
      simpa using byteLastIndex?_eq_none hoffset
    simp [hany]
  | some offset =>
    obtain ⟨owner, joint, member, rfl, rfl, hjoint, hmember⟩ := byteLastIndex?_eq_some hoffset
    -- both cuts are next to the joint, which takes one byte
    have hsize : joint.utf8Size = 1 := by
      simp only [isJoint, Bool.or_eq_true, beq_iff_eq] at hjoint
      rcases hjoint with rfl | rfl
      · rfl
      · rfl
    have hname : owner ++ joint :: member = owner ++ [joint] ++ member := List.append_cons _ _ _
    have hbehind : sliceFrom (owner ++ joint :: member) (byteLength owner + 1) = .ok member := by
      have hcut := sliceFrom_append (owner ++ [joint]) member
      rwa [byteLength_append, byteLength_cons, byteLength_nil, hsize, ← hname] at hcut
    -- the reader takes the member from the end
    have hlast : ((owner ++ joint :: member).reverse.takeWhile (!isJoint ·)).reverse = member := by
      have hall : ∀ d ∈ member.reverse, (!isJoint d) = true := by
        intro d hd
        rw [hmember d (List.mem_reverse.1 hd)]
        rfl
      have hreverse : (owner ++ joint :: member).reverse
          = member.reverse ++ joint :: owner.reverse := by
        rw [List.reverse_append, List.reverse_cons, List.append_assoc, List.singleton_append]
      rw [hreverse, List.takeWhile_append_of_pos hall,
        List.takeWhile_cons_of_neg (by simp [hjoint]), List.append_nil, List.reverse_reverse]
    have howner : (owner ++ joint :: member).take
        ((owner ++ joint :: member).length - member.length - 1) = owner := by
      rw [List.length_append, List.length_cons, List.take_append_of_le_length (by omega),
        List.take_of_length_le (by omega)]
    have hany : (owner ++ joint :: member).any isJoint = true :=
      List.any_eq_true.2 ⟨joint, by simp, hjoint⟩
    simp only [sliceTo_append, hbehind, hlast, howner, hany]
    rfl

/-- Reading a name runs and moves on. -/
lemma nameStep_runs (line : Nat) {c : Cursor} {ch : Char} (h : c.peek? = some ch)
    (hch : isNameChar ch = true) : (nameStep line c).RunsAs c (runNameStep line c.inBytes) := by
  have hname : c.Advances (c.span isNameChar).2 := Cursor.advances_span h hch
  rcases hspan : c.span isNameChar with ⟨name, after⟩
  rw [hspan] at hname
  simp only [runNameStep, nameStep, Cursor.span_inBytes, ok_bind, hspan]
  refine .ite (fun _ => ⟨by simp [runFunctionMarks_eq], ?_⟩) fun _ => ?_
  · exact (hname.trans (Cursor.reaches_skipBlanks after)).trans (Cursor.reaches_span isNameChar _)
  · simp only [runAssignsFunction?_eq, ok_bind, runFunctionMarks_eq]
    cases hassigns : assignsFunction? after with
    | none => exact ⟨rfl, hname⟩
    | some rest => exact ⟨rfl, hname.trans (reaches_assignsFunction? hassigns)⟩

/-- A name may begin with whatever a word may begin with. -/
lemma isNameChar_of_isAlphabetic {ch : Char} (h : (isAlphabetic ch || ch == '_') = true) :
    isNameChar ch = true := by
  simp only [isNameChar, isIdentifierChar, isAlphanumeric, Bool.or_eq_true] at h ⊢
  tauto

/-- A step runs and moves on.

**Proof sketch.** Inside a long bracket the step goes beyond the closing one. Outside, by what
stands at the cursor: comments, quotes and brackets advance by their own moves, and at a word the
name is read (`nameStep_runs`). -/
lemma step_runs (line : Nat) (state : Option Nat) {c : Cursor} {ch : Char} (h : c.peek? = some ch) :
    (step line state c ch).RunsAs c (runStep line state c.inBytes ch) := by
  have hnext : c.Advances c.next := Cursor.advances_next c
  rw [runStep.eq_def, step.eq_def]
  cases state with
  | some level =>
    simp only [Cursor.beyond_inBytes, ok_bind]
    exact ⟨rfl, Cursor.advances_beyond (List.cons_ne_nil _ _) c⟩
  | none =>
    simp only [Cursor.eat?_inBytes, ok_bind]
    cases heat : c.eat? "--".toList with
    | some comment =>
      have hcomment : c.Advances comment := Cursor.advances_eat? (List.cons_ne_nil _ _) heat
      simp only [Option.map_some, runLongBracket?_eq, ok_bind]
      cases hbracket : longBracket? comment with
      | some found =>
        exact ⟨rfl, hcomment.trans (advances_longBracket? hbracket).reaches⟩
      | none => exact ⟨by simp, hcomment.trans (Cursor.reaches_toEnd comment)⟩
    | none =>
      simp only [Option.map_none]
      refine .ite (fun hquote => ⟨by simp, Cursor.advances_overQuoted h⟩) fun _ => ?_
      refine .ite (fun _ => ?_) fun _ => ?_
      · simp only [runLongBracket?_eq, ok_bind]
        cases hbracket : longBracket? c with
        | some found => exact ⟨rfl, advances_longBracket? hbracket⟩
        | none => exact ⟨by simp, hnext⟩
      · simp only [Cursor.isAtWordStart_inBytes, ok_bind]
        refine .ite (fun hword => ?_) fun _ => ⟨by simp, hnext⟩
        exact nameStep_runs line h (isNameChar_of_isAlphabetic (Bool.and_eq_true_iff.1 hword).1)

/-- Nothing goes wrong in a Lua source. -/
theorem run_eq (lines : List (List Char)) : run lines = .ok (marks lines) := by
  have hline (state : Option Nat) (line : Nat) (text : List Char) :
      runLine state line text = .ok (readLine state line text) :=
    Cursor.walk_inBytes (fun state _ _ => step_runs line state) state (.start text)
  rw [run, readLines_eq hline]
  rfl

end Lua

/-! ## PHP sources -/

namespace Php

/-- The identifier at the cursor, if it is one, and the cursor after its characters. -/
def runIdentifierAt (c : Checked.Cursor) : Run (Option (List Char) × Checked.Cursor) := do
  let (name, after) ← c.identifier
  return (if isIdentifier name then some name else none, after)

/-- One step at a word. -/
def runWordStep (line : Nat) (s : State) (c : Checked.Cursor) : Run (Checked.Step State Mark) := do
  let (word, after) ← c.identifier
  let isMember :=
    (← c.previous).any fun before => before == '$' || before == ':' || before == '>'
  if isMember || !(← after.peek).any isBlank then return { state := s, cursor := after }
  else if classKeywords.contains (.ofList word) then
    match ← runIdentifierAt (← after.skipBlanks) with
    | (some name, rest) =>
      return { state := { s with pending := some (name, line) }, cursor := rest }
    | (none, rest) => return { state := s, cursor := rest }
  else if word = "function".toList then
    match ← runIdentifierAt (← (← after.skipBlanks).eat ['&']) with
    | (some name, rest) => return { state := s, cursor := rest, found := functionMarks s name line }
    | (none, rest) => return { state := s, cursor := rest }
  else if word = "namespace".toList ∧ s.braces = 0 then
    let (name, rest) ← (← after.skipBlanks).span fun c => isIdentifierChar c || c == '\\'
    return { state := s, cursor := rest,
             found := if name.isEmpty then [] else [.leaf .namespaces (.ofList name) line] }
  else return { state := s, cursor := after }

/-- The cursor at the closing tag, or else at the end of the line. The text in front of the tag is
cut off, and its characters are counted. -/
def runToClosingTag (c : Checked.Cursor) : Run Checked.Cursor := do
  let rest ← c.rest
  match byteOffset? "?>".toList rest with
  | some offset => c.forward (← sliceTo rest offset).length
  | none => return c.toEnd

/-- One step in code. -/
def runCodeStep (line : Nat) (s : State) (c : Checked.Cursor) (ch : Char) :
    Run (Checked.Step State Mark) := do
  if ← c.startsWith "?>".toList then
    return { state := { s with mode := .page }, cursor := ← c.forward 2 }
  else if ← c.startsWith "/*".toList then
    return { state := { s with mode := .comment }, cursor := ← c.forward 2 }
  else if ← c.startsWith "#[".toList then return { state := s, cursor := ← c.forward 2 }
  else if (← c.startsWith "//".toList) || ch == '#' then
    return { state := s, cursor := ← runToClosingTag c }
  else if ch = '"' ∨ ch = '\'' ∨ ch.toNat = 0x60 then
    return { state := { s with mode := .quoted ch }, cursor := (← c.next).2 }
  else if ch = '\x7b' then
    return { state := (openBrace s).1, cursor := (← c.next).2, found := (openBrace s).2 }
  else if ch = '\x7d' then
    return { state := (closeBrace s).1, cursor := (← c.next).2, found := (closeBrace s).2 }
  else if ch = ';' then return { state := { s with pending := none }, cursor := (← c.next).2 }
  else if isIdentifierChar ch && (← c.isAtWordStart) then runWordStep line s c
  else return { state := s, cursor := (← c.next).2 }

/-- One step. -/
def runStep (line : Nat) (s : State) (c : Checked.Cursor) (ch : Char) :
    Run (Checked.Step State Mark) := do
  match s.mode with
  | .page =>
    let (opened, inside) ← c.beyond "<?".toList
    if opened then
      return { state := { s with mode := .code },
               cursor := ← (← inside.eat "php".toList).eat ['='] }
    else return { state := s, cursor := inside }
  | .comment =>
    let (closed, after) ← c.beyond "*/".toList
    return { state := if closed then { s with mode := .code } else s, cursor := after }
  | .quoted quote =>
    let (closed, after) ← c.toClosingQuote quote
    return { state := if closed then { s with mode := .code } else s, cursor := after }
  | .code => runCodeStep line s c ch

/-- The state after a line and its marks. -/
def runLine (s : State) (line : Nat) (text : List Char) : Run (State × List Mark) := do
  let walked ← Checked.walk (runStep line) s (.start text)
  return (walked.1, propertyMarks s line text ++ walked.2)

/-- The marks of a source. -/
def run (lines : List (List Char)) : Run (List Mark) :=
  Prod.snd <$> Checked.readLines runLine 0 {} lines

/-- Reading a name at the cursor runs. -/
lemma runIdentifierAt_eq (c : Cursor) :
    runIdentifierAt c.inBytes = .ok ((identifierAt c).1, (identifierAt c).2.inBytes) := by
  rw [runIdentifierAt, Cursor.identifier_inBytes]
  rfl

/-- A name at the cursor is read forward. -/
lemma reaches_identifierAt (c : Cursor) : c.Reaches (identifierAt c).2 :=
  Cursor.reaches_span isIdentifierChar c

/-- Reading a word runs and moves on.

**Proof sketch.** The word has at least one character, which moves on; all that follows is skipping
blanks, eating a sign and reading a name, which go forward and run. -/
lemma wordStep_runs (line : Nat) (s : State) {c : Cursor} {ch : Char} (h : c.peek? = some ch)
    (hch : isIdentifierChar ch = true) :
    (wordStep line s c).RunsAs c (runWordStep line s c.inBytes) := by
  have hword : c.Advances c.identifier.2 := Cursor.advances_span h hch
  rcases hidentifier : c.identifier with ⟨word, after⟩
  rw [hidentifier] at hword
  have hblanks : c.Advances after.skipBlanks := hword.trans (Cursor.reaches_skipBlanks after)
  simp only [runWordStep, wordStep, Cursor.identifier_inBytes, Cursor.previous_inBytes,
    Cursor.peek_inBytes, Cursor.skipBlanks_inBytes, Cursor.eat_inBytes, runIdentifierAt_eq, ok_bind,
    hidentifier]
  refine .ite (fun _ => ⟨rfl, hword⟩) fun _ => ?_
  refine .ite (fun _ => ?_) fun _ => ?_
  · have hrest : c.Advances (identifierAt after.skipBlanks).2 :=
      hblanks.trans (reaches_identifierAt _)
    rcases hname : identifierAt after.skipBlanks with ⟨name, rest⟩
    rw [hname] at hrest
    cases name with
    | some name => exact ⟨rfl, hrest⟩
    | none => exact ⟨rfl, hrest⟩
  refine .ite (fun _ => ?_) fun _ => ?_
  · have hrest : c.Advances (identifierAt (after.skipBlanks.eat ['&'])).2 :=
      (hblanks.trans (Cursor.reaches_eat _ _)).trans (reaches_identifierAt _)
    rcases hname : identifierAt (after.skipBlanks.eat ['&']) with ⟨name, rest⟩
    rw [hname] at hrest
    cases name with
    | some name => exact ⟨rfl, hrest⟩
    | none => exact ⟨rfl, hrest⟩
  refine .ite (fun _ => ⟨?_, hblanks.trans (Cursor.reaches_span _ _)⟩) fun _ => ⟨rfl, hword⟩
  simp only [Cursor.span_inBytes, ok_bind]
  rfl

/-- Looking for the closing tag runs. -/
lemma runToClosingTag_eq (c : Cursor) :
    runToClosingTag c.inBytes = .ok (toClosingTag c).inBytes := by
  rw [runToClosingTag, toClosingTag, Cursor.rest_inBytes, ok_bind, byteOffset?_eq]
  cases hoffset : offset? "?>".toList c.after with
  | none => simp
  | some n =>
    have hcut : sliceTo c.after (byteLength (c.after.take n)) = .ok (c.after.take n) :=
      sliceTo_of_isPrefix (List.take_prefix n c.after)
    simp only [Option.map_some, hcut, ok_bind, Cursor.forward_inBytes, Cursor.forward_length_take]

/-- A comment that does not begin with a closing tag is read on. -/
lemma advances_toClosingTag {c : Cursor} (h : c.startsWith "?>".toList = false) :
    c.Advances (toClosingTag c) := by
  rw [toClosingTag]
  cases hoffset : offset? "?>".toList c.after with
  | none => exact Cursor.advances_toEnd c
  | some n =>
    refine Cursor.advances_forward (Nat.pos_of_ne_zero fun hn => ?_) c
    obtain ⟨rest, hrest⟩ := offset?_isPrefix hoffset
    have hstarts : c.startsWith "?>".toList = true :=
      startsWith_iff.2 ⟨rest, by rw [hrest, hn, List.drop_zero]⟩
    exact Bool.false_ne_true (h.symm.trans hstarts)

/-- A step in code runs and moves on.

**Proof sketch.** Branch by branch. The closing tag and the two signs that begin comments take two
characters, braces and quotes one, and at a word `wordStep_runs` applies. -/
lemma codeStep_runs (line : Nat) (s : State) {c : Cursor} {ch : Char} (h : c.peek? = some ch) :
    (codeStep line s c ch).RunsAs c (runCodeStep line s c.inBytes ch) := by
  have hnext : c.Advances c.next := Cursor.advances_next c
  have htwo : c.Advances (c.forward 2) := Cursor.advances_forward (by decide) c
  rw [runCodeStep, codeStep]
  simp only [Cursor.startsWith_inBytes, Cursor.isAtWordStart_inBytes, ok_bind]
  refine .ite (fun _ => ⟨by simp, htwo⟩) fun hpage => ?_
  refine .ite (fun _ => ⟨by simp, htwo⟩) fun _ => ?_
  refine .ite (fun _ => ⟨by simp, htwo⟩) fun _ => ?_
  refine .ite (fun _ => ⟨by simp [runToClosingTag_eq], ?_⟩) fun _ => ?_
  · exact advances_toClosingTag (by simpa using hpage)
  refine .ite (fun _ => ⟨by simp, hnext⟩) fun _ => ?_
  refine .ite (fun _ => ⟨by simp, hnext⟩) fun _ => ?_
  refine .ite (fun _ => ⟨by simp, hnext⟩) fun _ => ?_
  refine .ite (fun _ => ⟨by simp, hnext⟩) fun _ => ?_
  refine .ite (fun hword => ?_) fun _ => ⟨by simp, hnext⟩
  exact wordStep_runs line s h (Bool.and_eq_true_iff.1 hword).1

/-- A step runs and moves on. -/
lemma step_runs (line : Nat) (s : State) {c : Cursor} {ch : Char} (h : c.peek? = some ch) :
    (step line s c ch).RunsAs c (runStep line s c.inBytes ch) := by
  rw [runStep, step]
  simp only [Cursor.beyond_inBytes, Cursor.toClosingQuote_inBytes, ok_bind]
  cases s.mode with
  | page =>
    have hbeyond : c.Advances (c.beyond "<?".toList).2 :=
      Cursor.advances_beyond (by decide) c
    refine .ite (fun _ => ⟨by simp, ?_⟩) fun _ => ⟨rfl, hbeyond⟩
    exact (hbeyond.trans (Cursor.reaches_eat _ _)).trans (Cursor.reaches_eat _ _)
  | comment => exact ⟨rfl, Cursor.advances_beyond (by decide) c⟩
  | quoted quote => exact ⟨rfl, Cursor.advances_toClosingQuote quote c⟩
  | code => exact codeStep_runs line s h

/-- Nothing goes wrong in a PHP source. -/
theorem run_eq (lines : List (List Char)) : run lines = .ok (marks lines) := by
  have hline (s : State) (line : Nat) (text : List Char) :
      runLine s line text = .ok (readLine s line text) := by
    rw [runLine, Cursor.walk_start fun s _ _ => step_runs line s]
    rfl
  rw [run, readLines_eq hline]
  rfl

end Php

/-! ## Style sheets -/

namespace StyleSheet

/-- One step within a block that holds no rules. -/
def runBlockStep (s : State) (c : Checked.Cursor) (ch : Char) :
    Run (Checked.Step State Selector) := do
  if ch = '"' ∨ ch = '\'' then return { state := s, cursor := (← c.overQuoted ch).2 }
  else if ch = '\x7b' then
    return { state := { s with blocks := .skipped :: s.blocks }, cursor := (← c.next).2 }
  else if ch = '\x7d' then
    return { state := { s with blocks := s.blocks.tail }, cursor := (← c.next).2 }
  else return { state := s, cursor := (← c.next).2 }

/-- One step between the name of an at-rule and its block or its end. -/
def runAtRuleStep (nests : Bool) (s : State) (c : Checked.Cursor) (ch : Char) :
    Run (Checked.Step State Selector) := do
  if ch = '\x7b' then
    return {
      state := { s with atRule := none, blocks := (if nests then .rules else .skipped) :: s.blocks }
      cursor := (← c.next).2 }
  else if ch = ';' then return { state := { s with atRule := none }, cursor := (← c.next).2 }
  else if ch = '"' ∨ ch = '\'' then return { state := s, cursor := (← c.overQuoted ch).2 }
  else return { state := s, cursor := (← c.next).2 }

/-- One step among rules. A quoted literal is cut out of the line. -/
def runRuleStep (line : Nat) (s : State) (c : Checked.Cursor) (ch : Char) :
    Run (Checked.Step State Selector) := do
  if ch = '@' ∧ s.piece = none ∧ s.list = [] then
    let (name, after) ← (← c.next).2.span isRuleNameChar
    return {
      state := { s with atRule := some (groupRules.contains (.ofList (name.map Char.toLower))) }
      cursor := after }
  else if ch = '\x7b' then
    let finished := s.endSelector
    return { state := { finished with list := [], blocks := .declarations :: s.blocks }
             cursor := (← c.next).2
             found := finished.list }
  else if ch = '\x7d' then
    return { state := { s.dropSelectors with blocks := s.blocks.tail }, cursor := (← c.next).2 }
  else if ch = ';' then return { state := s.dropSelectors, cursor := (← c.next).2 }
  else if ch = ',' then return { state := s.endSelector, cursor := (← c.next).2 }
  else if ch = '"' ∨ ch = '\'' then
    let after := (← c.overQuoted ch).2
    let quoted ← slice c.line c.pos after.pos
    return { state := s.extend line quoted, cursor := after }
  else if isBlank ch then
    return { state := { s with piece := s.piece.map (·.append [ch]) }, cursor := (← c.next).2 }
  else return { state := s.extend line [ch], cursor := (← c.next).2 }

/-- One step. -/
def runStep (line : Nat) (s : State) (c : Checked.Cursor) (ch : Char) :
    Run (Checked.Step State Selector) := do
  if s.inComment then
    let (closed, after) ← c.beyond "*/".toList
    return { state := { s with inComment := !closed }, cursor := after }
  else if ← c.startsWith "/*".toList then
    return { state := { s with inComment := true }, cursor := ← c.forward 2 }
  else
    match s.block, s.atRule with
    | .rules, some nests => runAtRuleStep nests s c ch
    | .rules, none => runRuleStep line s c ch
    | _, _ => runBlockStep s c ch

/-- The state after a line and the selectors of the rules whose blocks begin on it. -/
def runLine (s : State) (line : Nat) (text : List Char) : Run (State × List Selector) := do
  let (after, found) ← Checked.walk (runStep line) s (.start text)
  return ({ after with piece := after.piece.map (·.append [' ']) }, found)

/-- The selectors of all rules, in order. -/
def runSelectors (lines : List (List Char)) : Run (List Selector) :=
  Prod.snd <$> Checked.readLines runLine 0 {} lines

/-- One pass of the loop to the end of a list of arguments, with the number of open parentheses. -/
def runArgument (so : Nat × Checked.Cursor) : Run (Checked.Cursor ⊕ Nat × Checked.Cursor) := do
  match ← so.2.next with
  | (none, c) => return .inl c
  | (some ch, c) =>
    if ch = '(' then return .inr (so.1 + 1, c)
    else if ch = ')' then
      let depth ← minus so.1 1
      return if depth = 0 then .inl c else .inr (depth, c)
    else return .inr (so.1, c)

/-- The cursor after a list of arguments whose opening parenthesis is consumed. -/
def runPastArguments (c : Checked.Cursor) : Run Checked.Cursor :=
  loop (·.2.left) runArgument (1, c)

/-- The cursor after a pseudo-class or pseudo-element, with its arguments if it has some. -/
def runPseudo (c : Checked.Cursor) : Run Checked.Cursor := do
  let name ← (← (← c.next).2.eat [':']).skipWhile isNameChar
  match ← name.eat? ['('] with
  | some inside => runPastArguments inside
  | none => return name

/-- One step along a selector. -/
def runNameStep (_ : Unit) (c : Checked.Cursor) (ch : Char) :
    Run (Checked.Step Unit (Kind × List Char)) := do
  if ch = '.' ∨ ch = '#' then
    let (name, after) ← (← c.next).2.span isNameChar
    return { state := (), cursor := after
             found :=
               if name.isEmpty then [] else [(if ch = '.' then .styles else .ids, ch :: name)] }
  else if ch = ':' then return { state := (), cursor := ← runPseudo c }
  else if ch = '[' then return { state := (), cursor := (← c.beyond [']']).2 }
  else if isAlphabetic ch || ch == '_' then
    let (name, after) ← c.span isNameChar
    return { state := (), cursor := after, found := [(.tags, name)] }
  else return { state := (), cursor := (← c.next).2 }

/-- The names that a selector uses, in order, each with its kind. -/
def runNames (selector : List Char) : Run (List (Kind × List Char)) :=
  Prod.snd <$> Checked.walk runNameStep () (.start selector)

/-- The marks of a sheet whose selectors use names. -/
def run (lines : List (List Char)) : Run (List Mark) := do
  let found ← (← runSelectors lines).mapM fun selector => do
    let names ← runNames selector.text
    return names.map fun (kind, name) => .once kind (.ofList name) selector.line
  return found.flatten

/-- The marks of a sheet whose selectors are names themselves. -/
def runStyles (lines : List (List Char)) : Run (List Mark) := do
  let found ← runSelectors lines
  return found.map fun selector => .once .styles (.ofList selector.text) selector.line

/-- A step inside a block runs and moves on. -/
lemma blockStep_runs (s : State) {c : Cursor} {ch : Char} (h : c.peek? = some ch) :
    (blockStep s c ch).RunsAs c (runBlockStep s c.inBytes ch) := by
  have hnext : c.Advances c.next := Cursor.advances_next c
  rw [runBlockStep, blockStep]
  refine .ite (fun _ => ⟨by simp, Cursor.advances_overQuoted h⟩) fun _ => ?_
  refine .ite (fun _ => ⟨by simp, hnext⟩) fun _ => ?_
  exact .ite (fun _ => ⟨by simp, hnext⟩) fun _ => ⟨by simp, hnext⟩

/-- A step inside an at-rule runs and moves on. -/
lemma atRuleStep_runs (nests : Bool) (s : State) {c : Cursor} {ch : Char}
    (h : c.peek? = some ch) :
    (atRuleStep nests s c ch).RunsAs c (runAtRuleStep nests s c.inBytes ch) := by
  have hnext : c.Advances c.next := Cursor.advances_next c
  rw [runAtRuleStep, atRuleStep]
  refine .ite (fun _ => ⟨by simp, hnext⟩) fun _ => ?_
  refine .ite (fun _ => ⟨by simp, hnext⟩) fun _ => ?_
  exact .ite (fun _ => ⟨by simp, Cursor.advances_overQuoted h⟩) fun _ => ⟨by simp, hnext⟩

/-- A step among the selectors of a rule runs and moves on. -/
lemma ruleStep_runs (line : Nat) (s : State) {c : Cursor} {ch : Char} (h : c.peek? = some ch) :
    (ruleStep line s c ch).RunsAs c (runRuleStep line s c.inBytes ch) := by
  have hnext : c.Advances c.next := Cursor.advances_next c
  rw [runRuleStep, ruleStep]
  refine .ite (fun _ => ⟨by simp, hnext.trans (Cursor.reaches_span _ _)⟩) fun _ => ?_
  refine .ite (fun _ => ⟨by simp, hnext⟩) fun _ => ?_
  refine .ite (fun _ => ⟨by simp, hnext⟩) fun _ => ?_
  refine .ite (fun _ => ⟨by simp, hnext⟩) fun _ => ?_
  refine .ite (fun _ => ⟨by simp, hnext⟩) fun _ => ?_
  refine .ite (fun _ => ?_) fun _ => ?_
  · have hquoted : c.Advances (c.overQuoted ch).2 := Cursor.advances_overQuoted h
    refine ⟨?_, hquoted⟩
    simp only [Cursor.overQuoted_inBytes, ok_bind, Cursor.slice_of_reaches hquoted.reaches]
    rfl
  exact .ite (fun _ => ⟨by simp, hnext⟩) fun _ => ⟨by simp, hnext⟩

/-- A step runs and moves on. -/
lemma step_runs (line : Nat) (s : State) {c : Cursor} {ch : Char} (h : c.peek? = some ch) :
    (step line s c ch).RunsAs c (runStep line s c.inBytes ch) := by
  rw [runStep, step]
  simp only [Cursor.beyond_inBytes, Cursor.startsWith_inBytes, ok_bind]
  refine .ite (fun _ => ⟨rfl, Cursor.advances_beyond (by decide) c⟩) fun _ => ?_
  refine .ite (fun _ => ⟨by simp, Cursor.advances_forward (by decide) c⟩) fun _ => ?_
  cases s.block with
  | rules =>
    cases s.atRule with
    | some nests => exact atRuleStep_runs nests s h
    | none => exact ruleStep_runs line s h
  | declarations => exact blockStep_runs s h
  | skipped => exact blockStep_runs s h

/-- Reading the selectors of a style sheet runs. -/
lemma runSelectors_eq (lines : List (List Char)) : runSelectors lines = .ok (selectors lines) := by
  have hline (s : State) (line : Nat) (text : List Char) :
      runLine s line text = .ok (readLine s line text) := by
    rw [runLine, Cursor.walk_start fun s _ _ => step_runs line s]
    rfl
  rw [runSelectors, readLines_eq hline]
  rfl

/-- One pass at a character. -/
lemma runArgument_inBytes {ch : Char} {c : Cursor} (h : c.peek? = some ch) (depth : Nat) :
    runArgument (depth, c.inBytes)
      = if ch = '(' then .ok (.inr (depth + 1, c.next.inBytes))
        else if ch = ')' then
          (fun d => if d = 0 then .inl c.next.inBytes else .inr (d, c.next.inBytes))
            <$> minus depth 1
        else .ok (.inr (depth, c.next.inBytes)) := by
  rw [runArgument, Cursor.next_inBytes, ok_bind, h]
  rfl

/-- The length of the arguments in parentheses, one character after the other. -/
lemma argumentsLength_cons (inner : Nat) (ch : Char) (text : List Char) :
    argumentsLength inner (ch :: text)
      = if ch = '(' then argumentsLength (inner + 1) text + 1
        else if ch = ')' then
          match inner with
          | 0 => 1
          | inner + 1 => argumentsLength inner text + 1
        else argumentsLength inner text + 1 :=
  argumentsLength.eq_def inner (ch :: text)

/-- **A list of arguments is passed over to its closing parenthesis.**

**Proof sketch.** Induction on the characters that follow the cursor, as the length of the list is
found in them. One more parenthesis is open than there are within the list, so that the number of
open ones is positive at every closing parenthesis. -/
lemma loop_runArgument (inner : Nat) (c : Cursor) :
    loop (·.2.left) runArgument (inner + 1, c.inBytes)
      = .ok (c.forward (argumentsLength inner c.after)).inBytes := by
  induction htext : c.after generalizing inner c with
  | nil =>
    have hpeek : c.peek? = none := List.head?_eq_none_iff.2 htext
    rw [argumentsLength, Cursor.forward_of_end htext]
    refine loop_of_result ?_
    rw [runArgument, Cursor.next_inBytes, ok_bind, hpeek, Cursor.next, Cursor.forward_of_end htext]
    rfl
  | cons ch text ih =>
    have hpeek : c.peek? = some ch := List.head?_eq_some_iff.2 ⟨text, htext⟩
    have hafter : c.next.after = text := Cursor.after_next htext
    have hleft : c.next.inBytes.left < c.inBytes.left :=
      Cursor.left_of_advances hpeek (Cursor.advances_next c)
    have hpass := runArgument_inBytes hpeek (inner + 1)
    rw [argumentsLength_cons]
    by_cases hopening : ch = '('
    · rw [if_pos hopening] at hpass ⊢
      rw [Cursor.forward_succ, ← ih (inner + 1) c.next hafter]
      exact loop_of_next hpass hleft
    rw [if_neg hopening] at hpass ⊢
    by_cases hclosing : ch = ')'
    · rw [if_pos hclosing] at hpass ⊢
      cases inner with
      | zero => exact loop_of_result hpass
      | succ inner =>
        rw [Cursor.forward_succ, ← ih inner c.next hafter]
        exact loop_of_next hpass hleft
    · rw [if_neg hclosing] at hpass ⊢
      rw [Cursor.forward_succ, ← ih inner c.next hafter]
      exact loop_of_next hpass hleft

/-- Skipping a pseudo-class runs. -/
lemma runPseudo_eq (c : Cursor) : runPseudo c.inBytes = .ok (skipPseudo c).inBytes := by
  rw [runPseudo, skipPseudo]
  simp only [Cursor.next_inBytes, Cursor.eat_inBytes, Cursor.skipWhile_inBytes, Cursor.eat?_inBytes,
    ok_bind]
  cases ((c.next.eat [':']).skipWhile isNameChar).eat? ['('] with
  | none => rfl
  | some inside => exact loop_runArgument 0 inside

/-- A pseudo-class has at least one character. -/
lemma advances_skipPseudo (c : Cursor) : c.Advances (skipPseudo c) := by
  have hname : c.Advances ((c.next.eat [':']).skipWhile isNameChar) :=
    ((Cursor.advances_next c).trans (Cursor.reaches_eat _ _)).trans (Cursor.reaches_span _ _)
  rw [skipPseudo]
  cases h : ((c.next.eat [':']).skipWhile isNameChar).eat? ['('] with
  | none => simpa [h] using hname
  | some inside =>
    simpa [h] using (hname.trans (Cursor.reaches_eat? h)).trans (Cursor.reaches_forward _ inside)

/-- A name may begin with whatever a word may begin with. -/
lemma isNameChar_of_isAlphabetic {ch : Char} (h : (isAlphabetic ch || ch == '_') = true) :
    isNameChar ch = true := by
  simp only [isNameChar, isAlphanumeric, Bool.or_eq_true] at h ⊢
  tauto

/-- Reading a name of a selector runs and moves on. -/
lemma nameStep_runs {c : Cursor} {ch : Char} (h : c.peek? = some ch) :
    (nameStep () c ch).RunsAs c (runNameStep () c.inBytes ch) := by
  have hnext : c.Advances c.next := Cursor.advances_next c
  rw [runNameStep, nameStep]
  refine .ite (fun _ => ⟨by simp, hnext.trans (Cursor.reaches_span _ _)⟩) fun _ => ?_
  refine .ite (fun _ => ⟨by simp [runPseudo_eq], advances_skipPseudo c⟩) fun _ => ?_
  refine .ite (fun _ => ⟨by simp, Cursor.advances_beyond (List.cons_ne_nil _ _) c⟩) fun _ => ?_
  refine .ite (fun hletter => ⟨by simp, ?_⟩) fun _ => ⟨by simp, hnext⟩
  exact Cursor.advances_span h (isNameChar_of_isAlphabetic hletter)

/-- Reading the names of a selector runs. -/
lemma runNames_eq (selector : List Char) : runNames selector = .ok (names selector) := by
  rw [runNames, Cursor.walk_start fun _ _ _ => nameStep_runs]
  rfl

/-- Nothing goes wrong in a style sheet. -/
theorem run_eq (lines : List (List Char)) : run lines = .ok (marks lines) := by
  rw [run, runSelectors_eq, ok_bind, mapM_eq fun selector _ => by rw [runNames_eq, ok_bind]; rfl]
  rfl

/-- Nothing goes wrong where the selectors are read as styles. -/
theorem runStyles_eq (lines : List (List Char)) : runStyles lines = .ok (styleMarks lines) := by
  rw [runStyles, runSelectors_eq]
  rfl

end StyleSheet

/-! ## Verilog sources -/

namespace Verilog

/-- One step at a directive. -/
def runDirectiveStep (line : Nat) (s : State) (c : Checked.Cursor) :
    Run (Checked.Step State Mark) := do
  let inside := (← c.next).2
  match ← inside.eat? "define".toList with
  | some after =>
    if s.body.isNone then
      return { state := { s with header := some { declared := .definition, line := line } }
               cursor := after }
    else return { state := s, cursor := ← inside.skipWhile isIdentifierChar }
  | none => return { state := s, cursor := ← inside.skipWhile isIdentifierChar }

/-- One step in code. -/
def runCodeStep (line : Nat) (s : State) (c : Checked.Cursor) (ch : Char) :
    Run (Checked.Step State Mark) := do
  if ch = '"' then return { state := s, cursor := (← c.overQuoted '"').2 }
  else if ch = '\x7b' then
    return { state := { s with braces := s.braces + 1 }, cursor := (← c.next).2 }
  else if ch = '\x7d' then
    return { state := { s with braces := s.braces - 1 }, cursor := (← c.next).2 }
  else if ch.toNat = 0x60 then runDirectiveStep line s c
  else if ch = ';' ∨ ch = '(' ∨ ch = '#' then
    let (after, found) := endHeader s
    return { state := if ch = ';' then { after with qualifiers := [] } else after
             cursor := (← c.next).2
             found := found }
  else if ch = ':' ∧ (← c.peekAt 1) = some ':' then
    return { state := qualify s, cursor := ← c.forward 2 }
  else if beginsWord ch && (← c.isAtWordStart) then
    let (letters, rest) ← c.span isNameChar
    let (after, found) := word s line (.ofList letters)
    return { state := after, cursor := rest, found := found }
  else if ch.isDigit then return { state := s, cursor := ← c.skipWhile isNumberChar }
  else return { state := s, cursor := (← c.next).2 }

/-- One step. -/
def runStep (line : Nat) (s : State) (c : Checked.Cursor) (ch : Char) :
    Run (Checked.Step State Mark) := do
  if s.inComment then
    let (closed, after) ← c.beyond "*/".toList
    return { state := { s with inComment := !closed }, cursor := after }
  else if ← c.startsWith "//".toList then return { state := s, cursor := c.toEnd }
  else if ← c.startsWith "/*".toList then
    return { state := { s with inComment := true }, cursor := ← c.forward 2 }
  else runCodeStep line s c ch

/-- The state after a line and its marks. -/
def runLine (s : State) (line : Nat) (text : List Char) : Run (State × List Mark) := do
  let (walked, found) ← Checked.walk (runStep line) s (.start text)
  let (ended, last) := endLine walked
  return (ended, found ++ last)

/-- The marks of a source. -/
def run (lines : List (List Char)) : Run (List Mark) :=
  Prod.snd <$> Checked.readLines runLine 0 {} lines

/-- A directive runs, and its sign moves on. -/
lemma directiveStep_runs (line : Nat) (s : State) (c : Cursor) :
    (directiveStep line s c).RunsAs c (runDirectiveStep line s c.inBytes) := by
  have hnext : c.Advances c.next := Cursor.advances_next c
  have hskip : c.Advances (c.next.skipWhile isIdentifierChar) :=
    hnext.trans (Cursor.reaches_span _ _)
  rw [runDirectiveStep, directiveStep]
  simp only [Cursor.next_inBytes, Cursor.eat?_inBytes, Cursor.skipWhile_inBytes, ok_bind]
  cases heat : c.next.eat? "define".toList with
  | none => exact ⟨rfl, hskip⟩
  | some after =>
    exact .ite (fun _ => ⟨rfl, hnext.trans (Cursor.reaches_eat? heat)⟩) fun _ => ⟨rfl, hskip⟩

/-- A digit stands in a number. -/
lemma isNumberChar_of_isDigit {c : Char} (h : c.isDigit = true) : isNumberChar c = true := by
  simp [isNumberChar, isIdentifierChar, isAlphanumeric, isNumeric_of_isDigit h]

/-- A step outside comments and strings runs and moves on. -/
lemma codeStep_runs (line : Nat) (s : State) {c : Cursor} {ch : Char} (h : c.peek? = some ch) :
    (codeStep line s c ch).RunsAs c (runCodeStep line s c.inBytes ch) := by
  have hnext : c.Advances c.next := Cursor.advances_next c
  rw [runCodeStep, codeStep]
  refine .ite (fun hquote => ⟨by simp, Cursor.advances_overQuoted (hquote ▸ h)⟩) fun _ => ?_
  refine .ite (fun _ => ⟨by simp, hnext⟩) fun _ => ?_
  refine .ite (fun _ => ⟨by simp, hnext⟩) fun _ => ?_
  refine .ite (fun _ => directiveStep_runs line s c) fun _ => ?_
  refine .ite (fun _ => ⟨by simp, hnext⟩) fun _ => ?_
  simp only [Cursor.peekAt_inBytes, Cursor.isAtWordStart_inBytes, ok_bind]
  refine .ite (fun _ => ⟨by simp, Cursor.advances_forward (by decide) c⟩) fun _ => ?_
  refine .ite (fun hword => ⟨by simp, ?_⟩) fun _ => ?_
  · exact Cursor.advances_span h (isNameChar_of_beginsWord (Bool.and_eq_true_iff.1 hword).1)
  refine .ite (fun hdigit => ⟨by simp, ?_⟩) fun _ => ⟨by simp, hnext⟩
  exact Cursor.advances_span h (isNumberChar_of_isDigit hdigit)

/-- A step runs and moves on. -/
lemma step_runs (line : Nat) (s : State) {c : Cursor} {ch : Char} (h : c.peek? = some ch) :
    (step line s c ch).RunsAs c (runStep line s c.inBytes ch) := by
  rw [runStep, step]
  simp only [Cursor.beyond_inBytes, Cursor.startsWith_inBytes, ok_bind]
  refine .ite (fun _ => ⟨rfl, Cursor.advances_beyond (by decide) c⟩) fun _ => ?_
  refine .ite (fun _ => ⟨by simp, Cursor.advances_toEnd c⟩) fun _ => ?_
  refine .ite (fun _ => ⟨by simp, Cursor.advances_forward (by decide) c⟩) fun _ => ?_
  exact codeStep_runs line s h

/-- Nothing goes wrong in a hardware description. -/
theorem run_eq (lines : List (List Char)) : run lines = .ok (marks lines) := by
  have hline (s : State) (line : Nat) (text : List Char) :
      runLine s line text = .ok (readLine s line text) := by
    rw [runLine, Cursor.walk_start fun s _ _ => step_runs line s]
    rfl
  rw [run, readLines_eq hline]
  rfl

end Verilog

end Outliner
