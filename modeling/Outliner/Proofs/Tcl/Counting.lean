import Mathlib.Tactic.Lemma
import Outliner.Scan
import Outliner.Proofs.Checked.Cursor

set_option autoImplicit false

/-!
# Counting the braces of a Tcl script

The open braces of a script are counted character by character. A brace counts unless a backslash
takes it along or it stands in a quoted literal, and a closing brace closes nothing where none is
open. Blank lines and comments count for nothing. The reader passes over a literal or an escaped
character at once, and comes to the same number at the end of each line.

## Main definitions

* `Outliner.Tcl.Place`, `Outliner.Tcl.Count` — where a character of a line stands, and how many
  braces are open in front of it.
* `Outliner.Tcl.bracesBehind` — the number of open braces behind a text.
* `Outliner.Tcl.codeAt`, `Outliner.Tcl.bracesBefore`, `Outliner.Tcl.bracesAt` — what counts of a
  line, and the number of open braces before a line and at a place of a line.

## Main results

* `Outliner.Tcl.bracesAfter_eq` — the reader counts the braces that are counted character by
  character.
-/

namespace Outliner.Tcl

/-! ## One character after the other -/

/-- Where a character of a line stands: in code or in a literal, and perhaps behind a backslash that
takes it along. -/
inductive Place where
  /-- In code. -/
  | code (escaped : Bool)
  /-- In a quoted literal. -/
  | literal (escaped : Bool)
deriving DecidableEq, Repr

/-- The place behind a character. -/
def Place.next : Place → Char → Place
  | .code true, _ => .code false
  | .code false, c =>
    if c = '\\' then .code true else if c = '"' then .literal false else .code false
  | .literal true, _ => .literal false
  | .literal false, c =>
    if c = '\\' then .literal true else if c = '"' then .code false else .literal false

/-- A place of a line, and the number of open braces in front of it. -/
structure Count where
  /-- Where the next character stands. -/
  place : Place := .code false
  /-- The number of open braces. -/
  braces : Nat
deriving DecidableEq, Repr

/-- The count behind a character. -/
def Count.next (count : Count) (c : Char) : Count where
  place := count.place.next c
  braces :=
    if count.place = .code false then
      if c = '\x7b' then count.braces + 1
      else if c = '\x7d' then count.braces - 1 else count.braces
    else count.braces

/-- The number of open braces behind a text with which a line begins, given the number before the
line. -/
def bracesBehind (before : Nat) (text : List Char) : Nat :=
  (text.foldl Count.next { braces := before }).braces

/-- A literal that is closed opens and closes no braces.

**Proof sketch.** Induction along the characters of the literal, as its length is found in them. A
backslash takes the next one along, and only the closing quote leads out. -/
lemma foldl_literal_some {text : List Char} {n : Nat} (h : Cursor.quotedLength? '"' text = some n)
    (braces : Nat) :
    text.foldl Count.next ⟨.literal false, braces⟩
      = (text.drop n).foldl Count.next { braces := braces } := by
  induction text using Cursor.quotedLength?.induct '"' generalizing n with
  | case1 => cases h
  | case2 => cases h
  | case3 c text ih =>
    rw [Cursor.quotedLength?] at h
    obtain ⟨m, hm, rfl⟩ := Option.map_eq_some_iff.1 h
    show text.foldl Count.next ⟨.literal false, braces⟩ = _
    rw [ih hm]
    rfl
  | case4 text hlast hescape =>
    rw [Cursor.quotedLength?_cons (Cursor.ne_backslash hlast hescape), if_pos rfl] at h
    obtain rfl := Option.some.inj h
    rfl
  | case5 c text hlast hescape hne ih =>
    have hc : c ≠ '\\' := Cursor.ne_backslash hlast hescape
    rw [Cursor.quotedLength?_cons hc, if_neg hne] at h
    obtain ⟨m, hm, rfl⟩ := Option.map_eq_some_iff.1 h
    have hnext : Count.next ⟨.literal false, braces⟩ c = ⟨.literal false, braces⟩ := by
      simp [Count.next, Place.next, hc, hne]
    rw [List.foldl_cons, hnext, ih hm, List.drop_succ_cons]

/-- A literal that is not closed opens and closes no braces either.

**Proof sketch.** As before, along the characters of the literal, but none of them closes it. -/
lemma foldl_literal_none {text : List Char} (h : Cursor.quotedLength? '"' text = none)
    (braces : Nat) : (text.foldl Count.next ⟨.literal false, braces⟩).braces = braces := by
  induction text using Cursor.quotedLength?.induct '"' with
  | case1 => rfl
  | case2 => rfl
  | case3 c text ih =>
    rw [Cursor.quotedLength?, Option.map_eq_none_iff] at h
    exact ih h
  | case4 text hlast hescape =>
    rw [Cursor.quotedLength?_cons (Cursor.ne_backslash hlast hescape), if_pos rfl] at h
    cases h
  | case5 c text hlast hescape hne ih =>
    have hc : c ≠ '\\' := Cursor.ne_backslash hlast hescape
    rw [Cursor.quotedLength?_cons hc, if_neg hne, Option.map_eq_none_iff] at h
    have hnext : Count.next ⟨.literal false, braces⟩ c = ⟨.literal false, braces⟩ := by
      simp [Count.next, Place.next, hc, hne]
    rw [List.foldl_cons, hnext, ih h]

/-! ## The walk of the reader -/

/-- A step of the reader goes on, and keeps the count of what is left of the line.

**Proof sketch.** Behind a backslash one more character is passed over, behind a quote the literal;
neither counts. Any other character is counted by itself. -/
lemma braceStep_keeps {c : Cursor} {ch : Char} {rest : List Char} (hrest : c.after = ch :: rest)
    (braces : Nat) :
    let step := braceStep braces c ch
    step.cursor.after.length < c.after.length
      ∧ (step.cursor.after.foldl Count.next { braces := step.state }).braces
        = bracesBehind braces c.after := by
  have hnext : c.next.after = rest := by rw [Cursor.next, Cursor.after_forward, hrest]; rfl
  rw [bracesBehind, hrest, List.foldl_cons]
  dsimp only
  by_cases hescape : ch = '\\'
  -- a backslash
  · subst hescape
    have hforward : (c.forward 2).after = rest.drop 1 := by
      rw [Cursor.after_forward, hrest]
      rfl
    have hshorter : (rest.drop 1).length < ('\\' :: rest).length := by
      rw [List.length_drop, List.length_cons]
      omega
    simp only [braceStep, if_true, hforward]
    refine ⟨hshorter, ?_⟩
    cases rest <;> rfl
  · by_cases hquote : ch = '"'
    -- a literal
    · subst hquote
      simp only [braceStep, if_neg hescape, if_true]
      have hplace : Count.next { braces := braces } '"' = ⟨.literal false, braces⟩ := rfl
      rw [hplace, Cursor.toClosingQuote, hnext]
      cases hlength : Cursor.quotedLength? '"' rest with
      | some n =>
        dsimp only
        rw [Cursor.after_forward, hnext]
        have hshorter : (rest.drop n).length < ('"' :: rest).length := by
          rw [List.length_drop, List.length_cons]
          omega
        exact ⟨hshorter, congrArg Count.braces (foldl_literal_some hlength braces).symm⟩
      | none =>
        dsimp only
        rw [Cursor.toEnd, Cursor.after_forward, List.drop_length]
        exact ⟨by simp, (foldl_literal_none hlength braces).symm⟩
    -- any other character
    · have hplace : Count.next { braces := braces } ch
          = { braces := (braceStep braces c ch).state } := by
        simp only [Count.next, Place.next, braceStep, hescape, hquote, if_false, if_true]
        split
        · rfl
        · split <;> rfl
      have hcursor : (braceStep braces c ch).cursor.after = rest := by
        simp only [braceStep, hescape, hquote, if_false]
        split
        · exact hnext
        · split <;> exact hnext
      rw [hcursor, hplace]
      exact ⟨by simp, rfl⟩

/-- **The reader counts the braces that are counted character by character.**

**Proof sketch.** Induction on the number of characters that are left, with `braceStep_keeps` for
the first step. -/
theorem bracesAfter_eq (before : Nat) (text : List Char) :
    bracesAfter before text = bracesBehind before text := by
  suffices h : ∀ (n : Nat) (braces : Nat) (c : Cursor), c.after.length = n →
      (Cursor.walk braceStep braces c).1 = bracesBehind braces c.after from
    h _ before (.start text) rfl
  intro n
  induction n using Nat.strongRecOn with
  | _ n ih =>
    intro braces c hn
    cases hrest : c.after with
    | nil =>
      rw [Cursor.walk_end _ _ hrest]
      rfl
    | cons ch rest =>
      obtain ⟨hmoves, hcount⟩ := braceStep_keeps hrest braces
      rw [Cursor.walk_step _ _ hrest hmoves, ← hrest, ← hcount]
      exact ih _ (hn ▸ hmoves) _ _ rfl

/-- A command does not change the number of open braces by itself. -/
lemma braces_declare (state : State) (line : Nat) (command : Command) :
    (declare state line command).1.braces = state.braces := by
  cases command <;> rfl

/-! ## The lines of a script -/

section Lines

variable (lines : List (List Char))

/-- Whether the line says anything: it is neither blank nor a comment. -/
def isCode (text : List Char) : Bool :=
  !((trimStart text).isEmpty || Language.tcl.comments.isLineComment (trimStart text))

/-- What is read of a line: all of it, or nothing if it is blank or a comment. -/
def codeAt (i : Nat) : List Char := (lines[i]?.filter isCode).getD []

/-- The number of open braces before a line. -/
def bracesBefore : Nat → Nat
  | 0 => 0
  | i + 1 => bracesBehind (bracesBefore i) (codeAt lines i)

/-- The number of open braces on a line, behind as many of its characters. -/
def bracesAt (i n : Nat) : Nat := bracesBehind (bracesBefore lines i) ((codeAt lines i).take n)

variable {lines} {i n : Nat} {text : List Char}

/-- On a line of code all characters are code. -/
lemma codeAt_of_isCode (htext : lines[i]? = some text) (h : isCode text = true) :
    codeAt lines i = text := by
  rw [codeAt, htext, Option.filter_some, h]
  rfl

/-- On any other line none is. -/
lemma codeAt_of_not_isCode (htext : lines[i]? = some text) (h : isCode text = false) :
    codeAt lines i = [] := by
  rw [codeAt, htext, Option.filter_some, h]
  rfl

/-- Behind its last character, a line has the braces of the next one. -/
lemma bracesAt_of_le (h : (codeAt lines i).length ≤ n) :
    bracesAt lines i n = bracesBefore lines (i + 1) := by
  rw [bracesAt, List.take_of_length_le h, bracesBefore]

end Lines

end Outliner.Tcl
