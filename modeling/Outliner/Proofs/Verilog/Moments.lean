import Mathlib.Logic.Relation
import Mathlib.Tactic.Lemma
import Outliner.Scan
import Outliner.Proofs.Verilog.Tokens

set_option autoImplicit false

/-!
# The moments of reading a Verilog source

Here is the reading of a source moment by moment: in front of each line, behind each token, and at
the end of each line. At each moment it is known what is carried along, which marks were found and
which tokens were read. From each moment the end of the source is reached, where the marks are those
of the source.

## Main definitions

* `Outliner.Verilog.Token.counted` — how a token counts, between braces or outside.
* `Outliner.Verilog.Moment`, `Outliner.Verilog.Moment.Next`, `Outliner.Verilog.Reached` — the
  moments of reading a source.
* `Outliner.Verilog.Moment.draft` — what the marks found so far make.

## Main results

* `Outliner.Verilog.step_cases` — a step is what its token does, or passes over a part of a comment.
* `Outliner.Verilog.Reached.exists_end` — from each moment the end of the source is reached.
-/

namespace Outliner.Verilog

open Relation (ReflTransGen)

/-! ## Steps and their tokens -/

/-- What a token counts as where some braces are open: words between braces are no words of a
declaration, and blanks are nothing. -/
def Token.counted (braces : Nat) : Token → List Token
  | .word text => [if braces > 0 then .other else .word text]
  | .blank => []
  | token => [token]

/-- The tokens that a step reads: one in code, and none in comments. -/
def tokensAt (s : State) (c : Cursor) (ch : Char) : List Token :=
  if s.inComment || c.startsWith "//".toList || c.startsWith "/*".toList then []
  else (tokenAt c ch).counted s.braces

section Steps

variable {s : State} {c : Cursor} {ch : Char}

/-- **A step passes over a part of a comment, or it is what its token does.**

**Proof sketch.** In a comment, and where one begins, nothing is found and no token is read.
Everywhere else a step takes the token at the cursor. -/
lemma step_cases (line : Nat) (s : State) (hch : c.peek? = some ch) :
    ((∃ commented, (step line s c ch).state = { s with inComment := commented })
        ∧ (step line s c ch).found = [] ∧ tokensAt s c ch = [])
      ∨ ((step line s c ch).state = (act line s (tokenAt c ch)).1
        ∧ (step line s c ch).found = (act line s (tokenAt c ch)).2
        ∧ tokensAt s c ch = (tokenAt c ch).counted s.braces
        ∧ s.inComment = false) := by
  unfold step tokensAt
  by_cases hcomment : s.inComment = true
  · rw [if_pos hcomment, hcomment]
    exact .inl ⟨⟨_, rfl⟩, rfl, rfl⟩
  rw [if_neg hcomment]
  by_cases hremark : c.startsWith "//".toList = true
  · rw [if_pos hremark, hremark, Bool.or_true]
    exact .inl ⟨⟨s.inComment, rfl⟩, rfl, rfl⟩
  rw [if_neg hremark]
  by_cases hopens : c.startsWith "/*".toList = true
  · rw [if_pos hopens, hopens, Bool.or_true]
    exact .inl ⟨⟨true, rfl⟩, rfl, rfl⟩
  rw [if_neg hopens]
  rw [Bool.not_eq_true] at hcomment hremark hopens
  rw [hcomment, hremark, hopens]
  obtain ⟨hstate, hfound⟩ := codeStep_acts line s hch
  exact .inr ⟨hstate, hfound, rfl, rfl⟩

end Steps

/-! ## Moments -/

/-- A moment in the reading of a source. -/
structure Moment where
  /-- The number of the line. -/
  line : Nat := 0
  /-- The place on the line, unless the moment is in front of it. -/
  cursor : Option Cursor := none
  /-- What is carried along. -/
  state : State := {}
  /-- The marks found so far. -/
  found : List Mark := []
  /-- The tokens read so far. -/
  tokens : List Token := []

namespace Moment

/-- What the marks found so far make. -/
def draft (m : Moment) : Draft := Draft.marks { document := .withLegend legend } m.found

/-- The moment behind a step. -/
def step (m : Moment) (c : Cursor) (ch : Char) : Moment where
  line := m.line
  cursor := (Verilog.step m.line m.state c ch).cursor
  state := (Verilog.step m.line m.state c ch).state
  found := m.found ++ (Verilog.step m.line m.state c ch).found
  tokens := m.tokens ++ tokensAt m.state c ch

/-- The moment behind the end of the line. -/
def leave (m : Moment) : Moment where
  line := m.line + 1
  state := (endLine m.state).1
  found := m.found ++ (endLine m.state).2
  tokens := m.tokens

/-- One moment comes directly after another in the reading of the lines. -/
inductive Next (lines : List (List Char)) (m : Moment) : Moment → Prop
  /-- A line is read from its beginning on. -/
  | line {text : List Char} (hcursor : m.cursor = none) (htext : lines[m.line]? = some text) :
      Next lines m { m with cursor := some (.start text) }
  /-- A step is made at the next character. -/
  | step {c : Cursor} {ch : Char} (hcursor : m.cursor = some c) (hch : c.peek? = some ch) :
      Next lines m (m.step c ch)
  /-- At its end a line is left. -/
  | leave {c : Cursor} (hcursor : m.cursor = some c) (hend : c.peek? = none) :
      Next lines m m.leave

end Moment

/-- The moment is reached in reading the lines. -/
def Reached (lines : List (List Char)) : Moment → Prop := ReflTransGen (Moment.Next lines) {}

/-! ## From a moment to the end -/

variable {lines : List (List Char)} {m m' : Moment}

namespace Moment

/-- The number of lines of which something is read. -/
def linesRead (m : Moment) : Nat := if m.cursor.isNone then m.line else m.line + 1

/-- What the rest of the reading of the line makes of the moment. -/
def finishLine (m : Moment) : State × List Mark :=
  match m.cursor with
  | none => (m.state, m.found)
  | some c =>
    let (ended, further) := commentReader.restOfLine m.line m.state c
    (ended, m.found ++ further)

/-- The moment agrees with the reading of the source line by line. -/
def Agrees (lines : List (List Char)) (m : Moment) : Prop :=
  m.linesRead ≤ lines.length
    ∧ m.finishLine = readLines readLine 0 {} (lines.take m.linesRead)

/-- A step does not change what the rest of the line makes. -/
lemma finishLine_step {c : Cursor} {ch : Char} (hcursor : m.cursor = some c)
    (hch : c.peek? = some ch) : (m.step c ch).finishLine = m.finishLine := by
  unfold finishLine
  rw [hcursor]
  simp only [step, CommentReader.restOfLine]
  rw [CommentReader.walk_eq m.line m.state hch, commentReader_step]
  simp only [List.append_assoc]

/-- **What comes next agrees with the reading line by line, too.**

**Proof sketch.** When a line begins, one more line is read. A step along the line leaves the rest
of the line to be read from where it leads. At the end of the line nothing is left to be read. -/
lemma Agrees.next (h : m.Agrees lines) (hnext : m.Next lines m') : m'.Agrees lines := by
  obtain ⟨hle, hreads⟩ := h
  cases hnext with
  | @line text hcursor htext =>
    obtain ⟨hi, -⟩ := List.getElem?_eq_some_iff.1 htext
    have hread : m.linesRead = m.line := by rw [linesRead, hcursor]; rfl
    have hfinish : m.finishLine = (m.state, m.found) := by rw [finishLine, hcursor]
    have htake : lines.take (m.line + 1) = lines.take m.line ++ [text] := by
      rw [List.take_add_one, htext]
      rfl
    have hlength : (lines.take m.line).length = m.line :=
      List.length_take_of_le (Nat.le_of_lt hi)
    rw [hread, hfinish] at hreads
    refine ⟨hi, ?_⟩
    show _ = readLines readLine 0 {} (lines.take (m.line + 1))
    rw [htake, readLines_append, hlength, Nat.zero_add, ← hreads, ← commentReader_readLine]
    simp [readLines, finishLine, CommentReader.readLine]
  | @step c ch hcursor hch =>
    have hread : (m.step c ch).linesRead = m.linesRead := by
      rw [linesRead, linesRead, hcursor]
      rfl
    rw [Agrees, hread, finishLine_step hcursor hch]
    exact ⟨hle, hreads⟩
  | @leave c hcursor hend =>
    have hafter : c.after = [] := List.head?_eq_none_iff.1 hend
    have hread : m.leave.linesRead = m.linesRead := by rw [linesRead, linesRead, hcursor]; rfl
    have hfinish : m.leave.finishLine = m.finishLine := by
      unfold finishLine
      rw [hcursor]
      simp only [leave, CommentReader.restOfLine, Cursor.walk_end _ _ hafter]
      rfl
    rw [Agrees, hread, hfinish]
    exact ⟨hle, hreads⟩

end Moment

/-- Every moment that is reached agrees with the reading line by line. -/
lemma Reached.agrees (h : Reached lines m) : m.Agrees lines := by
  induction h with
  | refl => exact ⟨Nat.zero_le _, rfl⟩
  | tail _ hnext ih => exact ih.next hnext

/-- In front of a line the lines before it are read. -/
lemma Reached.eq_readLines (h : Reached lines m) (hfront : m.cursor = none) :
    (m.state, m.found) = readLines readLine 0 {} (lines.take m.line) := by
  obtain ⟨-, hreads⟩ := h.agrees
  rw [Moment.linesRead, Moment.finishLine, hfront] at hreads
  exact hreads

/-- The end of the source: all lines are left. -/
def Moment.AtEnd (lines : List (List Char)) (m : Moment) : Prop :=
  m.line = lines.length ∧ m.cursor = none

/-- At the end of the source the marks are those of the source. -/
lemma Reached.found_of_atEnd (h : Reached lines m) (hend : m.AtEnd lines) :
    m.found = marks lines := by
  have hreads := h.eq_readLines hend.2
  rw [hend.1, List.take_length] at hreads
  exact congrArg Prod.snd hreads

/-- A line that is being read is left. -/
lemma Moment.exists_leave (lines : List (List Char)) {c : Cursor} (hcursor : m.cursor = some c) :
    ∃ m', ReflTransGen (Moment.Next lines) m m' ∧ m'.cursor = none ∧ m'.line = m.line + 1 := by
  induction hn : c.after.length using Nat.strong_induction_on generalizing c m with
  | _ n ih =>
    cases hch : c.peek? with
    | none => exact ⟨m.leave, .single (.leave hcursor hch), rfl, rfl⟩
    | some ch =>
      have hmoves := Cursor.length_after_of_advances hch (step_runs m.line m.state hch).advances
      obtain ⟨m', hreached, hfront, hline⟩ := ih _ (hn ▸ hmoves)
        (rfl : (m.step c ch).cursor = some _) rfl
      exact ⟨m', .head (.step hcursor hch) hreached, hfront, hline⟩

/-- From the front of a line the front of the next one is reached. -/
lemma Moment.exists_next_line (hfront : m.cursor = none) (hline : m.line < lines.length) :
    ∃ m', ReflTransGen (Moment.Next lines) m m' ∧ m'.cursor = none ∧ m'.line = m.line + 1 := by
  have hbegins : m.Next lines { m with cursor := some (.start lines[m.line]) } :=
    .line hfront (List.getElem?_eq_getElem hline)
  obtain ⟨m', hleaves, hfront', hnext⟩ := Moment.exists_leave lines
    (rfl : ({ m with cursor := some (.start lines[m.line]) } : Moment).cursor = some _)
  exact ⟨m', .head hbegins hleaves, hfront', hnext⟩

/-- From the front of a line the end of the source is reached.

**Proof sketch.** Induction on the number of lines that are left. The next one is read and left. -/
lemma Reached.exists_end_of_front (h : Reached lines m) (hfront : m.cursor = none) :
    ∃ m', ReflTransGen (Moment.Next lines) m m' ∧ m'.AtEnd lines := by
  induction hn : lines.length - m.line generalizing m with
  | zero =>
    have hread : m.linesRead = m.line := by rw [Moment.linesRead, hfront]; rfl
    have hle := h.agrees.1
    exact ⟨m, .refl, by omega, hfront⟩
  | succ n ih =>
    have hmore : m.line < lines.length := by omega
    obtain ⟨m', hreaches, hfront', hnext⟩ := Moment.exists_next_line hfront hmore
    have hleft : lines.length - m'.line = n := by omega
    obtain ⟨last, hlast, hend⟩ := ih (h.trans hreaches) hfront' hleft
    exact ⟨last, hreaches.trans hlast, hend⟩

/-- **From each moment the end of the source is reached.** -/
theorem Reached.exists_end (h : Reached lines m) :
    ∃ m', ReflTransGen (Moment.Next lines) m m' ∧ m'.AtEnd lines := by
  cases hcursor : m.cursor with
  | none => exact h.exists_end_of_front hcursor
  | some c =>
    obtain ⟨m', hreaches, hfront, -⟩ := Moment.exists_leave lines hcursor
    obtain ⟨last, hlast, hend⟩ := Reached.exists_end_of_front (h.trans hreaches) hfront
    exact ⟨last, hreaches.trans hlast, hend⟩

/-- The moment in front of a line of the source is reached. -/
lemma exists_reached {i : Nat} (hi : i ≤ lines.length) :
    ∃ m, Reached lines m ∧ m.cursor = none ∧ m.line = i := by
  induction i with
  | zero => exact ⟨{}, .refl, rfl, rfl⟩
  | succ i ih =>
    obtain ⟨m, hm, hfront, rfl⟩ := ih (Nat.le_of_succ_le hi)
    obtain ⟨m', hreaches, hfront', hnext⟩ := Moment.exists_next_line hfront hi
    exact ⟨m', hm.trans hreaches, hfront', hnext⟩

/-! ## What stays -/

/-- What was found and read stays, and no line is read again. -/
structure Moment.Grows (m m' : Moment) : Prop where
  /-- The lines are read in order. -/
  line : m.line ≤ m'.line
  /-- The marks found before are the first ones. -/
  found : m.found <+: m'.found
  /-- So are the tokens read before. -/
  tokens : m.tokens <+: m'.tokens

/-- What comes next goes on from what was before. -/
lemma Moment.Next.grows (h : m.Next lines m') : m.Grows m' := by
  cases h with
  | line hcursor htext => exact ⟨Nat.le_refl _, List.prefix_refl _, List.prefix_refl _⟩
  | step hcursor hch => exact ⟨Nat.le_refl _, List.prefix_append _ _, List.prefix_append _ _⟩
  | leave hcursor hend => exact ⟨Nat.le_succ _, List.prefix_append _ _, List.prefix_refl _⟩

/-- Whatever is read later on, what was found and read stays. -/
lemma Moment.grows_of_later (h : ReflTransGen (Moment.Next lines) m m') : m.Grows m' := by
  induction h with
  | refl => exact ⟨Nat.le_refl _, List.prefix_refl _, List.prefix_refl _⟩
  | tail _ hnext ih =>
    obtain ⟨hline, hfound, htokens⟩ := hnext.grows
    exact ⟨ih.line.trans hline, ih.found.trans hfound, ih.tokens.trans htokens⟩

/-- What was found at a moment is found in the source. -/
lemma Reached.found_isPrefix (h : Reached lines m) : m.found <+: marks lines := by
  obtain ⟨last, hlater, hend⟩ := h.exists_end
  rw [← Reached.found_of_atEnd (h.trans hlater) hend]
  exact (Moment.grows_of_later hlater).found

/-! ## Computing moments -/

namespace Moment

/-- The moment that comes next, if the source is not at its end. -/
def next? (lines : List (List Char)) (m : Moment) : Option Moment :=
  match m.cursor with
  | none => lines[m.line]?.map fun text => { m with cursor := some (.start text) }
  | some c =>
    match c.peek? with
    | some ch => some (m.step c ch)
    | none => some m.leave

/-- What comes next is determined.

**Proof sketch.** At the end of a line the next line begins, if there is one. Within a line there is
a step while a character is left, and then the line is left. -/
lemma next?_eq_some_iff : m.next? lines = some m' ↔ m.Next lines m' := by
  constructor
  · intro h
    unfold next? at h
    split at h
    · next hcursor =>
      obtain ⟨text, htext, rfl⟩ := Option.map_eq_some_iff.1 h
      exact .line hcursor htext
    · next c hcursor =>
      split at h
      · next ch hch =>
        obtain rfl := Option.some.inj h
        exact .step hcursor hch
      · next hend =>
        obtain rfl := Option.some.inj h
        exact .leave hcursor hend
  · intro h
    unfold next?
    cases h with
    | line hcursor htext => rw [hcursor, htext]; rfl
    | step hcursor hch => simp only [hcursor, hch]
    | leave hcursor hend => simp only [hcursor, hend]

/-- The moment after a number of steps, or at the end of the source. -/
def after (lines : List (List Char)) : Nat → Moment → Moment
  | 0, m => m
  | n + 1, m => (m.next? lines).elim m (after lines n)

end Moment

/-- What is reached after a number of steps is reached. -/
lemma Reached.after (h : Reached lines m) (n : Nat) : Reached lines (m.after lines n) := by
  induction n generalizing m with
  | zero => exact h
  | succ n ih =>
    rw [Moment.after]
    cases hnext : m.next? lines with
    | none => exact h
    | some m' => exact ih (h.tail (Moment.next?_eq_some_iff.1 hnext))

end Outliner.Verilog
