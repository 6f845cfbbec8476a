import Outliner.Cursor.Walk
import Outliner.Proofs.Checked
import Outliner.Proofs.Excerpt

set_option autoImplicit false

/-!
# A cursor with checks

A program keeps its place on a line as a byte offset, and all that it looks at is a part of the line
that begins or ends there. This module has the moves of such a cursor, each with the cuts that it
makes, and the walk along a line that fails where a step does not move on. They never fail: the
cursor of `Outliner.Cursor` is always at such a place, and its moves are these.

## Main definitions

* `Outliner.Checked.Cursor` — a line and a byte offset.
* `Outliner.Cursor.inBytes` — the place of a cursor in bytes.
* `Outliner.Cursor.Reaches`, `Outliner.Cursor.Advances` — where moves lead.
* `Outliner.Checked.walk` — the walk along a line.
* `Outliner.Cursor.Step.RunsAs` — a step runs, has the outcome it should, and moves on.

## Main results

* `Outliner.Cursor.walk_inBytes`, `Outliner.Cursor.walk_start` — a walk runs if its steps do.
-/

namespace Outliner

namespace Checked

/-! ## Moves -/

/-- A place on a line. -/
structure Cursor where
  /-- The line. -/
  line : List Char
  /-- The byte offset of the place. -/
  pos : Nat
deriving DecidableEq, Repr

namespace Cursor

/-- The number of bytes that are left. -/
def left (c : Cursor) : Nat := byteLength c.line - c.pos

/-- The cursor at the start of a line. -/
def start (line : List Char) : Cursor := ⟨line, 0⟩

/-- Whether the whole line is consumed. -/
def isAtEnd (c : Cursor) : Bool := byteLength c.line ≤ c.pos

/-- What is not consumed yet. -/
def rest (c : Cursor) : Run (List Char) := sliceFrom c.line c.pos

/-- What is consumed. -/
def consumed (c : Cursor) : Run (List Char) := sliceTo c.line c.pos

/-- The next character. -/
def peek (c : Cursor) : Run (Option Char) := List.head? <$> c.rest

/-- The character `n` places after the next one. -/
def peekAt (n : Nat) (c : Cursor) : Run (Option Char) := (·[n]?) <$> c.rest

/-- The character just consumed. -/
def previous (c : Cursor) : Run (Option Char) := List.getLast? <$> c.consumed

/-- Whether the rest begins with the pattern. -/
def startsWith (pattern : List Char) (c : Cursor) : Run Bool :=
  Outliner.startsWith pattern <$> c.rest

/-- Whether a word may begin at the cursor. -/
def isAtWordStart (c : Cursor) : Run Bool := (!Option.any isIdentifierChar ·) <$> c.previous

/-- The next character, and the cursor after it. -/
def next (c : Cursor) : Run (Option Char × Cursor) := do
  match ← c.peek with
  | none => return (none, c)
  | some ch => return (some ch, { c with pos := c.pos + ch.utf8Size })

/-- The cursor `n` characters further on, or at the end if fewer are left. -/
def forward : Nat → Cursor → Run Cursor
  | 0, c => return c
  | n + 1, c => do
    match ← c.next with
    | (none, c) => return c
    | (some _, c) => c.forward n

/-- The cursor at the end of the line. -/
def toEnd (c : Cursor) : Cursor := { c with pos := byteLength c.line }

/-- The cursor after the pattern, if the rest begins with it. -/
def eat? (pattern : List Char) (c : Cursor) : Run (Option Cursor) := do
  if ← c.startsWith pattern then return some { c with pos := c.pos + byteLength pattern }
  else return none

/-- The cursor after the pattern if the rest begins with it, and unmoved otherwise. -/
def eat (pattern : List Char) (c : Cursor) : Run Cursor := (Option.getD · c) <$> c.eat? pattern

/-- The cursor after the characters of the class. -/
def skipWhile (p : Char → Bool) (c : Cursor) : Run Cursor :=
  loop left (fun c => do
    match ← c.peek with
    | none => return .inl c
    | some ch => return if p ch then .inr { c with pos := c.pos + ch.utf8Size } else .inl c) c

/-- The cursor after the blanks. -/
def skipBlanks (c : Cursor) : Run Cursor := c.skipWhile isBlank

/-- The longest run of characters of the class at the cursor, and the cursor after it. -/
def span (p : Char → Bool) (c : Cursor) : Run (List Char × Cursor) := do
  let after ← c.skipWhile p
  return (← slice c.line c.pos after.pos, after)

/-- The identifier characters at the cursor, and the cursor after them. -/
def identifier (c : Cursor) : Run (List Char × Cursor) := c.span isIdentifierChar

/-- Moves beyond the next occurrence of the pattern and says whether there was one; if not, to the
end. -/
def beyond (pattern : List Char) (c : Cursor) : Run (Bool × Cursor) := do
  match byteOffset? pattern (← c.rest) with
  | some offset => return (true, { c with pos := c.pos + (offset + byteLength pattern) })
  | none => return (false, c.toEnd)

/-- Moves after the closing quote of a literal whose opening quote is consumed and says whether
there was one; if not, to the end. -/
def toClosingQuote (quote : Char) (c : Cursor) : Run (Bool × Cursor) :=
  loop left (fun c => do
    match ← c.next with
    | (none, c) => return .inl (false, c)
    | (some ch, c) =>
      if ch = '\\' then return .inr (← c.next).2
      else if ch = quote then return .inl (true, c)
      else return .inr c) c

/-- Moves over a quoted literal that begins at the cursor and says whether it is closed. -/
def overQuoted (quote : Char) (c : Cursor) : Run (Bool × Cursor) := do
  if (← c.peek) = some quote then (← c.next).2.toClosingQuote quote else return (false, c)

end Cursor

/-! ## Walks -/

/-- The outcome of one step: the state and the cursor after it, and what it found. -/
structure Step (σ α : Type) where
  /-- The state after the step. -/
  state : σ
  /-- The cursor after the step. -/
  cursor : Cursor
  /-- What the step found, in order. -/
  found : List α := []

/-- Walks to the end of the line, and gives the last state and all that was found. -/
def walk {σ α : Type} (step : σ → Cursor → Char → Run (Step σ α)) (state : σ) (c : Cursor) :
    Run (σ × List α) :=
  loop (·.cursor.left) (fun so => do
    match ← so.cursor.peek with
    | none => return .inl (so.state, so.found)
    | some ch =>
      let here ← step so.state so.cursor ch
      return .inr { here with found := so.found ++ here.found })
    ({ state := state, cursor := c } : Step σ α)

end Checked

/-! ## Places -/

namespace Cursor

/-- The place of the cursor in bytes. -/
def inBytes (c : Cursor) : Checked.Cursor := ⟨c.line, c.position⟩

/-- What is left of the line in bytes is what the characters after the cursor take. -/
lemma left_inBytes (c : Cursor) : c.inBytes.left = byteLength c.after := by
  rw [Checked.Cursor.left, inBytes, line, byteLength_append, consumed, byteLength_reverse, position]
  exact Nat.add_sub_cancel_left _ _

/-- A cursor in bytes is at the end if the cursor is. -/
@[simp] lemma isAtEnd_inBytes (c : Cursor) : c.inBytes.isAtEnd = c.isAtEnd := by
  have hlength : byteLength c.line = c.position + byteLength c.after := by
    rw [line, byteLength_append, consumed, byteLength_reverse, position]
  rw [Checked.Cursor.isAtEnd, inBytes, hlength, isAtEnd]
  cases c.after with
  | nil => simp
  | cons ch after =>
    have hch : 0 < ch.utf8Size := ch.utf8Size_pos
    refine decide_eq_false ?_
    change ¬ c.position + (ch.utf8Size + byteLength after) ≤ c.position
    omega

/-! ### Looking -/

/-- The characters behind a cursor take as many bytes as its position. -/
lemma byteLength_consumed (c : Cursor) : byteLength c.consumed = c.position := by
  rw [consumed, byteLength_reverse, position]

/-- The rest of the line is cut off without anything going wrong. -/
@[simp] lemma rest_inBytes (c : Cursor) : c.inBytes.rest = .ok c.after := by
  have hrest := Checked.sliceFrom_append c.consumed c.after
  rwa [byteLength_consumed] at hrest

/-- So is what is behind the cursor. -/
@[simp] lemma consumed_inBytes (c : Cursor) : c.inBytes.consumed = .ok c.consumed := by
  have hconsumed := Checked.sliceTo_append c.consumed c.after
  rwa [byteLength_consumed] at hconsumed

/-- The next character is looked at without anything going wrong. -/
@[simp] lemma peek_inBytes (c : Cursor) : c.inBytes.peek = .ok c.peek? := by
  rw [Checked.Cursor.peek, rest_inBytes]
  rfl

/-- So is any further character. -/
@[simp] lemma peekAt_inBytes (n : Nat) (c : Cursor) : c.inBytes.peekAt n = .ok (c.peekAt? n) := by
  rw [Checked.Cursor.peekAt, rest_inBytes]
  rfl

/-- So is the character before the cursor. -/
@[simp] lemma previous_inBytes (c : Cursor) : c.inBytes.previous = .ok c.previous? := by
  rw [Checked.Cursor.previous, consumed_inBytes, Checked.map_ok, consumed, List.getLast?_reverse]
  rfl

/-- Whether a pattern comes next is found out without anything going wrong. -/
@[simp] lemma startsWith_inBytes (pattern : List Char) (c : Cursor) :
    c.inBytes.startsWith pattern = .ok (c.startsWith pattern) := by
  rw [Checked.Cursor.startsWith, rest_inBytes]
  rfl

/-- So is whether a word may begin. -/
@[simp] lemma isAtWordStart_inBytes (c : Cursor) :
    c.inBytes.isAtWordStart = .ok c.isAtWordStart := by
  rw [Checked.Cursor.isAtWordStart, previous_inBytes]
  rfl

/-! ### Where moves lead -/

/-- Going on to the next character leaves what stands behind it. -/
lemma after_next {ch : Char} {text : List Char} {c : Cursor} (h : c.after = ch :: text) :
    c.next.after = text := by
  rw [next, after_forward, h]
  rfl

/-- The cursor `d` is `c` or further on. -/
def Reaches (c d : Cursor) : Prop := ∃ n, d = c.forward n

/-- The cursor `d` is further on than `c`, unless `c` is at the end. -/
def Advances (c d : Cursor) : Prop := c.next.Reaches d

/-- Going forward twice is going forward at once. -/
lemma forward_forward (m n : Nat) (c : Cursor) : (c.forward m).forward n = c.forward (m + n) := by
  rw [forward, forward, forward, List.drop_drop, ← List.append_assoc, ← List.reverse_append,
    ← List.take_add]

/-- The first of some moves is made first. -/
lemma forward_succ (n : Nat) (c : Cursor) : c.forward (n + 1) = c.next.forward n := by
  rw [next, forward_forward, Nat.add_comm]

/-- Going on twice is going forward by two. -/
lemma next_next (c : Cursor) : c.next.next = c.forward 2 := (forward_succ 1 c).symm

/-- The first two of some moves are made first. -/
lemma forward_succ_succ (n : Nat) (c : Cursor) : c.forward (n + 2) = (c.forward 2).forward n := by
  rw [forward_forward, Nat.add_comm]

/-- A cursor moves by as many characters as there are in what is taken from the rest. -/
lemma forward_length_take (n : Nat) (c : Cursor) :
    c.forward (c.after.take n).length = c.forward n := by
  rw [forward, forward, List.length_take, ← List.take_eq_take_min, ← List.drop_eq_drop_min]

variable {c d e : Cursor}

/-- At the end there is nowhere to go. -/
lemma forward_of_end (h : c.after = []) (n : Nat) : c.forward n = c := by
  obtain ⟨before, after⟩ := c
  obtain rfl : after = [] := h
  rw [forward, List.take_nil, List.drop_nil]
  rfl

/-- A cursor reaches itself. -/
lemma Reaches.refl (c : Cursor) : c.Reaches c := ⟨0, rfl⟩

/-- Going forward reaches a place further on. -/
lemma reaches_forward (n : Nat) (c : Cursor) : c.Reaches (c.forward n) := ⟨n, rfl⟩

/-- What is reached from a place that is reached is reached. -/
lemma Reaches.trans (h : c.Reaches d) (h' : d.Reaches e) : c.Reaches e := by
  obtain ⟨m, rfl⟩ := h
  obtain ⟨n, rfl⟩ := h'
  exact ⟨m + n, forward_forward m n c⟩

/-- Moving on does not change the line. -/
lemma Reaches.line (h : c.Reaches d) : d.line = c.line := by
  obtain ⟨n, rfl⟩ := h
  exact line_forward n c

/-- From a place further on one reaches places that are further on. -/
lemma Advances.trans (h : c.Advances d) (h' : d.Reaches e) : c.Advances e := Reaches.trans h h'

/-- A place further on is reached. -/
lemma Advances.reaches (h : c.Advances d) : c.Reaches d := (reaches_forward 1 c).trans h

/-- A place further on is on the same line. -/
lemma Advances.line (h : c.Advances d) : d.line = c.line := h.reaches.line

/-- Going on to the next character moves on. -/
lemma advances_next (c : Cursor) : c.Advances c.next := Reaches.refl c.next

/-- So does going forward by some characters. -/
lemma advances_forward {n : Nat} (hn : 0 < n) (c : Cursor) : c.Advances (c.forward n) := by
  refine ⟨n - 1, ?_⟩
  rw [next, forward_forward]
  congr 1
  omega

/-- The end is the same from any place further on. -/
lemma toEnd_forward (n : Nat) (c : Cursor) : (c.forward n).toEnd = c.toEnd := by
  rw [toEnd, length_after_forward, forward_forward, toEnd, forward, forward, List.take_length,
    List.drop_length, List.take_of_length_le (by omega), List.drop_of_length_le (by omega)]

/-- Going to the end moves on. -/
lemma advances_toEnd (c : Cursor) : c.Advances c.toEnd := by
  rw [← toEnd_forward 1 c]
  exact reaches_forward _ c.next

/-- The end is reached. -/
lemma reaches_toEnd (c : Cursor) : c.Reaches c.toEnd := (advances_toEnd c).reaches

/-- Eating a pattern with characters moves on. -/
lemma advances_eat? {pattern : List Char} (hpattern : pattern ≠ []) (h : c.eat? pattern = some d) :
    c.Advances d := by
  rw [eat?] at h
  split at h
  · obtain rfl := Option.some.inj h
    exact advances_forward (List.length_pos_iff.2 hpattern) c
  · exact absurd h (by simp)

/-- What is left behind a pattern is reached. -/
lemma reaches_eat? {pattern : List Char} (h : c.eat? pattern = some d) : c.Reaches d := by
  rw [eat?] at h
  split at h
  · obtain rfl := Option.some.inj h
    exact reaches_forward _ c
  · cases h

/-- Eating a pattern that may not be there reaches a place. -/
lemma reaches_eat (pattern : List Char) (c : Cursor) : c.Reaches (c.eat pattern) := by
  rw [eat]
  cases h : c.eat? pattern with
  | none => exact Reaches.refl c
  | some d => exact reaches_eat? h

/-- Going on over the characters of a class reaches a place. -/
lemma reaches_span (p : Char → Bool) (c : Cursor) : c.Reaches (c.span p).2 := reaches_forward _ c

/-- Skipping blanks reaches a place. -/
lemma reaches_skipBlanks (c : Cursor) : c.Reaches c.skipBlanks := reaches_span isBlank c

/-- A run of some characters moves on. -/
lemma advances_span {p : Char → Bool} {ch : Char} (h : c.peek? = some ch) (hp : p ch = true) :
    c.Advances (c.span p).2 := by
  refine advances_forward ?_ c
  obtain ⟨after, hafter⟩ := List.head?_eq_some_iff.1 h
  rw [hafter, List.takeWhile_cons_of_pos hp]
  exact Nat.succ_pos _

/-- Going beyond a pattern with characters moves on. -/
lemma advances_beyond {pattern : List Char} (hpattern : pattern ≠ []) (c : Cursor) :
    c.Advances (c.beyond pattern).2 := by
  rw [beyond]
  split
  · next n _ => exact advances_forward (Nat.add_pos_right n (List.length_pos_iff.2 hpattern)) c
  · exact advances_toEnd c

/-- A literal has at least its closing quote. -/
lemma quotedLength?_pos {quote : Char} {text : List Char} {n : Nat}
    (h : quotedLength? quote text = some n) : 0 < n := by
  rw [quotedLength?.eq_def] at h
  split at h
  · cases h
  · cases h
  · obtain ⟨m, -, rfl⟩ := Option.map_eq_some_iff.1 h
    exact Nat.succ_pos _
  · split at h
    · obtain rfl := Option.some.inj h
      exact Nat.one_pos
    · obtain ⟨m, -, rfl⟩ := Option.map_eq_some_iff.1 h
      exact Nat.succ_pos _

/-- Going on to the closing quote moves on. -/
lemma advances_toClosingQuote (quote : Char) (c : Cursor) :
    c.Advances (c.toClosingQuote quote).2 := by
  rw [toClosingQuote]
  split
  · next n hn => exact advances_forward (quotedLength?_pos hn) c
  · exact advances_toEnd c

/-- Going on over a literal moves on. -/
lemma advances_overQuoted {quote : Char} (h : c.peek? = some quote) :
    c.Advances (c.overQuoted quote).2 := by
  rw [overQuoted, if_pos h]
  exact (advances_toClosingQuote quote c.next).reaches

/-- Where a character is left, moving on leaves less of the line. -/
lemma length_after_of_advances {ch : Char} (hc : c.peek? = some ch) (h : c.Advances d) :
    d.after.length < c.after.length := by
  obtain ⟨n, rfl⟩ := h
  obtain ⟨after, hafter⟩ := List.head?_eq_some_iff.1 hc
  rw [length_after_forward, next, length_after_forward, hafter, List.length_cons]
  omega

/-- A move onwards leaves fewer bytes. -/
lemma left_of_advances {ch : Char} (hc : c.peek? = some ch) (h : c.Advances d) :
    d.inBytes.left < c.inBytes.left := by
  obtain ⟨n, rfl⟩ := h
  obtain ⟨after, hafter⟩ := List.head?_eq_some_iff.1 hc
  have hch : 0 < ch.utf8Size := ch.utf8Size_pos
  have hdrop : byteLength (after.drop n) ≤ byteLength after := by
    have happend := byteLength_append (after.take n) (after.drop n)
    rw [List.take_append_drop] at happend
    omega
  rw [left_inBytes, left_inBytes, after_forward, next, after_forward, hafter,
    Checked.byteLength_cons, List.drop_succ_cons, List.drop_zero]
  omega

/-! ### Moves in bytes -/

/-- In bytes the next cursor is as many bytes further on as the next character has. -/
lemma inBytes_next {ch : Char} (h : c.peek? = some ch) :
    { c.inBytes with pos := c.inBytes.pos + ch.utf8Size } = c.next.inBytes := by
  obtain ⟨after, hafter⟩ := List.head?_eq_some_iff.1 h
  have hposition : c.next.position = c.position + ch.utf8Size := by
    rw [next, position_forward, hafter, List.take_succ_cons, List.take_zero]
    rfl
  rw [inBytes, inBytes, line_next, hposition]

/-- In bytes a cursor beyond a part of what follows is as many bytes further on as this part has. -/
lemma inBytes_forward {n : Nat} {part : List Char} (h : c.after.take n = part) :
    { c.inBytes with pos := c.inBytes.pos + byteLength part } = (c.forward n).inBytes := by
  rw [inBytes, inBytes, line_forward, position_forward, h]

/-- Going on to the next character goes well in bytes. -/
@[simp] lemma next_inBytes (c : Cursor) : c.inBytes.next = .ok (c.peek?, c.next.inBytes) := by
  rw [Checked.Cursor.next, peek_inBytes, Checked.ok_bind]
  cases h : c.peek? with
  | none =>
    rw [next, forward_of_end (List.head?_eq_none_iff.1 h)]
    rfl
  | some ch =>
    rw [← inBytes_next h]
    rfl

/-- Going forward goes well in bytes. -/
@[simp] lemma forward_inBytes (n : Nat) (c : Cursor) :
    c.inBytes.forward n = .ok (c.forward n).inBytes := by
  induction n generalizing c with
  | zero => rfl
  | succ n ih =>
    rw [Checked.Cursor.forward, next_inBytes, Checked.ok_bind]
    cases h : c.peek? with
    | none =>
      have hend : c.after = [] := List.head?_eq_none_iff.1 h
      rw [next, forward_of_end hend, forward_of_end hend]
      rfl
    | some ch =>
      rw [forward_succ]
      exact ih c.next

/-- Going to the end is the same in bytes. -/
@[simp] lemma toEnd_inBytes (c : Cursor) : c.inBytes.toEnd = c.toEnd.inBytes := by
  have hlength : byteLength c.line = c.toEnd.position := by
    rw [toEnd, position_forward, List.take_length, line, byteLength_append, byteLength_consumed]
  rw [Checked.Cursor.toEnd, inBytes, inBytes, line_toEnd, hlength]

/-- Eating a pattern that is there goes well in bytes. -/
@[simp] lemma eat?_inBytes (pattern : List Char) (c : Cursor) :
    c.inBytes.eat? pattern = .ok ((c.eat? pattern).map inBytes) := by
  rw [Checked.Cursor.eat?, startsWith_inBytes, Checked.ok_bind, eat?]
  cases h : c.startsWith pattern with
  | false => rfl
  | true =>
    obtain ⟨rest, hrest⟩ := startsWith_iff.1 h
    have htake : c.after.take pattern.length = pattern := by
      rw [hrest, List.take_left]
    rw [if_pos rfl, if_pos rfl, inBytes_forward htake]
    rfl

/-- Eating a pattern that may be there goes well in bytes. -/
@[simp] lemma eat_inBytes (pattern : List Char) (c : Cursor) :
    c.inBytes.eat pattern = .ok (c.eat pattern).inBytes := by
  rw [Checked.Cursor.eat, eat?_inBytes, Checked.map_ok, eat]
  cases c.eat? pattern with
  | none => rfl
  | some d => rfl

/-- **The characters of a class are passed over one by one.**

**Proof sketch.** Induction on the characters that follow the cursor. -/
@[simp] lemma skipWhile_inBytes (p : Char → Bool) (c : Cursor) :
    c.inBytes.skipWhile p = .ok (c.skipWhile p).inBytes := by
  rw [Checked.Cursor.skipWhile]
  induction hn : c.after generalizing c with
  | nil =>
    have hpeek : c.peek? = none := List.head?_eq_none_iff.2 hn
    have hstays : c.skipWhile p = c := by
      rw [skipWhile, span, hn]
      rfl
    rw [hstays]
    refine Checked.loop_of_result ?_
    rw [peek_inBytes, Checked.ok_bind, hpeek]
    rfl
  | cons ch after ih =>
    have hpeek : c.peek? = some ch := List.head?_eq_some_iff.2 ⟨after, hn⟩
    cases hp : p ch with
    | false =>
      have hstays : c.skipWhile p = c := by
        rw [skipWhile, span, hn, List.takeWhile_cons_of_neg (by simp [hp])]
        rfl
      rw [hstays]
      refine Checked.loop_of_result ?_
      rw [peek_inBytes, Checked.ok_bind, hpeek]
      simp [hp]
    | true =>
      have hnext : c.next.after = after := after_next hn
      have hmoves : c.skipWhile p = c.next.skipWhile p := by
        rw [skipWhile, span, skipWhile, span, hn, hnext, List.takeWhile_cons_of_pos hp,
          List.length_cons, forward_succ]
      rw [hmoves, ← ih c.next hnext]
      refine Checked.loop_of_next ?_ (left_of_advances hpeek (advances_next c))
      rw [peek_inBytes, Checked.ok_bind, hpeek]
      simp [hp, inBytes_next hpeek]

/-- The line may be cut at the cursor and further on. -/
@[simp] lemma slice_inBytes (n : Nat) (c : Cursor) :
    Checked.slice c.inBytes.line c.inBytes.pos (c.forward n).inBytes.pos
      = .ok (c.after.take n) := by
  have hline : c.inBytes.line = c.consumed ++ c.after.take n ++ c.after.drop n := by
    rw [List.append_assoc, List.take_append_drop]
    rfl
  have hposition : (c.forward n).inBytes.pos = c.inBytes.pos + byteLength (c.after.take n) :=
    position_forward n c
  have hconsumed : c.inBytes.pos = byteLength c.consumed := (byteLength_consumed c).symm
  rw [hposition, hline, hconsumed]
  exact Checked.slice_append c.consumed (c.after.take n) (c.after.drop n)

/-- The line may be cut at the cursor and wherever the cursor may go. -/
lemma slice_of_reaches (h : c.Reaches d) :
    Checked.slice c.inBytes.line c.inBytes.pos d.inBytes.pos
      = .ok (c.after.take (c.after.length - d.after.length)) := by
  obtain ⟨n, rfl⟩ := h
  have hcount : c.after.length - (c.forward n).after.length = min n c.after.length := by
    rw [length_after_forward]
    omega
  rw [slice_inBytes, hcount, ← List.take_eq_take_min]

/-- Going on over the characters of a class goes well in bytes. -/
@[simp] lemma span_inBytes (p : Char → Bool) (c : Cursor) :
    c.inBytes.span p = .ok ((c.span p).1, (c.span p).2.inBytes) := by
  have htake : c.after.take (c.after.takeWhile p).length = c.after.takeWhile p :=
    (List.prefix_iff_eq_take.1 (List.takeWhile_prefix p)).symm
  rw [Checked.Cursor.span, skipWhile_inBytes, Checked.ok_bind, skipWhile, span]
  simp only [slice_inBytes, Checked.ok_bind, htake]
  rfl

/-- Skipping blanks goes well in bytes. -/
@[simp] lemma skipBlanks_inBytes (c : Cursor) : c.inBytes.skipBlanks = .ok c.skipBlanks.inBytes :=
  skipWhile_inBytes isBlank c

/-- Going on over an identifier goes well in bytes. -/
@[simp] lemma identifier_inBytes (c : Cursor) :
    c.inBytes.identifier = .ok (c.identifier.1, c.identifier.2.inBytes) :=
  span_inBytes isIdentifierChar c

/-- Going beyond a pattern goes well in bytes. -/
@[simp] lemma beyond_inBytes (pattern : List Char) (c : Cursor) :
    c.inBytes.beyond pattern = .ok ((c.beyond pattern).1, (c.beyond pattern).2.inBytes) := by
  rw [Checked.Cursor.beyond, rest_inBytes, Checked.ok_bind, Checked.byteOffset?_eq, beyond]
  cases h : offset? pattern c.after with
  | none => simp
  | some n =>
    obtain ⟨rest, hrest⟩ := offset?_isPrefix h
    have htake : c.after.take (n + pattern.length) = c.after.take n ++ pattern := by
      rw [List.take_add, ← hrest, List.take_left]
    have hbytes := inBytes_forward htake
    rw [byteLength_append] at hbytes
    simp [hbytes]

/-- A literal goes on where its length is found from further on. -/
lemma toClosingQuote_forward {quote : Char} {n : Nat}
    (h : quotedLength? quote c.after
      = (quotedLength? quote (c.forward n).after).map (· + n)) :
    c.toClosingQuote quote = (c.forward n).toClosingQuote quote := by
  rw [toClosingQuote, toClosingQuote, h]
  cases quotedLength? quote (c.forward n).after with
  | none =>
    change (false, c.toEnd) = (false, (c.forward n).toEnd)
    rw [toEnd_forward]
  | some m =>
    change (true, c.forward (m + n)) = (true, (c.forward n).forward m)
    rw [forward_forward, Nat.add_comm n m]

/-- A character that is no backslash at the end and none before another character is none. -/
lemma ne_backslash {ch : Char} {text : List Char} (hlast : ch = '\\' → text = [] → False)
    (hescape : ∀ (head : Char) (others : List Char), ch = '\\' → text = head :: others → False) :
    ch ≠ '\\' := by
  intro h
  cases text with
  | nil => exact hlast h rfl
  | cons head others => exact hescape head others h rfl

/-- A character that takes none along closes a literal or belongs to it. -/
lemma quotedLength?_cons {quote ch : Char} {text : List Char} (h : ch ≠ '\\') :
    quotedLength? quote (ch :: text)
      = if ch = quote then some 1 else (quotedLength? quote text).map (· + 1) := by
  cases text with
  | nil => simp [quotedLength?, h]
  | cons head others => simp [quotedLength?, h]

/-- A literal that goes on at the end of the line is not closed. -/
lemma toClosingQuote_end (quote : Char) (h : c.after = []) :
    c.inBytes.toClosingQuote quote
      = .ok ((c.toClosingQuote quote).1, (c.toClosingQuote quote).2.inBytes) := by
  have hpeek : c.peek? = none := List.head?_eq_none_iff.2 h
  have hstays : c.toClosingQuote quote = (false, c.next) := by
    rw [toClosingQuote, h, quotedLength?, toEnd, next, forward_of_end h, forward_of_end h]
  rw [hstays]
  refine Checked.loop_of_result ?_
  rw [next_inBytes, Checked.ok_bind, hpeek]
  rfl

/-- **A literal is read to its closing quote.**

**Proof sketch.** Induction on the characters that follow the cursor, as the length of the literal
is found in them. -/
@[simp] lemma toClosingQuote_inBytes (quote : Char) (c : Cursor) :
    c.inBytes.toClosingQuote quote
      = .ok ((c.toClosingQuote quote).1, (c.toClosingQuote quote).2.inBytes) := by
  induction hn : c.after using quotedLength?.induct quote generalizing c with
  | case1 => exact toClosingQuote_end quote hn
  | case2 =>
    have hpeek : c.peek? = some '\\' := List.head?_eq_some_iff.2 ⟨[], hn⟩
    have hafter : (c.forward 2).after = [] := by
      rw [after_forward, hn]
      rfl
    have hmoves : c.toClosingQuote quote = (c.forward 2).toClosingQuote quote := by
      refine toClosingQuote_forward ?_
      rw [hn, hafter, quotedLength?, quotedLength?]
      rfl
    rw [hmoves, ← toClosingQuote_end quote hafter]
    refine Checked.loop_of_next ?_ (left_of_advances hpeek (advances_forward (by decide) c))
    rw [next_inBytes, Checked.ok_bind, hpeek]
    simp [next, forward_forward]
  | case3 head text ih =>
    have hpeek : c.peek? = some '\\' := List.head?_eq_some_iff.2 ⟨head :: text, hn⟩
    have hafter : (c.forward 2).after = text := by
      rw [after_forward, hn]
      rfl
    have hmoves : c.toClosingQuote quote = (c.forward 2).toClosingQuote quote := by
      refine toClosingQuote_forward ?_
      rw [hn, hafter, quotedLength?]
    rw [hmoves, ← ih (c.forward 2) hafter]
    refine Checked.loop_of_next ?_ (left_of_advances hpeek (advances_forward (by decide) c))
    rw [next_inBytes, Checked.ok_bind, hpeek]
    simp [next, forward_forward]
  | case4 text hlast hescape =>
    have hquote : quote ≠ '\\' := ne_backslash hlast hescape
    have hpeek : c.peek? = some quote := List.head?_eq_some_iff.2 ⟨text, hn⟩
    have hcloses : c.toClosingQuote quote = (true, c.next) := by
      rw [toClosingQuote, hn, quotedLength?_cons hquote, if_pos rfl]
      rfl
    rw [hcloses]
    refine Checked.loop_of_result ?_
    rw [next_inBytes, Checked.ok_bind, hpeek]
    simp [hquote]
  | case5 ch text hlast hescape hne ih =>
    have hch : ch ≠ '\\' := ne_backslash hlast hescape
    have hpeek : c.peek? = some ch := List.head?_eq_some_iff.2 ⟨text, hn⟩
    have hafter : c.next.after = text := after_next hn
    have hmoves : c.toClosingQuote quote = c.next.toClosingQuote quote := by
      refine toClosingQuote_forward ?_
      rw [← next, hn, hafter, quotedLength?_cons hch, if_neg hne]
    rw [hmoves, ← ih c.next hafter]
    refine Checked.loop_of_next ?_ (left_of_advances hpeek (advances_next c))
    rw [next_inBytes, Checked.ok_bind, hpeek]
    simp [hch, hne]

/-- Going on over a literal goes well in bytes. -/
@[simp] lemma overQuoted_inBytes (quote : Char) (c : Cursor) :
    c.inBytes.overQuoted quote = .ok ((c.overQuoted quote).1, (c.overQuoted quote).2.inBytes) := by
  rw [Checked.Cursor.overQuoted, peek_inBytes, Checked.ok_bind, overQuoted]
  split
  · rw [next_inBytes, Checked.ok_bind, toClosingQuote_inBytes]
  · rfl

/-! ### Steps and walks in bytes -/

namespace Step

variable {σ α : Type} {p : Prop} [Decidable p] {here other : Step σ α}
  {run otherRun : Checked.Run (Checked.Step σ α)}

/-- The outcome in bytes. -/
def inBytes (here : Step σ α) : Checked.Step σ α := ⟨here.state, here.cursor.inBytes, here.found⟩

/-- In bytes a step has the same state and finds the same. -/
@[simp] lemma inBytes_mk (state : σ) (c : Cursor) (found : List α) :
    (⟨state, c, found⟩ : Step σ α).inBytes = ⟨state, c.inBytes, found⟩ := rfl

/-- A step at a cursor runs: nothing goes wrong, its outcome is the one in bytes, and it moves
on. -/
structure RunsAs (c : Cursor) (here : Step σ α) (run : Checked.Run (Checked.Step σ α)) : Prop where
  /-- Nothing goes wrong, and the outcome is the one in bytes. -/
  outcome : run = .ok here.inBytes
  /-- The step moves on. -/
  advances : c.Advances here.cursor

/-- Of two steps one is made. -/
lemma RunsAs.ite (hthen : p → here.RunsAs c run) (helse : ¬ p → other.RunsAs c otherRun) :
    (if p then here else other).RunsAs c (if p then run else otherRun) := by
  by_cases h : p
  · rw [if_pos h, if_pos h]
    exact hthen h
  · rw [if_neg h, if_neg h]
    exact helse h

end Step

/-- **A walk runs if its steps do.**

**Proof sketch.** Induction on the number of characters that are left: a step moves on, so that the
check of the walk succeeds, and the rest of the walk runs with what was found so far in front. -/
theorem walk_inBytes {σ α : Type} {step : σ → Cursor → Char → Step σ α}
    {run : σ → Checked.Cursor → Char → Checked.Run (Checked.Step σ α)}
    (hstep : ∀ state c ch, c.peek? = some ch → (step state c ch).RunsAs c (run state c.inBytes ch))
    (state : σ) (c : Cursor) : Checked.walk run state c.inBytes = .ok (walk step state c) := by
  suffices h : ∀ found : List α,
      Checked.loop (·.cursor.left) (fun so => do
        match ← so.cursor.peek with
        | none => return .inl (so.state, so.found)
        | some ch =>
          let here ← run so.state so.cursor ch
          return .inr { here with found := so.found ++ here.found })
        ({ state := state, cursor := c.inBytes, found := found } : Checked.Step σ α)
        = .ok ((walk step state c).1, found ++ (walk step state c).2) from h []
  induction hn : c.after.length using Nat.strong_induction_on generalizing state c with
  | _ n ih =>
    intro found
    cases hafter : c.after with
    | nil =>
      have hpeek : c.peek? = none := List.head?_eq_none_iff.2 hafter
      rw [walk_end step state hafter, List.append_nil]
      refine Checked.loop_of_result ?_
      simp [hpeek]
    | cons ch after =>
      have hpeek : c.peek? = some ch := List.head?_eq_some_iff.2 ⟨after, hafter⟩
      obtain ⟨houtcome, hadvances⟩ := hstep state c ch hpeek
      have hless : (step state c ch).cursor.after.length < c.after.length :=
        length_after_of_advances hpeek hadvances
      rw [walk_step step state hafter hless, ← List.append_assoc,
        ← ih _ (hn ▸ hless) _ _ rfl (found ++ (step state c ch).found)]
      refine Checked.loop_of_next ?_ (left_of_advances hpeek hadvances)
      simp only [peek_inBytes, hpeek, Checked.ok_bind, houtcome]
      rfl

/-- A whole line is walked along if each step runs. -/
theorem walk_start {σ α : Type} {step : σ → Cursor → Char → Step σ α}
    {run : σ → Checked.Cursor → Char → Checked.Run (Checked.Step σ α)}
    (hstep : ∀ state c ch, c.peek? = some ch → (step state c ch).RunsAs c (run state c.inBytes ch))
    (state : σ) (line : List Char) :
    Checked.walk run state (.start line) = .ok (walk step state (.start line)) :=
  walk_inBytes hstep state (.start line)

end Cursor

end Outliner
