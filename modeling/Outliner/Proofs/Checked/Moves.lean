import Outliner.Proofs.Checked.Cursor

set_option autoImplicit false

/-!
# Any moves of a cursor

Readers move a cursor along a line in ten ways, in whatever order the line asks for. Whatever the
moves are and whatever they are given, nothing goes wrong: the cursor stays on its line, where a
character ends, and never goes back. A move past a pattern ends behind its first occurrence.

## Main definitions

* `Outliner.Move` — the ways to move.
* `Outliner.Checked.Cursor.move`, `Outliner.Cursor.move` — a move in bytes, and on the line.
* `Outliner.Checked.Cursor.Placed` — the cursor is at a place of the line.
* `Outliner.Past` — what is left of a text behind the first occurrence of a pattern.

## Main results

* `Outliner.Cursor.move_inBytes`, `Outliner.Cursor.reaches_move` — what one move keeps.
* `Outliner.Cursor.past_beyond` — where a move past a pattern leads.
* `Outliner.Checked.Cursor.moves_placed` — what any moves keep.
-/

namespace Outliner

/-! ## Tests that remember -/

/-- The number of characters at the front of the text that a test accepts one after the other. The
test sees what it accepted so far. -/
def acceptedLength (accepts : List Char → Char → Bool) : List Char → List Char → Nat
  | _, [] => 0
  | seen, c :: text =>
    if accepts seen c then acceptedLength accepts (seen ++ [c]) text + 1 else 0

/-- A test that forgets accepts the characters of a class. -/
lemma acceptedLength_const (p : Char → Bool) (seen text : List Char) :
    acceptedLength (fun _ => p) seen text = (text.takeWhile p).length := by
  induction text generalizing seen with
  | nil => rfl
  | cons c text ih =>
    rw [acceptedLength, List.takeWhile_cons]
    split
    · rw [ih, List.length_cons]
    · rfl

/-- The characters at the cursor that a test accepts one after the other, and the cursor after
them. -/
def Cursor.spanBy (accepts : List Char → Char → Bool) (c : Cursor) : List Char × Cursor :=
  (c.after.take (acceptedLength accepts [] c.after), c.forward (acceptedLength accepts [] c.after))

/-- A test that does not look at what was passed over is a class of characters. -/
lemma Cursor.spanBy_const (p : Char → Bool) (c : Cursor) : c.spanBy (fun _ => p) = c.span p := by
  rw [spanBy, acceptedLength_const, span, ← List.prefix_iff_eq_take.1 (List.takeWhile_prefix p)]

/-- The same in bytes. -/
def Checked.Cursor.spanBy (accepts : List Char → Char → Bool) (c : Cursor) :
    Run (List Char × Cursor) := do
  let after ← loop (·.2.left) (fun so : List Char × Cursor => do
    match ← so.2.peek with
    | none => return .inl so.2
    | some ch =>
      return if accepts so.1 ch then
        .inr (so.1 ++ [ch], { so.2 with pos := so.2.pos + ch.utf8Size })
      else .inl so.2) ([], c)
  return (← slice c.line c.pos after.pos, after)

/-- **The characters that a test accepts are passed over one by one.**

**Proof sketch.** The loop is followed character by character. What it accepts it has seen, and it
stops at the first character that it does not accept, or at the end. -/
@[simp] lemma Cursor.spanBy_inBytes (accepts : List Char → Char → Bool) (c : Cursor) :
    c.inBytes.spanBy accepts = .ok ((c.spanBy accepts).1, (c.spanBy accepts).2.inBytes) := by
  have hloop : ∀ (seen : List Char) (c : Cursor),
      Checked.loop (·.2.left) (fun so : List Char × Checked.Cursor => do
        match ← so.2.peek with
        | none => return .inl so.2
        | some ch =>
          return if accepts so.1 ch then
            .inr (so.1 ++ [ch], { so.2 with pos := so.2.pos + ch.utf8Size })
          else .inl so.2) (seen, c.inBytes)
        = .ok (c.forward (acceptedLength accepts seen c.after)).inBytes := by
    intro seen c
    induction hn : c.after generalizing seen c with
    | nil =>
      have hpeek : c.peek? = none := List.head?_eq_none_iff.2 hn
      refine Checked.loop_of_result ?_
      rw [peek_inBytes, Checked.ok_bind, hpeek, acceptedLength, forward_of_end hn]
      rfl
    | cons ch after ih =>
      have hpeek : c.peek? = some ch := List.head?_eq_some_iff.2 ⟨after, hn⟩
      cases hch : accepts seen ch with
      | false =>
        refine Checked.loop_of_result ?_
        rw [peek_inBytes, Checked.ok_bind, hpeek, acceptedLength, hch, if_neg Bool.false_ne_true]
        simp only [hch, Bool.false_eq_true, if_false]
        rfl
      | true =>
        rw [acceptedLength, hch, if_pos rfl, forward_succ,
          ← ih (seen ++ [ch]) c.next (after_next hn)]
        refine Checked.loop_of_next ?_ (left_of_advances hpeek (advances_next c))
        rw [peek_inBytes, Checked.ok_bind, hpeek]
        simp [hch, inBytes_next hpeek]
  rw [Checked.Cursor.spanBy, hloop, Checked.ok_bind, slice_inBytes]
  rfl

/-! ## Moves -/

/-- A way to move a cursor. -/
inductive Move where
  /-- After the next character. -/
  | next
  /-- Some characters further on. -/
  | forward (n : Nat)
  /-- After a pattern that stands at the cursor. -/
  | eat (pattern : List Char)
  /-- After the characters that a test accepts, which sees what it accepted so far. -/
  | span (accepts : List Char → Char → Bool)
  /-- After the blanks. -/
  | skipBlanks
  /-- After the identifier characters. -/
  | identifier
  /-- Beyond the next occurrence of a pattern. -/
  | beyond (pattern : List Char)
  /-- To the end of the line. -/
  | toEnd
  /-- Over a quoted literal that begins at the cursor. -/
  | overQuoted (quote : Char)
  /-- Behind the quote that closes the literal in which the cursor is. -/
  | toClosingQuote (quote : Char)

/-- The cursor after a move. -/
def Cursor.move (c : Cursor) : Move → Cursor
  | .next => c.next
  | .forward n => c.forward n
  | .eat pattern => c.eat pattern
  | .span accepts => (c.spanBy accepts).2
  | .skipBlanks => c.skipBlanks
  | .identifier => c.identifier.2
  | .beyond pattern => (c.beyond pattern).2
  | .toEnd => c.toEnd
  | .overQuoted quote => (c.overQuoted quote).2
  | .toClosingQuote quote => (c.toClosingQuote quote).2

/-- The cursor after some moves. -/
def Cursor.moves (c : Cursor) (moves : List Move) : Cursor := moves.foldl Cursor.move c

namespace Checked.Cursor

/-- The cursor after a move. -/
def move (c : Cursor) : Move → Run Cursor
  | .next => Prod.snd <$> c.next
  | .forward n => c.forward n
  | .eat pattern => c.eat pattern
  | .span accepts => Prod.snd <$> c.spanBy accepts
  | .skipBlanks => c.skipBlanks
  | .identifier => Prod.snd <$> c.identifier
  | .beyond pattern => Prod.snd <$> c.beyond pattern
  | .toEnd => return c.toEnd
  | .overQuoted quote => Prod.snd <$> c.overQuoted quote
  | .toClosingQuote quote => Prod.snd <$> c.toClosingQuote quote

/-- The cursor after some moves, if none of them goes wrong. -/
def moves (c : Cursor) (moves : List Move) : Run Cursor := moves.foldlM move c

/-- The cursor is at a place of the line. -/
structure Placed (line : List Char) (c : Cursor) : Prop where
  /-- It is on this line. -/
  line_eq : c.line = line
  /-- It is not behind its end. -/
  le : c.pos ≤ byteLength line
  /-- It is where a character ends: the line may be cut there, and what is consumed and what is left
  make up the line. -/
  parts : ∃ before after, c.consumed = .ok before ∧ c.rest = .ok after ∧ before ++ after = line
    ∧ byteLength before = c.pos
  /-- It is at the end if nothing is left. -/
  ends : c.isAtEnd = true ↔ c.rest = .ok []

end Checked.Cursor

namespace Cursor

/-- What the cursor stands for is a place of its line. -/
lemma placed_inBytes (c : Cursor) : c.inBytes.Placed c.line where
  line_eq := rfl
  le := by
    have hlength : byteLength c.line = c.inBytes.pos + byteLength c.after := by
      rw [line, byteLength_append, byteLength_consumed]
      rfl
    rw [hlength]
    exact Nat.le_add_right _ _
  parts := ⟨c.consumed, c.after, consumed_inBytes c, rest_inBytes c, rfl, byteLength_consumed c⟩
  ends := by
    rw [isAtEnd_inBytes, rest_inBytes, isAtEnd_iff, Except.ok.injEq]

/-- A place that is reached has no smaller offset. -/
lemma Reaches.pos_le {c d : Cursor} (h : c.Reaches d) : c.inBytes.pos ≤ d.inBytes.pos := by
  obtain ⟨n, rfl⟩ := h
  exact position_le_forward n c

/-- **A move in bytes is the move on the line.** Nothing goes wrong. -/
theorem move_inBytes (c : Cursor) (m : Move) : c.inBytes.move m = .ok (c.move m).inBytes := by
  cases m with
  | next => rw [Checked.Cursor.move, next_inBytes]; rfl
  | forward n => exact forward_inBytes n c
  | eat pattern => exact eat_inBytes pattern c
  | span accepts => rw [Checked.Cursor.move, spanBy_inBytes]; rfl
  | skipBlanks => exact skipBlanks_inBytes c
  | identifier => rw [Checked.Cursor.move, identifier_inBytes]; rfl
  | beyond pattern => rw [Checked.Cursor.move, beyond_inBytes]; rfl
  | toEnd => rw [Checked.Cursor.move, toEnd_inBytes]; rfl
  | overQuoted quote => rw [Checked.Cursor.move, overQuoted_inBytes]; rfl
  | toClosingQuote quote => rw [Checked.Cursor.move, toClosingQuote_inBytes]; rfl

/-- **No move goes back**, and none leaves the line.

**Proof sketch.** Move by move, each of them goes forward by some characters or to the end. -/
theorem reaches_move (c : Cursor) (m : Move) : c.Reaches (c.move m) := by
  cases m with
  | next => exact reaches_forward 1 c
  | forward n => exact reaches_forward n c
  | eat pattern => exact reaches_eat pattern c
  | span accepts => exact reaches_forward _ c
  | skipBlanks => exact reaches_skipBlanks c
  | identifier => exact reaches_span _ c
  | beyond pattern =>
    rw [move, beyond]
    split
    · exact reaches_forward _ c
    · exact reaches_toEnd c
  | toEnd => exact reaches_toEnd c
  | overQuoted quote =>
    by_cases h : c.peek? = some quote
    · exact (advances_overQuoted h).reaches
    · rw [move, overQuoted, if_neg h]
      exact Reaches.refl c
  | toClosingQuote quote => exact (advances_toClosingQuote quote c).reaches

/-- Moves in bytes are the moves on the line. -/
lemma moves_inBytes (c : Cursor) (ms : List Move) :
    c.inBytes.moves ms = .ok (c.moves ms).inBytes := by
  induction ms generalizing c with
  | nil => rfl
  | cons m ms ih =>
    rw [Checked.Cursor.moves, List.foldlM_cons, move_inBytes, Checked.ok_bind]
    exact ih (c.move m)

/-- No moves go back, and none leave the line. -/
lemma reaches_moves (c : Cursor) (ms : List Move) : c.Reaches (c.moves ms) := by
  induction ms generalizing c with
  | nil => exact Reaches.refl c
  | cons m ms ih => exact (reaches_move c m).trans (ih (c.move m))

end Cursor

/-! ## Behind a pattern -/

/-- What is left of a text behind the first occurrence of a pattern, and whether there is one. -/
inductive Past (pattern text : List Char) : Bool → List Char → Prop where
  /-- The pattern occurs, and nowhere in front of this place. -/
  | first {before behind : List Char} (parts : text = before ++ pattern ++ behind)
      (least : ∀ before' behind', text = before' ++ pattern ++ behind' →
        before.length ≤ before'.length) : Past pattern text true behind
  /-- The pattern does not occur: nothing is left. -/
  | missing (absent : ¬ pattern <:+: text) : Past pattern text false []

/-- **A cursor moves past a pattern**: behind its first occurrence, or to the end.

**Proof sketch.** If the pattern does not occur, the cursor goes to the end. If it does, the cursor
goes behind the first occurrence, and an earlier one would have been found instead. -/
theorem Cursor.past_beyond (pattern : List Char) (c : Cursor) :
    Past pattern c.after (c.beyond pattern).1 (c.beyond pattern).2.after := by
  rw [beyond]
  cases hoffset : offset? pattern c.after with
  | none =>
    have hend : c.toEnd.after = [] := by rw [toEnd, after_forward, List.drop_length]
    change Past pattern c.after false c.toEnd.after
    rw [hend]
    exact .missing (offset?_eq_none_iff.1 hoffset)
  | some n =>
    obtain ⟨hn, ⟨behind, hbehind⟩, hfirst⟩ := offset?_eq_some_iff.1 hoffset
    have hafter : (c.forward (n + pattern.length)).after = behind := by
      rw [after_forward, ← List.drop_drop, ← hbehind, List.drop_left]
    change Past pattern c.after true (c.forward (n + pattern.length)).after
    rw [hafter]
    have hparts : c.after = c.after.take n ++ pattern ++ behind := by
      rw [List.append_assoc, hbehind, List.take_append_drop]
    refine .first hparts fun before' behind' hparts' => ?_
    rw [List.length_take_of_le hn]
    -- an earlier occurrence would have been found
    refine Nat.le_of_not_lt fun hlt => hfirst before'.length hlt ?_
    rw [hparts', List.append_assoc, List.drop_left]
    exact List.prefix_append _ _

namespace Checked.Cursor

/-- **A cursor stays at a place of its line, whatever the moves.** From the start of a line any
moves can be made, with any arguments: none of them goes wrong, and what is reached is a place of
the line. Further moves do not go back, and a move past a pattern leads behind its first occurrence
in what is left, or to the end.

**Proof sketch.** The moves in bytes follow the moves in characters, which go well. Whatever these
reach is a place of the line, and further moves reach places behind it. -/
theorem moves_placed (line : List Char) (ms : List Move) :
    ∃ c, (start line).moves ms = .ok c ∧ c = ((Outliner.Cursor.start line).moves ms).inBytes
      ∧ c.Placed line
      ∧ (∀ further : List Move, ∃ d, c.moves further = .ok d ∧ d.Placed line ∧ c.pos ≤ d.pos)
      ∧ ∀ pattern, ∃ rest found d behind, c.rest = .ok rest ∧ c.beyond pattern = .ok (found, d)
        ∧ d.Placed line ∧ d.rest = .ok behind ∧ Past pattern rest found behind := by
  have hplaced : ∀ {c : Outliner.Cursor}, (Outliner.Cursor.start line).Reaches c →
      c.inBytes.Placed line := by
    intro c hc
    obtain rfl : c.line = line := hc.line
    exact c.placed_inBytes
  have hreaches := Outliner.Cursor.reaches_moves (Outliner.Cursor.start line) ms
  refine ⟨_, (Outliner.Cursor.start line).moves_inBytes ms, rfl, hplaced hreaches,
    fun further => ?_, fun pattern => ?_⟩
  · have hfurther := Outliner.Cursor.reaches_moves ((Outliner.Cursor.start line).moves ms) further
    exact ⟨_, Outliner.Cursor.moves_inBytes _ further, hplaced (hreaches.trans hfurther),
      hfurther.pos_le⟩
  · have hbeyond := Outliner.Cursor.reaches_move ((Outliner.Cursor.start line).moves ms)
      (.beyond pattern)
    exact ⟨_, _, _, _, Outliner.Cursor.rest_inBytes _, Outliner.Cursor.beyond_inBytes pattern _,
      hplaced (hreaches.trans hbeyond), Outliner.Cursor.rest_inBytes _,
      Outliner.Cursor.past_beyond pattern _⟩

end Checked.Cursor

end Outliner
