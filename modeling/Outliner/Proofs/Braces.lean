import Mathlib.Tactic.Lemma
import Outliner.Proofs.Passage

set_option autoImplicit false

/-!
# Balanced braces

Text between braces may hold braces itself, as long as it closes all that it opens and nothing
else. A reader that counts the braces is then, behind the text, where it was in front of it.

## Main definitions

* `Outliner.braceDepth?` — the number of open braces behind a text that closes none too many.
* `Outliner.Balanced` — lines that close the braces they open, and no others.

## Main results

* `Outliner.braceDepth?_append` — the depth behind one text is the depth in front of the next.
* `Outliner.Cursor.walk_depth` — steps that count braces make a walk that counts braces.
* `Outliner.readLines_depth` — lines on which braces are counted make a source on which they are.
-/

namespace Outliner

/-- Whether the character is a brace. -/
def isBrace (c : Char) : Bool := c == '\x7b' || c == '\x7d'

/-- The number of open braces behind a text, where `depth` are open in front of it. The text closes
none but these and its own. -/
def braceDepth? : Nat → List Char → Option Nat
  | depth, [] => some depth
  | depth, c :: text =>
    if c = '\x7b' then braceDepth? (depth + 1) text
    else if c = '\x7d' then if depth = 0 then none else braceDepth? (depth - 1) text
    else braceDepth? depth text

/-- The lines close the braces that they open, and no others. -/
def Balanced (lines : List (List Char)) : Prop := braceDepth? 0 lines.flatten = some 0

instance (lines : List (List Char)) : Decidable (Balanced lines) :=
  inferInstanceAs (Decidable (braceDepth? 0 lines.flatten = some 0))

variable {depth further : Nat} {text : List Char}

/-- A character of a class without braces is no brace. -/
lemma isBrace_eq_false {p : Char → Bool} (hopen : p '\x7b' = false) (hclose : p '\x7d' = false)
    {c : Char} (h : p c = true) : isBrace c = false := by
  have hne : ∀ d, p d = false → c ≠ d := by
    rintro d hd rfl
    exact absurd (h.symm.trans hd) (by decide)
  rw [isBrace, Bool.or_eq_false_iff, beq_eq_false_iff_ne, beq_eq_false_iff_ne]
  exact ⟨hne _ hopen, hne _ hclose⟩

/-- A character that is no brace leaves the depth alone. -/
lemma braceDepth?_cons {c : Char} (h : isBrace c = false) (depth : Nat) (text : List Char) :
    braceDepth? depth (c :: text) = braceDepth? depth text := by
  rw [isBrace, Bool.or_eq_false_iff, beq_eq_false_iff_ne, beq_eq_false_iff_ne] at h
  rw [braceDepth?, if_neg h.1, if_neg h.2]

/-- **The depth behind one text is the depth in front of the next.** -/
lemma braceDepth?_append (depth : Nat) (text rest : List Char) :
    braceDepth? depth (text ++ rest) = (braceDepth? depth text).bind (braceDepth? · rest) := by
  fun_induction braceDepth? depth text <;> simp_all [braceDepth?]

/-- A text without braces changes no depth. -/
lemma braceDepth?_plain (h : text.all (!isBrace ·) = true) (depth : Nat) (rest : List Char) :
    braceDepth? depth (text ++ rest) = braceDepth? depth rest := by
  induction text with
  | nil => rfl
  | cons c text ih =>
    rw [List.all_cons, Bool.and_eq_true, Bool.not_eq_true'] at h
    rw [List.cons_append, braceDepth?_cons h.1, ih h.2]

/-- The line after the first ones starts at the depth at which these end. -/
lemma exists_braceDepth?_of_append {rest : List Char}
    (h : braceDepth? depth (text ++ rest) = some further) :
    ∃ between, braceDepth? depth text = some between ∧ braceDepth? between rest = some further := by
  rw [braceDepth?_append] at h
  exact Option.bind_eq_some_iff.1 h

/-! ## Moves over text without braces -/

namespace Cursor

/-- Going forward over characters that are no braces leaves the depth alone. -/
lemma braceDepth?_after_forward {n : Nat} {c : Cursor}
    (h : (c.after.take n).all (!isBrace ·) = true) (depth : Nat) :
    braceDepth? depth (c.forward n).after = braceDepth? depth c.after := by
  rw [after_forward, ← braceDepth?_plain h, List.take_append_drop]

/-- So does going on to the next character, if it is no brace. -/
lemma braceDepth?_after_next {c : Cursor} {ch : Char} (hpeek : c.peek? = some ch)
    (h : isBrace ch = false) (depth : Nat) :
    braceDepth? depth c.next.after = braceDepth? depth c.after := by
  obtain ⟨text, hafter⟩ := List.head?_eq_some_iff.1 hpeek
  rw [after_next hafter, hafter, braceDepth?_cons h]

/-- So does going on over characters of a class without braces. -/
lemma braceDepth?_after_span {p : Char → Bool} (hopen : p '\x7b' = false)
    (hclose : p '\x7d' = false) (c : Cursor) (depth : Nat) :
    braceDepth? depth (c.span p).2.after = braceDepth? depth c.after := by
  refine braceDepth?_after_forward ?_ depth
  rw [← List.prefix_iff_eq_take.1 (List.takeWhile_prefix p)]
  refine List.all_eq_true.2 fun ch hch => ?_
  rw [isBrace_eq_false hopen hclose (List.all_eq_true.1 List.all_takeWhile ch hch)]
  rfl

/-- So does going on over a pattern without braces. -/
lemma braceDepth?_after_eat {pattern : List Char} (hpattern : pattern.all (!isBrace ·) = true)
    (c : Cursor) (depth : Nat) :
    braceDepth? depth (c.eat pattern).after = braceDepth? depth c.after := by
  rw [eat, eat?]
  split
  · next hstarts =>
    obtain ⟨rest, hafter⟩ := startsWith_iff.1 hstarts
    refine braceDepth?_after_forward ?_ depth
    rw [hafter, List.take_left, hpattern]
  · rfl

/-! ## Walks and lines -/

variable {σ α : Type} {step : σ → Cursor → Char → Step σ α}

/-- **Steps that count braces make a walk that counts braces.** The state tells the number of open
braces. A step at another character moves over no brace and does not change the state.

**Proof sketch.** The number that the state tells, with what the rest of the line opens and closes,
gives the number at the end of the line: no step changes that. -/
lemma walk_depth {state : Nat → σ} {line : List Char}
    (hopen : ∀ depth c, c.line = line → c.peek? = some '\x7b' →
      step (state depth) c '\x7b' = { state := state (depth + 1), cursor := c.next })
    (hclose : ∀ depth c, c.line = line → c.peek? = some '\x7d' →
      step (state (depth + 1)) c '\x7d' = { state := state depth, cursor := c.next })
    (hother : ∀ depth c ch, c.line = line → c.peek? = some ch → isBrace ch = false →
      ∃ d, step (state depth) c ch = { state := state depth, cursor := d } ∧ c.Advances d
        ∧ braceDepth? depth d.after = braceDepth? depth c.after)
    {depth after : Nat} (h : braceDepth? depth line = some after) :
    walk step (state depth) (.start line) = (state after, []) := by
  -- the invariant: what the rest of the line makes of the open braces
  let J (s : σ) (c : Cursor) : Prop :=
    c.line = line ∧ ∃ depth, s = state depth ∧ braceDepth? depth c.after = some after
  have hkeeps : ∀ s c ch, c.peek? = some ch → J s c → c.Advances (step s c ch).cursor
      ∧ (step s c ch).found = [] ∧ J (step s c ch).state (step s c ch).cursor := by
    rintro _ c ch hch ⟨hline, depth, rfl, hdepth⟩
    obtain ⟨text, hafter⟩ := List.head?_eq_some_iff.1 hch
    have hnext : c.next.line = line := c.advances_next.line.trans hline
    cases hbrace : isBrace ch with
    | false =>
      obtain ⟨d, hstep, hadvances, hsame⟩ := hother depth c ch hline hch hbrace
      rw [hstep]
      exact ⟨hadvances, rfl, hadvances.line.trans hline, depth, rfl, hsame.trans hdepth⟩
    | true =>
      rw [isBrace, Bool.or_eq_true, beq_iff_eq, beq_iff_eq] at hbrace
      rw [hafter] at hdepth
      obtain rfl | rfl := hbrace
      · rw [hopen depth c hline hch]
        exact ⟨c.advances_next, rfl, hnext, depth + 1, rfl, (after_next hafter).symm ▸ hdepth⟩
      · cases depth with
        | zero => exact absurd hdepth nofun
        | succ depth =>
          rw [hclose depth c hline hch]
          exact ⟨c.advances_next, rfl, hnext, depth, rfl, (after_next hafter).symm ▸ hdepth⟩
  have hstart : J (state depth) (.start line) := ⟨rfl, depth, rfl, h⟩
  obtain ⟨last, hend, ⟨-, between, hstate, hdepth⟩, hfound⟩ := walk_silent hkeeps hstart
  rw [hend, braceDepth?, Option.some.injEq] at hdepth
  exact Prod.ext (hdepth ▸ hstate) hfound

end Cursor

/-- **Lines on which braces are counted make a source on which they are.** -/
lemma readLines_depth {σ α : Type} {read : σ → Nat → List Char → σ × List α} {state : Nat → σ}
    {lines : List (List Char)}
    (hread : ∀ line ∈ lines, ∀ depth after number, braceDepth? depth line = some after →
      read (state depth) number line = (state after, []))
    {depth after : Nat} (h : braceDepth? depth lines.flatten = some after) (first : Nat) :
    readLines read first (state depth) lines = (state after, []) := by
  induction lines generalizing depth first with
  | nil =>
    rw [List.flatten_nil, braceDepth?, Option.some.injEq] at h
    rw [h, readLines]
  | cons line lines ih =>
    obtain ⟨hline, hlines⟩ := List.forall_mem_cons.1 hread
    obtain ⟨between, hfirst, hrest⟩ := exists_braceDepth?_of_append h
    rw [readLines, hline depth between first hfirst, ih hlines hrest (first + 1)]
    rfl

end Outliner
