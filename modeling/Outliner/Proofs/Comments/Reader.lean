import Outliner.Proofs.Comments
import Outliner.Proofs.Passage

set_option autoImplicit false

/-!
# Readers that pass over comments

A reader of lines with block comments carries along whether one is open. What it does with code is
its own business, as long as it passes over literals as a whole, moves over no sign that begins a
comment or a literal without looking at it, and looks no further than such a sign. Then what stands
in a block comment makes no difference to it.

## Main definitions

* `Outliner.CommentReader` — a reader that passes over block comments.
* `Outliner.CommentReader.step`, `Outliner.CommentReader.readLine` — how it reads.

## Main results

* `Outliner.CommentReader.step_settles` — the state tells the place in front of the next character.
* `Outliner.CommentReader.inComment_readLines` — the state tells whether a comment goes on behind
  the lines of a source.
* `Outliner.CommentReader.readLines_comment` — the interior of a block comment makes no difference.
-/

namespace Outliner

/-- Two steps at two cursors do the same. -/
structure Cursor.Step.Alike {σ α : Type} (c d : Cursor) (a b : Cursor.Step σ α) : Prop where
  /-- The state after the steps is the same. -/
  state : a.state = b.state
  /-- They find the same. -/
  found : a.found = b.found
  /-- They move over the same number of characters. -/
  moves : ∃ n, a.cursor = c.forward n ∧ b.cursor = d.forward n

/-- Nothing stands there, or a slash does. -/
def IsStop (rest : List Char) : Prop := rest.head?.all (· == '/')

/-! ## What is seen in front of a stop -/

section Stops

variable {rest rest' : List Char}

/-- A run of characters that are no slashes ends at a stop. -/
lemma takeWhile_stop {p : Char → Bool} (hp : p '/' = false) (hrest : IsStop rest)
    (text : List Char) : (text ++ rest).takeWhile p = text.takeWhile p := by
  induction text with
  | nil =>
    cases rest with
    | nil => rfl
    | cons c rest =>
      obtain rfl : c = '/' := by simpa [IsStop] using hrest
      simp [hp]
  | cons c text ih => rw [List.cons_append, List.takeWhile_cons, List.takeWhile_cons, ih]

/-- A pattern without slashes does not begin in front of a stop and end behind it.

**Proof sketch.** Induction on the pattern. At a stop the text goes on with a slash or not at all,
and the pattern has no slash. -/
lemma startsWith_stop {pattern : List Char} (hpattern : '/' ∉ pattern) (hrest : IsStop rest)
    (text : List Char) : startsWith pattern (text ++ rest) = startsWith pattern text := by
  induction pattern generalizing text with
  | nil => rfl
  | cons p pattern ih =>
    rw [List.mem_cons, not_or] at hpattern
    cases text with
    | nil =>
      cases rest with
      | nil => rfl
      | cons c rest =>
        obtain rfl : c = '/' := by simpa [IsStop] using hrest
        simp [startsWith, after?, Ne.symm hpattern.1]
    | cons c text =>
      by_cases hc : p = c
      · have hsame : ∀ t, startsWith (p :: pattern) (c :: t) = startsWith pattern t := fun t => by
          simp [startsWith, after?, hc]
        rw [List.cons_append, hsame, hsame, ih hpattern.2]
      · simp [startsWith, after?, hc]

end Stops

/-- Two texts given as lines, the second directly behind the first. -/
def spliceLines : List (List Char) → List (List Char) → List (List Char)
  | [], further => further
  | [last], [] => [last]
  | [last], first :: further => (last ++ first) :: further
  | line :: next :: lines, further => line :: spliceLines (next :: lines) further

/-- Behind a line there is a line. -/
lemma exists_spliceLines_cons (line : List Char) (lines further : List (List Char)) :
    ∃ first rest, spliceLines (line :: lines) further = first :: rest := by
  cases lines with
  | nil => cases further with
    | nil => exact ⟨_, _, rfl⟩
    | cons first further => exact ⟨_, _, rfl⟩
  | cons next lines => exact ⟨_, _, rfl⟩

section Alike

variable {ch : Char} {before before' text rest rest' : List Char}

/-- The same run of characters that are no slashes is passed over. -/
lemma Cursor.span_alike {p : Char → Bool} (before before' text : List Char) (hp : p '/' = false)
    (hrest : IsStop rest) (hrest' : IsStop rest') :
    ((⟨before, text ++ rest⟩ : Cursor).span p).1 = ((⟨before', text ++ rest'⟩ : Cursor).span p).1
      ∧ ∃ n, ((⟨before, text ++ rest⟩ : Cursor).span p).2
          = (⟨before, text ++ rest⟩ : Cursor).forward n
        ∧ ((⟨before', text ++ rest'⟩ : Cursor).span p).2
          = (⟨before', text ++ rest'⟩ : Cursor).forward n := by
  rw [span, span, takeWhile_stop hp hrest, takeWhile_stop hp hrest']
  exact ⟨rfl, _, rfl, rfl⟩

/-- The same literal is passed over, if it ends in front of the stops or these are the same.

**Proof sketch.** Either the texts are equal, or the closing quote stands in front of the stops, at
the same place in both of them. -/
lemma Cursor.overQuoted_alike (before before' : List Char)
    (h : rest = rest' ∨ (quotedLength? ch text).isSome) :
    ∃ n, ((⟨before, ch :: text ++ rest⟩ : Cursor).overQuoted ch).2
          = (⟨before, ch :: text ++ rest⟩ : Cursor).forward n
      ∧ ((⟨before', ch :: text ++ rest'⟩ : Cursor).overQuoted ch).2
          = (⟨before', ch :: text ++ rest'⟩ : Cursor).forward n
      ∧ n ≤ (ch :: text ++ rest).length ∧ n ≤ (ch :: text ++ rest').length
      ∧ (ch :: text ++ rest).take n = (ch :: text ++ rest').take n := by
  have hpeek : ∀ before rest, (⟨before, ch :: text ++ rest⟩ : Cursor).peek? = some ch :=
    fun _ _ => rfl
  have hnext : ∀ before rest, (⟨before, ch :: text ++ rest⟩ : Cursor).next.after = text ++ rest :=
    fun _ _ => rfl
  rw [overQuoted, overQuoted, if_pos (hpeek before rest), if_pos (hpeek before' rest'),
    toClosingQuote, toClosingQuote, hnext, hnext]
  obtain rfl | hclosed := h
  · cases hlength : quotedLength? ch (text ++ rest) with
    | some n =>
      have hle : n + 1 ≤ (ch :: text ++ rest).length :=
        Nat.succ_le_succ (Lexicon.quotedLength?_le hlength)
      exact ⟨n + 1, (forward_succ n _).symm, (forward_succ n _).symm, hle, hle, rfl⟩
    | none => exact ⟨_, toEnd_forward 1 _, toEnd_forward 1 _, Nat.le_refl _, Nat.le_refl _, rfl⟩
  · obtain ⟨n, hlength⟩ := Option.isSome_iff_exists.1 hclosed
    have hle : n + 1 ≤ (ch :: text).length := Nat.succ_le_succ (Lexicon.quotedLength?_le hlength)
    rw [Lexicon.quotedLength?_append hlength, Lexicon.quotedLength?_append hlength]
    refine ⟨n + 1, (forward_succ n _).symm, (forward_succ n _).symm,
      hle.trans (by simp), hle.trans (by simp), ?_⟩
    rw [List.take_append_of_le_length hle, List.take_append_of_le_length hle]

end Alike

/-- A reader that passes over block comments. -/
structure CommentReader (σ α : Type) where
  /-- What comments and literals look like. -/
  lexicon : Lexicon
  /-- Whether a block comment is open. -/
  inComment : σ → Bool
  /-- The state in which a block comment is open, or none is. -/
  setComment : Bool → σ → σ
  /-- One step in code. -/
  codeStep : Nat → σ → Cursor → Char → Cursor.Step σ α
  /-- The state at the end of a line, and what is found there. -/
  endLine : σ → σ × List α
  /-- What was set is found. -/
  inComment_setComment (commented : Bool) (s : σ) : inComment (setComment commented s) = commented
  /-- Nothing is set that was not different before. -/
  setComment_inComment (s : σ) : setComment (inComment s) s = s
  /-- The end of a line does not end a comment. -/
  inComment_endLine (s : σ) : inComment (endLine s).1 = inComment s
  /-- No comment is begun or ended in code. -/
  inComment_codeStep {line : Nat} {s : σ} {c : Cursor} {ch : Char} (hch : c.peek? = some ch)
    (h : inComment s = false) : inComment (codeStep line s c ch).state = false
  /-- Literals are passed over. -/
  cursor_literal {line : Nat} {s : σ} {c : Cursor} {ch : Char} (hquote : ch ∈ lexicon.quotes) :
    (codeStep line s c ch).cursor = (c.overQuoted ch).2
  /-- Anything else is passed over as far as the next sign that begins a comment or a literal. -/
  cursor_plain (line : Nat) (s : σ) {c : Cursor} {ch : Char} (hch : c.peek? = some ch)
    (hquote : ch ∉ lexicon.quotes) :
    ∃ n, (codeStep line s c ch).cursor = c.next.forward n
      ∧ ∀ d ∈ c.next.after.take n, lexicon.IsPlain d
  /-- A step looks no further than the next slash, and back to the character before. -/
  codeStep_alike {line : Nat} {s : σ} {ch : Char} {before before' text rest rest' : List Char}
    (hch : text.head? = some ch) (hbefore : before.head? = before'.head?) (hrest : IsStop rest)
    (hrest' : IsStop rest')
    (hquote : ch ∈ lexicon.quotes → rest = rest' ∨ (Cursor.quotedLength? ch text.tail).isSome) :
    Cursor.Step.Alike ⟨before, text ++ rest⟩ ⟨before', text ++ rest'⟩
      (codeStep line s ⟨before, text ++ rest⟩ ch) (codeStep line s ⟨before', text ++ rest'⟩ ch)

namespace CommentReader

open Lexicon (Place)
open Cursor (Passes)

variable {σ α : Type} (R : CommentReader σ α)

/-! ## Reading -/

/-- One step. -/
def step (line : Nat) (s : σ) (c : Cursor) (ch : Char) : Cursor.Step σ α :=
  if R.inComment s then
    let (closed, after) := c.beyond "*/".toList
    { state := R.setComment (!closed) s, cursor := after }
  else if R.lexicon.hasRemarks && c.startsWith "//".toList then { state := s, cursor := c.toEnd }
  else if c.startsWith "/*".toList then { state := R.setComment true s, cursor := c.forward 2 }
  else R.codeStep line s c ch

/-- The state after the rest of a line, and what is found there. -/
def restOfLine (line : Nat) (s : σ) (c : Cursor) : σ × List α :=
  let (walked, found) := Cursor.walk (R.step line) s c
  let (ended, last) := R.endLine walked
  (ended, found ++ last)

/-- The state after a line and what is found on it. -/
def readLine (s : σ) (line : Nat) (text : List Char) : σ × List α :=
  R.restOfLine line s (.start text)

/-! ## Steps -/

variable {R} {line : Nat} {s : σ} {c : Cursor} {ch : Char} {before before' text : List Char}

/-- The end of a line is a stop. -/
lemma isStop_nil : IsStop [] := rfl

/-- A step in an open comment, which ends on the line. -/
lemma step_closes {n : Nat} (hs : R.inComment s = true)
    (h : offset? "*/".toList c.after = some n) :
    R.step line s c ch = { state := R.setComment false s, cursor := c.forward (n + 2) } := by
  rw [step, if_pos hs, Cursor.beyond, h]
  rfl

/-- A step in an open comment, which does not end on the line. -/
lemma step_stays (hs : R.inComment s = true) (h : offset? "*/".toList c.after = none) :
    R.step line s c ch = { state := s, cursor := c.toEnd } := by
  have hset : R.setComment true s = s := by rw [← hs, R.setComment_inComment]
  rw [step, if_pos hs, Cursor.beyond, h]
  exact congrArg (Cursor.Step.mk · c.toEnd []) hset

/-- A step at a comment that ends with the line. -/
lemma step_remark (hs : R.inComment s = false) (hremarks : R.lexicon.hasRemarks = true)
    (h : c.startsWith "//".toList = true) :
    R.step line s c ch = { state := s, cursor := c.toEnd } := by
  rw [step, hs, hremarks, h]
  rfl

/-- A step at the beginning of a block comment. -/
lemma step_opens (hs : R.inComment s = false) (h : c.startsWith "/*".toList = true) :
    R.step line s c ch = { state := R.setComment true s, cursor := c.forward 2 } := by
  have hslash : c.startsWith "//".toList = false := by
    obtain ⟨rest, hrest⟩ := startsWith_iff.1 h
    refine Bool.eq_false_iff.2 fun hslashes => ?_
    obtain ⟨rest', hrest'⟩ := startsWith_iff.1 hslashes
    rw [hrest] at hrest'
    have hsecond := (List.cons_eq_cons.1 (List.cons_eq_cons.1 hrest').2).1
    exact absurd hsecond (by decide)
  rw [step, hs, hslash, h, Bool.and_false]
  rfl

/-- A step in code. -/
lemma step_code (hs : R.inComment s = false)
    (hremark : (R.lexicon.hasRemarks && c.startsWith "//".toList) = false)
    (hopens : c.startsWith "/*".toList = false) :
    R.step line s c ch = R.codeStep line s c ch := by
  rw [step, hs, hremark, hopens]
  rfl

/-- Two characters that come next, and that begin no comment. -/
lemma head?_tail_ne {sign : Char} (hafter : c.after = ch :: text)
    (h : c.startsWith ['/', sign] = false) (hch : ch = '/') : text.head? ≠ some sign := by
  intro hhead
  obtain ⟨rest, rfl⟩ := List.head?_eq_some_iff.1 hhead
  have hstarts : c.startsWith ['/', sign] = true :=
    startsWith_iff.2 ⟨rest, by rw [hafter, hch]; rfl⟩
  rw [h] at hstarts
  cases hstarts

/-- A literal is passed over to its closing quote, where there is code again, or to the end of the
line.

**Proof sketch.** If the quote is closed, the cursor is behind the closing quote, where there is
code again. If it is not, the cursor is at the end of the line, within the literal, and nothing is
left. -/
lemma codeStep_settles_literal (hch : c.peek? = some ch) (hquote : ch ∈ R.lexicon.quotes) :
    ∃ n, 0 < n ∧ (R.codeStep line s c ch).cursor = c.forward n
      ∧ R.lexicon.Settles ((c.after.take n).foldl R.lexicon.next (.start false)) (c.after.drop n)
        false := by
  obtain ⟨text, hafter⟩ := List.head?_eq_some_iff.1 hch
  have hnext : c.next.after = text := by rw [Cursor.after_next hafter]
  have hbegins : R.lexicon.next (.start false) ch = .literal ch false := by
    simp [Lexicon.next, Place.start, hquote]
  rw [R.cursor_literal hquote, Cursor.overQuoted, if_pos hch, Cursor.toClosingQuote, hnext]
  cases hlength : Cursor.quotedLength? ch text with
  | some n =>
    refine ⟨n + 1, Nat.succ_pos n, (Cursor.forward_succ n c).symm, ?_⟩
    rw [hafter, List.take_succ_cons, List.foldl_cons, hbegins,
      Lexicon.foldl_literal_some hlength]
    exact Lexicon.settles_start _ false _
  | none =>
    have hend : c.next.toEnd = c.toEnd := Cursor.toEnd_forward 1 c
    refine ⟨c.after.length, by simp [hafter], hend, ?_⟩
    rw [List.take_length, List.drop_length, hafter, List.foldl_cons, hbegins]
    exact Lexicon.settles_end _ (Place.isComment_of_isLiteral (Lexicon.foldl_literal_none hlength))

/-- Behind a step in code the state tells the place.

**Proof sketch.** A step that passes over no literal moves over one character and then over plain
ones, and a slash that is moved over begins no comment. -/
lemma codeStep_settles (hch : c.peek? = some ch)
    (hremark : (R.lexicon.hasRemarks && c.startsWith "//".toList) = false)
    (hopens : c.startsWith "/*".toList = false) :
    ∃ n, 0 < n ∧ (R.codeStep line s c ch).cursor = c.forward n
      ∧ R.lexicon.Settles ((c.after.take n).foldl R.lexicon.next (.start false)) (c.after.drop n)
        false := by
  by_cases hquote : ch ∈ R.lexicon.quotes
  · exact codeStep_settles_literal hch hquote
  obtain ⟨text, hafter⟩ := List.head?_eq_some_iff.1 hch
  obtain ⟨n, hcursor, hplain⟩ := R.cursor_plain line s hch hquote
  rw [Cursor.after_next hafter] at hplain
  have hbegins : R.lexicon.next (.start false) ch = .code (ch == '/') := by
    simp [Lexicon.next, Place.start, hquote]
  have hslash : R.lexicon.Settles (.code (ch == '/')) text false := by
    by_cases hch : ch = '/'
    · refine Lexicon.settles_slash _ (head?_tail_ne hafter hopens hch) fun hremarks => ?_
      rw [hremarks, Bool.true_and] at hremark
      exact head?_tail_ne hafter hremark hch
    · rw [beq_false_of_ne hch]
      exact Lexicon.settles_start _ false text
  refine ⟨n + 1, Nat.succ_pos n, hcursor.trans (Cursor.forward_succ n c).symm, ?_⟩
  rw [hafter, List.take_succ_cons, List.drop_succ_cons, List.foldl_cons, hbegins]
  by_cases hempty : text.take n = []
  · have hall := List.take_append_drop n text
    rw [hempty, List.nil_append] at hall
    rw [hempty, hall]
    exact hslash
  · rw [hslash.later _ hempty (List.take_prefix n text), Place.start, if_neg Bool.false_ne_true,
      Lexicon.foldl_plain hplain]
    exact Lexicon.settles_start _ false _

/-- **Behind each step the state tells the place in front of the next character.**

**Proof sketch.** By what a step looks at first. Within a comment it goes behind the closing sign or
to the end of the line. In code a remark takes the rest of the line and an opening sign two
characters, and all else is a step in code, which ends at a literal or at a plain character
(`codeStep_settles`). -/
theorem step_settles (line : Nat) (s : σ) (hch : c.peek? = some ch) :
    ∃ n, 0 < n ∧ (R.step line s c ch).cursor = c.forward n
      ∧ R.lexicon.Settles ((c.after.take n).foldl R.lexicon.next (.start (R.inComment s)))
        (c.after.drop n) (R.inComment (R.step line s c ch).state) := by
  have hpos : 0 < c.after.length := by
    obtain ⟨text, hafter⟩ := List.head?_eq_some_iff.1 hch
    simp [hafter]
  cases hs : R.inComment s with
  -- a comment is open
  | true =>
    cases hends : offset? "*/".toList c.after with
    | some n =>
      rw [step_closes hs hends, R.inComment_setComment]
      refine ⟨n + 2, Nat.succ_pos _, rfl, ?_⟩
      rw [Place.start, if_pos rfl, Lexicon.foldl_comment_some hends (by simp)]
      exact Lexicon.settles_start _ false _
    | none =>
      rw [step_stays hs hends]
      refine ⟨c.after.length, hpos, rfl, ?_⟩
      have hcomment : (c.after.foldl R.lexicon.next (.start true)).isComment = true :=
        Lexicon.foldl_comment_none hends (by simp)
      rw [List.take_length, List.drop_length, hs]
      exact Lexicon.settles_end _ hcomment
  | false =>
    by_cases hremark : (R.lexicon.hasRemarks && c.startsWith "//".toList) = true
    -- a remark
    · rw [Bool.and_eq_true] at hremark
      rw [step_remark hs hremark.1 hremark.2, hs]
      refine ⟨c.after.length, hpos, rfl, ?_⟩
      rw [List.take_length, List.drop_length, Lexicon.foldl_slashes hremark.1 hremark.2]
      exact Lexicon.settles_end _ rfl
    · rw [Bool.not_eq_true] at hremark
      by_cases hopens : c.startsWith "/*".toList = true
      -- a comment begins
      · rw [step_opens hs hopens, R.inComment_setComment]
        obtain ⟨rest, hrest⟩ := startsWith_iff.1 hopens
        refine ⟨2, Nat.two_pos, rfl, ?_⟩
        rw [hrest]
        show R.lexicon.Settles ("/*".toList.foldl R.lexicon.next (.start false)) rest true
        rw [Lexicon.foldl_opening]
        exact Lexicon.settles_start _ true rest
      -- a step in code
      · rw [Bool.not_eq_true] at hopens
        rw [step_code hs hremark hopens, R.inComment_codeStep hch hs]
        exact codeStep_settles hch hremark hopens

/-- A walk is its first step and the walk from there. -/
lemma walk_eq (line : Nat) (s : σ) (hch : c.peek? = some ch) :
    Cursor.walk (R.step line) s c
      = ((Cursor.walk (R.step line) (R.step line s c ch).state (R.step line s c ch).cursor).1,
        (R.step line s c ch).found
          ++ (Cursor.walk (R.step line) (R.step line s c ch).state
            (R.step line s c ch).cursor).2) := by
  obtain ⟨text, hafter⟩ := List.head?_eq_some_iff.1 hch
  obtain ⟨n, hn, hcursor, -⟩ := step_settles line s hch
  refine Cursor.walk_step _ _ hafter (Cursor.length_after_of_advances hch ?_)
  rw [hcursor]
  exact Cursor.advances_forward hn c

/-- At the end of a line the state tells whether a comment goes on.

**Proof sketch.** Induction on the number of characters that are left. Behind each step the
characters that are left lead to the same place. -/
lemma inComment_walk (line : Nat) (s : σ) (c : Cursor) :
    R.inComment (Cursor.walk (R.step line) s c).1
      = R.lexicon.commentBehind (R.inComment s) c.after := by
  induction hn : c.after.length using Nat.strong_induction_on generalizing s c with
  | _ n ih =>
    cases hch : c.peek? with
    | none =>
      have hend : c.after = [] := List.head?_eq_none_iff.1 hch
      rw [Cursor.walk_end _ _ hend, hend]
      exact (Lexicon.isComment_start _).symm
    | some ch =>
      obtain ⟨k, hk, hcursor, hsettles⟩ := step_settles (R := R) line s hch
      have hshorter : (c.forward k).after.length < c.after.length :=
        Cursor.length_after_of_advances hch (Cursor.advances_forward hk c)
      rw [walk_eq line s hch, hcursor, ih _ (hn ▸ hshorter) _ _ rfl, Cursor.after_forward,
        ← hsettles.isComment_foldl, ← List.foldl_append, List.take_append_drop]
      rfl

/-- **The state tells whether a comment goes on behind the lines.** -/
theorem inComment_readLines (lines : List (List Char)) (first : Nat) (s : σ) :
    R.inComment (readLines R.readLine first s lines).1
      = lines.foldl R.lexicon.commentBehind (R.inComment s) := by
  induction lines generalizing first s with
  | nil => rfl
  | cons text lines ih =>
    have hline : R.inComment (R.readLine s first text).1
        = R.lexicon.commentBehind (R.inComment s) text := by
      rw [readLine, restOfLine]
      exact (R.inComment_endLine _).trans (inComment_walk first s (.start text))
    rw [List.foldl_cons, ← hline, ← ih]
    rfl

/-! ## Up to the beginning of a comment -/

/-- What begins with a block comment. -/
def opening (rest : List Char) : List Char := '/' :: '*' :: rest

/-- The sign that opens a comment is a stop. -/
lemma isStop_opening (rest : List Char) : IsStop (opening rest) := rfl

/-- Two places on a line are the same if the cursor is, where one is in front of the comment. -/
lemma eq_of_forward_eq {rest : List Char} {m n : Nat} (hn : n ≤ text.length)
    (h : (⟨before, text ++ opening rest⟩ : Cursor).forward m
      = (⟨before, text ++ opening rest⟩ : Cursor).forward n) : m = n := by
  have hlength := congrArg (fun d : Cursor => d.after.length) h
  simp only [Cursor.length_after_forward, List.length_append] at hlength
  have hmore : 0 < (opening rest).length := Nat.succ_pos _
  omega

/-- In front of the comment, a step in code ends in front of the comment.

**Proof sketch.** If the character begins a literal, this ends in front of the comment, because the
comment opens in code. Any other step passes plain characters behind its first one, and the slash of
the comment is none. -/
lemma codeStep_within (line : Nat) (s : σ) (before : List Char)
    (hopens : R.lexicon.Opens (.start false) (ch :: text)) :
    ∃ n, 0 < n ∧ n ≤ (ch :: text).length
      ∧ (R.codeStep line s ⟨before, ch :: text ++ opening []⟩ ch).cursor
        = (⟨before, ch :: text ++ opening []⟩ : Cursor).forward n
      ∧ (ch ∈ R.lexicon.quotes → (Cursor.quotedLength? ch text).isSome) := by
  by_cases hquote : ch ∈ R.lexicon.quotes
  -- a literal
  · have hbegins : R.lexicon.next (.start false) ch = .literal ch false := by
      simp [Lexicon.next, Place.start, hquote]
    cases hlength : Cursor.quotedLength? ch text with
    | none =>
      have hcode := hopens.code
      rw [List.foldl_cons, hbegins,
        Place.isCode_of_isLiteral (Lexicon.foldl_literal_none hlength)] at hcode
      cases hcode
    | some n =>
      have hmore : Cursor.quotedLength? ch (text ++ opening []) = some n :=
        Lexicon.quotedLength?_append hlength _
      refine ⟨n + 1, Nat.succ_pos n, Nat.succ_le_succ (Lexicon.quotedLength?_le hlength), ?_,
        fun _ => rfl⟩
      have hpeek : (⟨before, ch :: text ++ opening []⟩ : Cursor).peek? = some ch := rfl
      have hnext : (⟨before, ch :: text ++ opening []⟩ : Cursor).next.after
          = text ++ opening [] := rfl
      rw [R.cursor_literal hquote, Cursor.overQuoted, if_pos hpeek, Cursor.toClosingQuote, hnext,
        hmore]
      exact (Cursor.forward_succ n _).symm
  -- any other character
  · obtain ⟨n, hcursor, hplain⟩ := R.cursor_plain line s
      (c := ⟨before, ch :: text ++ opening []⟩) rfl hquote
    refine ⟨n + 1, Nat.succ_pos n, Nat.succ_le_succ ?_,
      hcursor.trans (Cursor.forward_succ n _).symm, fun h => absurd h hquote⟩
    by_contra hfar
    have hslash : '/' ∈ (text ++ opening []).take n := by
      rw [List.take_append]
      refine List.mem_append_right _ ?_
      obtain ⟨k, hk⟩ : ∃ k, n - text.length = k + 1 := ⟨n - text.length - 1, by omega⟩
      rw [hk]
      exact List.mem_cons_self
    exact (hplain '/' hslash).1 rfl

/-- In front of a comment that is opened behind the text, the step moves by some characters of the
text, and does the same whatever the comment says. -/
def StepsWithin (R : CommentReader σ α) (line : Nat) (s : σ) (before : List Char) (ch : Char)
    (text : List Char) : Prop :=
  ∃ n state found, 0 < n ∧ n ≤ (ch :: text).length ∧ ∀ rest,
    R.step line s ⟨before, ch :: text ++ opening rest⟩ ch
      = { state := state, cursor := (⟨before, ch :: text ++ opening rest⟩ : Cursor).forward n,
          found := found }

/-- In front of the comment, an open comment ends.

**Proof sketch.** The comment opens in code, so the open one ends in the text. -/
lemma step_within_comment (line : Nat) (before : List Char) (hs : R.inComment s = true)
    (hopens : R.lexicon.Opens (.start true) (ch :: text)) :
    R.StepsWithin line s before ch text := by
  cases hends : offset? "*/".toList (ch :: text) with
  | none =>
    have hcomment : ((ch :: text).foldl R.lexicon.next (.start true)).isComment = true :=
      Lexicon.foldl_comment_none hends (by simp)
    have hcode := hopens.code
    rw [Place.isCode_of_isComment hcomment] at hcode
    cases hcode
  | some n =>
    refine ⟨n + 2, R.setComment false s, [], Nat.succ_pos _, ?_, fun rest =>
      step_closes hs (Lexicon.offset?_append hends _)⟩
    have hlength := (offset?_isPrefix hends).length_le
    rw [List.length_drop] at hlength
    have htwo : "*/".toList.length = 2 := rfl
    omega

/-- In front of the comment, a step in code does the same whatever the comment says. The two
characters that come next are the same for all comments, and what else a step looks at ends at the
slash of the comment at the latest.

**Proof sketch.** A remark would hide the comment. An opening sign in the text takes two of its
characters, and a step in code ends in front of the comment (`codeStep_within`) and depends on
nothing behind it (`codeStep_alike`). -/
lemma step_within_code (line : Nat) (before : List Char) (hs : R.inComment s = false)
    (hopens : R.lexicon.Opens (.start false) (ch :: text)) :
    R.StepsWithin line s before ch text := by
  -- two characters in a row are the same for all comments
  have hpair : ∀ (sign : Char) (rest : List Char),
      (⟨before, ch :: text ++ opening rest⟩ : Cursor).startsWith ['/', sign]
        = (⟨before, ch :: text ++ opening []⟩ : Cursor).startsWith ['/', sign] := by
    intro sign rest
    refine Lexicon.startsWith_pair '/' sign fun _ => ?_
    cases text <;> rfl
  -- no remark begins, since the comment is opened in code
  have hremark : ∀ rest, (R.lexicon.hasRemarks && (⟨before, ch :: text ++ opening rest⟩ :
      Cursor).startsWith "//".toList) = false := by
    refine fun rest => Bool.eq_false_iff.2 fun hboth => ?_
    rw [Bool.and_eq_true] at hboth
    have hslashes : startsWith "//".toList (ch :: text ++ "/*".toList) = true :=
      (hpair '/' rest).symm.trans hboth.2
    have hplace := hopens.opens
    rw [Lexicon.foldl_slashes hboth.1 hslashes] at hplace
    cases hplace
  cases hcomment : (⟨before, ch :: text ++ opening []⟩ : Cursor).startsWith "/*".toList with
  | true =>
    refine ⟨2, R.setComment true s, [], Nat.two_pos, ?_, fun rest =>
      step_opens hs ((hpair '*' rest).trans hcomment)⟩
    cases text with
    | nil =>
      obtain ⟨tail, htail⟩ := startsWith_iff.1 hcomment
      have hsecond : '/' = '*' := (List.cons_eq_cons.1 (List.cons_eq_cons.1 htail).2).1
      exact absurd hsecond (by decide)
    | cons d text => exact Nat.succ_le_succ (Nat.succ_pos _)
  | false =>
    obtain ⟨n, hn, hle, hcursor, hclosed⟩ := codeStep_within line s before hopens
    refine ⟨n, (R.codeStep line s ⟨before, ch :: text ++ opening []⟩ ch).state,
      (R.codeStep line s ⟨before, ch :: text ++ opening []⟩ ch).found, hn, hle, fun rest => ?_⟩
    have halike : Cursor.Step.Alike ⟨before, ch :: text ++ opening []⟩
        ⟨before, ch :: text ++ opening rest⟩
        (R.codeStep line s ⟨before, ch :: text ++ opening []⟩ ch)
        (R.codeStep line s ⟨before, ch :: text ++ opening rest⟩ ch) :=
      R.codeStep_alike rfl rfl (isStop_opening []) (isStop_opening rest)
        fun hquote => .inr (hclosed hquote)
    obtain ⟨m, hfirst, hsecond⟩ := halike.moves
    obtain rfl : m = n := eq_of_forward_eq hle (hfirst.symm.trans hcursor)
    rw [step_code hs (hremark rest) ((hpair '*' rest).trans hcomment), halike.state, halike.found,
      ← hsecond]

/-- **In front of the comment, a step passes over characters of the text**, to the same state
whatever the comment says, and the comment is still to be opened.

**Proof sketch.** The step is the same whatever the comment says, in a comment as in code. Where it
ends, the state tells the place (`step_settles`), so the comment still opens behind what was passed.
-/
lemma exists_passes_step (line : Nat) (before : List Char)
    (hopens : R.lexicon.Opens (.start (R.inComment s)) (ch :: text)) :
    ∃ n state found, 0 < n
      ∧ R.lexicon.Opens (.start (R.inComment state)) ((ch :: text).drop n)
      ∧ ∀ rest, Passes (R.step line) s before ((ch :: text).take n)
        ((ch :: text).drop n ++ opening rest) state found := by
  obtain ⟨n, state, found, hpos, hle, hstep⟩ : R.StepsWithin line s before ch text := by
    cases hs : R.inComment s with
    | true => exact step_within_comment line before hs (hs ▸ hopens)
    | false => exact step_within_code line before hs (hs ▸ hopens)
  refine ⟨n, state, found, hpos, ?_, fun rest => ?_⟩
  · obtain ⟨m, -, hcursor, hsettles⟩ := step_settles (R := R) line s
      (c := ⟨before, ch :: text ++ opening []⟩) rfl
    rw [hstep []] at hcursor hsettles
    obtain rfl : m = n := eq_of_forward_eq hle hcursor.symm
    refine hopens.drop m [] ?_
    rw [List.take_append_of_le_length hle, List.drop_append_of_le_length hle] at hsettles
    rw [List.append_nil]
    exact hsettles
  · obtain ⟨k, rfl⟩ : ∃ k, n = k + 1 := ⟨n - 1, (Nat.succ_pred_eq_of_pos hpos).symm⟩
    refine Passes.of_step ?_
    have hall : ch :: text.take k ++ ((ch :: text).drop (k + 1) ++ opening rest)
        = ch :: text ++ opening rest := by
      rw [← List.append_assoc, ← List.take_succ_cons, List.take_append_drop]
    rw [hall, hstep rest, Cursor.forward, List.take_append_of_le_length hle,
      List.drop_append_of_le_length hle]
    rfl

/-- **The text in front of a comment is passed over to a state in which there is code**, and to the
same one whatever the comment says.

**Proof sketch.** Induction on the length of the text. Its first step ends within it, and behind the
step the comment is still to be opened. -/
lemma exists_passes (line : Nat) (before : List Char)
    (hopens : R.lexicon.Opens (.start (R.inComment s)) text) :
    ∃ s' found, R.inComment s' = false
      ∧ ∀ rest, Passes (R.step line) s before text (opening rest) s' found := by
  induction hn : text.length using Nat.strong_induction_on generalizing s before text with
  | _ length ih =>
    cases text with
    | nil =>
      have hcode : (Place.start (R.inComment s)).isCode = true := hopens.code
      rw [Lexicon.isCode_start] at hcode
      exact ⟨s, [], by simpa using hcode, fun _ => Passes.nil⟩
    | cons ch text =>
      obtain ⟨n, state, found, hpos, hbehind, hfirst⟩ := exists_passes_step line before hopens
      have hshorter : ((ch :: text).drop n).length < length := by
        rw [← hn, List.length_drop]
        exact Nat.sub_lt (Nat.succ_pos _) hpos
      obtain ⟨s', later, hcode, hpasses⟩ := ih _ hshorter (((ch :: text).take n).reverse ++ before)
        hbehind rfl
      refine ⟨s', found ++ later, hcode, fun rest => ?_⟩
      have hboth := (hfirst rest).append (hpasses rest)
      rwa [List.take_append_drop] at hboth

/-! ## In an open comment -/

/-- A step looks back at the character before it only.

**Proof sketch.** Of the branches only a step in code looks back. -/
lemma step_alike (line : Nat) (s : σ) (hbefore : before.head? = before'.head?) (ch : Char)
    (text : List Char) :
    Cursor.Step.Alike ⟨before, ch :: text⟩ ⟨before', ch :: text⟩
      (R.step line s ⟨before, ch :: text⟩ ch) (R.step line s ⟨before', ch :: text⟩ ch) := by
  have hcode : Cursor.Step.Alike ⟨before, ch :: text ++ []⟩ ⟨before', ch :: text ++ []⟩
      (R.codeStep line s ⟨before, ch :: text ++ []⟩ ch)
      (R.codeStep line s ⟨before', ch :: text ++ []⟩ ch) :=
    R.codeStep_alike rfl hbefore isStop_nil isStop_nil fun _ => .inl rfl
  rw [List.append_nil] at hcode
  unfold step Cursor.beyond Cursor.startsWith
  dsimp only
  split
  · split
    · exact ⟨rfl, rfl, _, rfl, rfl⟩
    · exact ⟨rfl, rfl, _, rfl, rfl⟩
  · split
    · exact ⟨rfl, rfl, _, rfl, rfl⟩
    · split
      · exact ⟨rfl, rfl, _, rfl, rfl⟩
      · exact hcode

/-- A walk looks back at the character before it only.

**Proof sketch.** Induction on the number of characters that are left. What stands before the next
step ends in the same character too. -/
lemma walk_alike (line : Nat) (s : σ) (hbefore : before.head? = before'.head?)
    (text : List Char) :
    Cursor.walk (R.step line) s ⟨before, text⟩ = Cursor.walk (R.step line) s ⟨before', text⟩ := by
  induction hn : text.length using Nat.strong_induction_on generalizing s before before' text with
  | _ length ih =>
    cases text with
    | nil => rw [Cursor.walk_end _ _ rfl, Cursor.walk_end _ _ rfl]
    | cons ch text =>
      have halike := step_alike (R := R) line s hbefore ch text
      have hpeek : (⟨before, ch :: text⟩ : Cursor).peek? = some ch := rfl
      have hpeek' : (⟨before', ch :: text⟩ : Cursor).peek? = some ch := rfl
      obtain ⟨n, hpos, hcursor, -⟩ := step_settles (R := R) line s hpeek
      obtain ⟨m, hfirst, hsecond⟩ := halike.moves
      have hlength := congrArg (fun c : Cursor => c.after.length) (hfirst.symm.trans hcursor)
      simp only [Cursor.length_after_forward, List.length_cons] at hlength
      have hshorter : ((ch :: text).drop m).length < length := by
        rw [← hn, List.length_drop, List.length_cons]
        omega
      have hmoved : ((ch :: text).take m).reverse ≠ [] := by
        rw [Ne, List.reverse_eq_nil_iff, List.take_eq_nil_iff]
        rintro (rfl | hnil)
        · omega
        · cases hnil
      have hhead : ((((ch :: text).take m).reverse ++ before).head?)
          = ((((ch :: text).take m).reverse ++ before').head?) := by
        rw [List.head?_append_of_ne_nil _ hmoved, List.head?_append_of_ne_nil _ hmoved]
      have hfurther := ih _ hshorter (R.step line s ⟨before', ch :: text⟩ ch).state hhead _ rfl
      rw [walk_eq line s hpeek, walk_eq line s hpeek', halike.state, halike.found, hfirst, hsecond]
      exact congrArg (fun walked : σ × List α =>
        (walked.1, (R.step line s ⟨before', ch :: text⟩ ch).found ++ walked.2)) hfurther

/-- A line in an open comment that does not end on it. -/
lemma readLine_stays (hs : R.inComment s = true) (h : ¬ "*/".toList <:+: text) :
    R.readLine s line text = R.endLine s := by
  have hwalk : Cursor.walk (R.step line) s (.start text) = (s, []) := by
    cases text with
    | nil => exact Cursor.walk_end _ _ rfl
    | cons ch text =>
      have hend : (Cursor.start (ch :: text)).toEnd.after = [] := List.drop_length
      have hpeek : (Cursor.start (ch :: text)).peek? = some ch := rfl
      rw [walk_eq line s hpeek, step_stays hs (offset?_eq_none_iff.2 h),
        Cursor.walk_end _ _ hend]
      rfl
  rw [readLine, restOfLine, hwalk]
  rfl

/-- A line in an open comment that ends on it is read from its end on.

**Proof sketch.** The first step finds the closing sign and goes behind it. From there on the walk
depends on the character before it, which is the slash of the sign. -/
lemma readLine_closes (hs : R.inComment s = true) (h : ¬ "*/".toList <:+: text)
    (further : List Char) :
    R.readLine s line (text ++ ("*/".toList ++ further))
      = R.restOfLine line (R.setComment false s) ⟨['/'], further⟩ := by
  have hpeek : ∃ ch, (Cursor.start (text ++ ("*/".toList ++ further))).peek? = some ch := by
    cases text with
    | nil => exact ⟨_, rfl⟩
    | cons ch text => exact ⟨_, rfl⟩
  obtain ⟨ch, hch⟩ := hpeek
  have hall : text ++ ("*/".toList ++ further) = (text ++ "*/".toList) ++ further :=
    (List.append_assoc ..).symm
  have hlength : (text ++ "*/".toList).length = text.length + 2 := List.length_append
  have hforward : (Cursor.start (text ++ ("*/".toList ++ further))).forward (text.length + 2)
      = ⟨(text ++ "*/".toList).reverse, further⟩ := by
    rw [← hlength, hall, Cursor.start, Cursor.forward_over, List.append_nil]
  have hbefore : (text ++ "*/".toList).reverse.head? = ['/'].head? := by
    rw [List.reverse_append]
    rfl
  have hwalk : Cursor.walk (R.step line) s (.start (text ++ ("*/".toList ++ further)))
      = Cursor.walk (R.step line) (R.setComment false s) ⟨['/'], further⟩ := by
    rw [walk_eq line s hch, step_closes hs (Lexicon.offset?_close h further), hforward,
      walk_alike line _ hbefore]
    rfl
  rw [readLine, restOfLine, restOfLine, hwalk]

/-- What stands in front of a line in an open comment does not matter.

**Proof sketch.** Within a comment the first step looks ahead for the closing sign, and it ends
behind this sign or at the end of the line; in both cases what stood in front is no longer looked
at. -/
lemma walk_inComment (line : Nat) (hs : R.inComment s = true) (before text : List Char) :
    Cursor.walk (R.step line) s ⟨before, text⟩ = Cursor.walk (R.step line) s (.start text) := by
  cases text with
  | nil => rw [Cursor.walk_end _ _ rfl, Cursor.walk_end _ _ rfl]
  | cons ch text =>
    rw [walk_eq line s (c := ⟨before, ch :: text⟩) rfl,
      walk_eq line s (c := .start (ch :: text)) rfl]
    cases hends : offset? "*/".toList (ch :: text) with
    | some n =>
      rw [step_closes hs hends, step_closes hs hends]
      have hmoved : ((ch :: text).take (n + 2)).reverse ≠ [] := by simp
      have hhead : (((ch :: text).take (n + 2)).reverse ++ before).head?
          = (((ch :: text).take (n + 2)).reverse ++ []).head? := by
        rw [List.head?_append_of_ne_nil _ hmoved, List.head?_append_of_ne_nil _ hmoved]
      exact congrArg (fun walked : σ × List α => (walked.1, [] ++ walked.2))
        (walk_alike line _ hhead _)
    | none =>
      have hend : (⟨before, ch :: text⟩ : Cursor).toEnd.after = [] := List.drop_length
      have hend' : (Cursor.start (ch :: text)).toEnd.after = [] := List.drop_length
      rw [step_stays hs hends, step_stays hs hends, Cursor.walk_end _ _ hend,
        Cursor.walk_end _ _ hend']

/-! ## The interior of a comment -/

/-- A comment that is opened on a line is read from its interior on, in a state that does not depend
on what it says.

**Proof sketch.** The walk passes the text in front of the comment and then its opening sign
(`exists_passes`). What stands behind is read within the comment, like a line of its own
(`walk_inComment`). -/
lemma exists_readLines_opening (line : Nat)
    (hopens : R.lexicon.Opens (.start (R.inComment s)) text) :
    ∃ s' found, R.inComment s' = true ∧ ∀ interior lines,
      readLines R.readLine line s ((text ++ "/*".toList ++ interior) :: lines)
        = ((readLines R.readLine line s' (interior :: lines)).1,
          found ++ (readLines R.readLine line s' (interior :: lines)).2) := by
  obtain ⟨s', found, hs', hpasses⟩ := exists_passes line [] hopens
  have hopened := R.inComment_setComment true s'
  refine ⟨R.setComment true s', found, hopened, fun interior lines => ?_⟩
  have hstep : Cursor.walk (R.step line) s' ⟨text.reverse ++ [], opening interior⟩
      = Cursor.walk (R.step line) (R.setComment true s') (.start interior) := by
    have hpeek : (⟨text.reverse ++ [], opening interior⟩ : Cursor).peek? = some '/' := rfl
    rw [walk_eq line s' hpeek, step_opens hs' rfl, ← walk_inComment line hopened]
    rfl
  have hwalk : Cursor.walk (R.step line) s (.start (text ++ "/*".toList ++ interior))
      = ((Cursor.walk (R.step line) (R.setComment true s') (.start interior)).1,
        found ++ (Cursor.walk (R.step line) (R.setComment true s') (.start interior)).2) := by
    rw [← hstep, List.append_assoc]
    exact hpasses interior
  have hline : R.readLine s line (text ++ "/*".toList ++ interior)
      = ((R.readLine (R.setComment true s') line interior).1,
        found ++ (R.readLine (R.setComment true s') line interior).2) := by
    rw [readLine, restOfLine, hwalk, readLine, restOfLine]
    exact Prod.ext rfl (List.append_assoc ..)
  rw [readLines, hline, readLines, List.append_assoc]

/-- What goes on behind a text ends a comment that is open there, or there is nothing. -/
def ClosesComment (rest : List (List Char)) : Prop :=
  rest = [] ∨ ∃ further lines, rest = ("*/".toList ++ further) :: lines

/-- **What an open comment says makes no difference.**

**Proof sketch.** Induction on the lines of its interior. Nothing is found on any of them, and the
state is the same behind them. -/
lemma readLines_interior (line : Nat) {interior interior' rest : List (List Char)}
    (hs : R.inComment s = true)
    (hlength : interior.length = interior'.length)
    (hinterior : ∀ text ∈ interior, ¬ "*/".toList <:+: text)
    (hinterior' : ∀ text ∈ interior', ¬ "*/".toList <:+: text) (hrest : ClosesComment rest) :
    readLines R.readLine line s (spliceLines interior rest)
      = readLines R.readLine line s (spliceLines interior' rest) := by
  induction interior generalizing line s interior' with
  | nil =>
    obtain rfl := List.length_eq_zero_iff.1 hlength.symm
    rfl
  | cons text interior ih =>
    obtain ⟨text', interior', rfl⟩ := List.exists_cons_of_length_eq_add_one hlength.symm
    have htext := hinterior text List.mem_cons_self
    have htext' := hinterior' text' List.mem_cons_self
    rw [List.length_cons, List.length_cons, Nat.add_right_cancel_iff] at hlength
    cases interior with
    | nil =>
      obtain rfl := List.length_eq_zero_iff.1 hlength.symm
      obtain rfl | ⟨further, lines, rfl⟩ := hrest
      · simp only [spliceLines, readLines, readLine_stays hs htext, readLine_stays hs htext']
      · simp only [spliceLines, readLines, readLine_closes hs htext, readLine_closes hs htext']
    | cons next interior =>
      obtain ⟨next', interior', rfl⟩ := List.exists_cons_of_length_eq_add_one hlength.symm
      have hbehind : R.inComment (R.endLine s).1 = true := (R.inComment_endLine s).trans hs
      have hlater := ih (line + 1) hbehind hlength
        (fun t ht => hinterior t (List.mem_cons_of_mem _ ht))
        (fun t ht => hinterior' t (List.mem_cons_of_mem _ ht))
      simp only [spliceLines, readLines, readLine_stays hs htext, readLine_stays hs htext', hlater]

/-- **The interior of a block comment makes no difference**, wherever in code the comment is opened
and over how many lines it goes.

**Proof sketch.** The lines in front of the comment are read the same, and they leave the state that
says how the comment opens (`inComment_readLines`). The opening of the comment leaves one state for
all interiors, and from there on the interiors make no difference (`readLines_interior`). -/
theorem readLines_comment {lines interior interior' rest : List (List Char)}
    (hs : R.inComment s = false) (hopens : R.lexicon.OpensComment lines text)
    (hlength : interior.length = interior'.length)
    (hinterior : ∀ text ∈ interior, ¬ "*/".toList <:+: text)
    (hinterior' : ∀ text ∈ interior', ¬ "*/".toList <:+: text) (hrest : ClosesComment rest) :
    readLines R.readLine line s
        (lines ++ spliceLines [text ++ "/*".toList] (spliceLines interior rest))
      = readLines R.readLine line s
        (lines ++ spliceLines [text ++ "/*".toList] (spliceLines interior' rest)) := by
  have hcomment : R.inComment (readLines R.readLine line s lines).1
      = R.lexicon.commentAfter lines := by
    rw [inComment_readLines, hs]
    rfl
  rw [Lexicon.OpensComment, ← hcomment] at hopens
  obtain ⟨s', found, hs', hreads⟩ := exists_readLines_opening (line + lines.length) hopens
  have hsame := readLines_interior (line + lines.length) hs' hlength hinterior hinterior' hrest
  rw [readLines_append, readLines_append]
  suffices h : readLines R.readLine (line + lines.length) (readLines R.readLine line s lines).1
        (spliceLines [text ++ "/*".toList] (spliceLines interior rest))
      = readLines R.readLine (line + lines.length) (readLines R.readLine line s lines).1
        (spliceLines [text ++ "/*".toList] (spliceLines interior' rest)) by rw [h]
  cases interior with
  | nil =>
    obtain rfl := List.length_eq_zero_iff.1 hlength.symm
    rfl
  | cons first interior =>
    obtain ⟨first', interior', rfl⟩ := List.exists_cons_of_length_eq_add_one hlength.symm
    obtain ⟨v, vs, hv⟩ := exists_spliceLines_cons first interior rest
    obtain ⟨v', vs', hv'⟩ := exists_spliceLines_cons first' interior' rest
    rw [hv, hv'] at hsame
    rw [hv, hv', spliceLines, spliceLines, hreads, hreads, hsame]

end CommentReader

end Outliner
