import Mathlib.Data.List.Basic
import Mathlib.Data.List.TakeWhile
import Mathlib.Tactic.Lemma
import Outliner.Cursor

set_option autoImplicit false

/-!
# Patterns

A pattern is searched for in a text from left to right, and what counts is the leftmost place where
it matches. Where it matches in several ways there, the preferred one counts: the first of two
alternatives rather than the second, and a repetition rather than its end. The search goes on behind
each match.

## Main definitions

* `Outliner.Pattern` — a pattern.
* `Outliner.Pattern.ways` — the ways in which a pattern matches at a place, preferred ones first.
* `Outliner.Pattern.search`, `Outliner.Pattern.finds` — the first match, and all matches one behind
  the other.

## Main results

* `Outliner.Pattern.exists_part` — a match goes on, over a character at least where it has to.
* `Outliner.Pattern.ways_skip`, `Outliner.Pattern.exists_ways_many_char` — characters of a class are
  passed as far as possible.
* `Outliner.Pattern.search_of_agree`, `Outliner.Pattern.search_skip` — what a search finds.
-/

namespace Outliner

/-! ## Patterns and their matches -/

/-- A pattern of characters. -/
inductive Pattern where
  /-- No character. -/
  | empty
  /-- A character of a class. -/
  | char (p : Char → Bool)
  /-- The edge of a word: exactly one of the characters before and behind it is part of a word. -/
  | edge
  /-- One pattern and then another one. -/
  | seq (first second : Pattern)
  /-- One of two patterns, the first one if possible. -/
  | either (first second : Pattern)
  /-- A pattern any number of times, as often as possible. -/
  | many (inner : Pattern)
  /-- A pattern whose match is remembered under a number. -/
  | group (number : Nat) (inner : Pattern)

/-- What is remembered of a group. -/
structure Capture where
  /-- The place where the group begins. -/
  place : Nat
  /-- What the group matches. -/
  text : List Char
deriving DecidableEq, Repr

/-- A match, as far as it has come. -/
structure Match where
  /-- The end of the match. -/
  cursor : Cursor
  /-- The groups that are matched, the last one first. -/
  groups : List (Nat × Capture) := []
deriving DecidableEq, Repr

namespace Match

/-- What is left of the text. -/
def rest (m : Match) : List Char := m.cursor.after

/-- The place of the end of the match. -/
def place (m : Match) : Nat := m.cursor.before.length

/-- What the group of a number matched. -/
def group? (number : Nat) (m : Match) : Option Capture := m.groups.lookup number

/-- The match that goes on over `part` and leaves `rest`. -/
def past (part rest : List Char) (m : Match) : Match :=
  { m with cursor := ⟨part.reverse ++ m.cursor.before, rest⟩ }

/-- The match that goes on until `rest` is left, which is an end of what is left now. -/
def upTo (m : Match) (rest : List Char) : Match :=
  m.past (m.rest.take (m.rest.length - rest.length)) rest

/-- The match that remembers a group under a number. -/
def keep (number : Nat) (capture : Capture) (m : Match) : Match :=
  { m with groups := (number, capture) :: m.groups }

/-- The match that remembers what was passed since `start` under a number. -/
def remember (number : Nat) (m start : Match) : Match :=
  m.keep number ⟨start.place, (m.cursor.before.take (m.place - start.place)).reverse⟩

/-- Behind a part, what is left is what is left. -/
@[simp] lemma rest_past (part rest : List Char) (m : Match) : (m.past part rest).rest = rest := rfl

/-- A match that goes on until a text is left leaves it. -/
@[simp] lemma rest_upTo (m : Match) (rest : List Char) : (m.upTo rest).rest = rest := rfl

/-- Keeping a group leaves the rest alone. -/
@[simp] lemma rest_keep (number : Nat) (capture : Capture) (m : Match) :
    (m.keep number capture).rest = m.rest := rfl

/-- Keeping a group leaves the place alone. -/
@[simp] lemma place_keep (number : Nat) (capture : Capture) (m : Match) :
    (m.keep number capture).place = m.place := rfl

/-- Remembering what was passed leaves the rest alone. -/
@[simp] lemma rest_remember (number : Nat) (m start : Match) :
    (m.remember number start).rest = m.rest := rfl

/-- A match that goes on over a part is further by its length. -/
@[simp] lemma place_past (part rest : List Char) (m : Match) :
    (m.past part rest).place = m.place + part.length := by
  simp [place, past, Nat.add_comm]

/-- A match goes on over two parts as over both at once. -/
@[simp] lemma past_past (part rest part' rest' : List Char) (m : Match) :
    (m.past part rest).past part' rest' = m.past (part ++ part') rest' := by
  simp [past]

/-- A match that goes on until a text is left is further by what is no longer left. -/
@[simp] lemma place_upTo (m : Match) (rest : List Char) :
    (m.upTo rest).place = m.place + (m.rest.length - rest.length) := by
  rw [upTo, place_past, List.length_take_of_le (Nat.sub_le _ _)]

/-- Remembering a part keeps it with the place at which it began. -/
lemma remember_past (number : Nat) (part rest : List Char) (m : Match) :
    (m.past part rest).remember number m = (m.past part rest).keep number ⟨m.place, part⟩ := by
  have hlength : (m.past part rest).place - m.place = part.reverse.length := by simp
  rw [remember, hlength]
  simp [past]

/-- Where the rest begins with a part, going on until the remainder is left is going on over the
part. -/
lemma upTo_eq_past {m : Match} (part : List Char) {rest : List Char} (h : m.rest = part ++ rest) :
    m.upTo rest = m.past part rest := by
  have hlength : (part ++ rest).length - rest.length = part.length := by simp
  rw [upTo, h, hlength, List.take_left]

/-- Going on until all is left is staying. -/
@[simp] lemma upTo_rest (m : Match) : m.upTo m.rest = m := upTo_eq_past [] rfl

/-- Going on in two steps is going on in one. -/
lemma upTo_upTo {m : Match} {rest rest' : List Char} (h : rest <:+ m.rest) (h' : rest' <:+ rest) :
    (m.upTo rest).upTo rest' = m.upTo rest' := by
  obtain ⟨part, hpart⟩ := h
  obtain ⟨part', rfl⟩ := h'
  rw [upTo_eq_past part hpart.symm, upTo_eq_past part' rfl, past_past,
    upTo_eq_past (part ++ part') (by rw [← hpart, List.append_assoc])]

/-- The character just passed. -/
lemma head?_before_upTo {m : Match} {part rest : List Char} {c : Char}
    (h : m.rest = part ++ c :: rest) : (m.upTo rest).cursor.before.head? = some c := by
  rw [upTo_eq_past (part ++ [c]) (by rw [h, List.append_assoc]; rfl)]
  simp [past]

/-- Going on in two steps is going on in one, if there is a place to stop. -/
lemma map_upTo_upTo {m : Match} {rest : List Char} (h : rest <:+ m.rest)
    {stop? : Option (List Char)} (hstop : ∀ rest' ∈ stop?, rest' <:+ rest) :
    stop?.map (m.upTo rest).upTo = stop?.map m.upTo := by
  cases stop? with
  | none => rfl
  | some rest' => exact congrArg some (upTo_upTo h (hstop rest' rfl))

end Match

namespace Pattern

/-- A pattern at least once, as often as possible. -/
def plus (p : Pattern) : Pattern := p.seq p.many

/-- A pattern if possible. -/
def maybe (p : Pattern) : Pattern := p.either .empty

/-- The characters of a word. -/
def word : List Char → Pattern
  | [] => .empty
  | c :: w => (char (· == c)).seq (word w)

/-- One of the words, an earlier one rather than a later one. -/
def oneOf : List (List Char) → Pattern
  | [] => .char fun _ => false
  | [w] => word w
  | w :: words => (word w).either (oneOf words)

/-- The ways to repeat a step that passes something, at most so many times, the longer ones
first. -/
def repeated (step : Match → List Match) : Nat → Match → List Match
  | 0, m => [m]
  | n + 1, m =>
    ((step m).filter fun m' => m'.rest.length < m.rest.length).flatMap (repeated step n) ++ [m]

/-- The ways in which a match goes on with the pattern, the preferred ones first. -/
def ways : Pattern → Match → List Match
  | .empty, m => [m]
  | .char p, m =>
    match m.rest with
    | [] => []
    | c :: rest => if p c then [m.past [c] rest] else []
  | .edge, m =>
    if m.cursor.previous?.any isWordChar == m.cursor.peek?.any isWordChar then [] else [m]
  | .seq a b, m => (a.ways m).flatMap b.ways
  | .either a b, m => a.ways m ++ b.ways m
  | .many a, m => repeated a.ways m.rest.length m
  | .group number a, m => (a.ways m).map (·.remember number m)

/-- The match at a place, if there is one. -/
def first? (p : Pattern) (c : Cursor) : Option Match := (p.ways { cursor := c }).head?

/-- The match at the first place where there is one. -/
def search (p : Pattern) (before : List Char) : List Char → Option Match
  | [] => p.first? ⟨before, []⟩
  | c :: after => (p.first? ⟨before, c :: after⟩).or (search p (c :: before) after)

/-- The matches from a place on, each searched for behind the one before it. The search ends with a
match that passes nothing. -/
def findsFrom (p : Pattern) (c : Cursor) : List Match :=
  match p.search c.before c.after with
  | none => []
  | some m => m :: if m.rest.length < c.after.length then findsFrom p m.cursor else []
termination_by c.after.length

/-- The matches in a text. -/
def finds (p : Pattern) (text : List Char) : List Match := p.findsFrom (.start text)

/-! ## The parts of a match -/

variable {a b p : Pattern} {m m' : Match}

/-- The empty pattern has one way to match. -/
@[simp] lemma ways_empty (m : Match) : empty.ways m = [m] := rfl

/-- Behind each way to match the first pattern come those of the second one. -/
lemma ways_seq (a b : Pattern) (m : Match) : (a.seq b).ways m = (a.ways m).flatMap b.ways := rfl

/-- The ways of the first choice are preferred. -/
lemma ways_either (a b : Pattern) (m : Match) : (a.either b).ways m = a.ways m ++ b.ways m := rfl

/-- A group has the ways of its pattern and remembers what they passed. -/
lemma ways_group (number : Nat) (a : Pattern) (m : Match) :
    (group number a).ways m = (a.ways m).map (·.remember number m) := rfl

/-- A way through both patterns is a way through the second one behind a way through the first one.
-/
lemma mem_ways_seq : m' ∈ (a.seq b).ways m ↔ ∃ n ∈ a.ways m, m' ∈ b.ways n :=
  List.mem_flatMap

/-- At the end of a text no character is matched. -/
lemma ways_char_nil {q : Char → Bool} (h : m.rest = []) : (char q).ways m = [] := by
  rw [ways, h]

/-- A character is matched if it is of the kind that is asked for. -/
lemma ways_char_cons {q : Char → Bool} {c : Char} {rest : List Char} (h : m.rest = c :: rest) :
    (char q).ways m = if q c then [m.past [c] rest] else [] := by
  rw [ways, h]

/-- More times than there are characters left nothing is repeated.

**Proof sketch.** Induction on both limits. Where nothing is left, no step makes it shorter, so that
nothing is repeated; a step that makes the rest shorter leaves less than either limit allows. -/
lemma repeated_eq (step : Match → List Match) {n k : Nat} (hn : m.rest.length ≤ n)
    (hk : m.rest.length ≤ k) : repeated step n m = repeated step k m := by
  induction n generalizing k m with
  | zero =>
    cases k with
    | zero => rfl
    | succ k =>
      have hnone : ((step m).filter fun m' => m'.rest.length < m.rest.length) = [] :=
        List.filter_eq_nil_iff.2 fun m' _ => by simp [Nat.le_zero.1 hn]
      rw [repeated, repeated, hnone]
      rfl
  | succ n ih =>
    cases k with
    | zero =>
      have hnone : ((step m).filter fun m' => m'.rest.length < m.rest.length) = [] :=
        List.filter_eq_nil_iff.2 fun m' _ => by simp [Nat.le_zero.1 hk]
      rw [repeated, repeated, hnone]
      rfl
    | succ k =>
      rw [repeated, repeated]
      congr 1
      refine List.flatMap_congr fun m' hm' => ?_
      have hshorter := of_decide_eq_true (List.mem_filter.1 hm').2
      exact ih (by omega) (by omega)

/-- A repetition is one step and a repetition, or nothing.

**Proof sketch.** By the number of characters left. The repetition after the first step has less
left than the limit it is given, and the limit does not matter (`repeated_eq`). -/
lemma ways_many (a : Pattern) (m : Match) :
    a.many.ways m
      = ((a.ways m).filter fun m' => m'.rest.length < m.rest.length).flatMap a.many.ways
        ++ [m] := by
  rw [ways]
  cases hn : m.rest.length with
  | zero =>
    have hnone : ((a.ways m).filter fun m' => m'.rest.length < 0) = [] :=
      List.filter_eq_nil_iff.2 fun m' _ => by simp
    rw [repeated, hnone]
    rfl
  | succ n =>
    rw [repeated, hn]
    congr 1
    refine List.flatMap_congr fun m' hm' => ?_
    have hshorter := of_decide_eq_true (List.mem_filter.1 hm').2
    exact repeated_eq a.ways (by omega) (Nat.le_refl _)

section ManyChars

variable {q : Char → Bool} {c : Char} {rest : List Char}

/-- Characters are passed before one is given up. -/
lemma ways_many_char_cons (hrest : m.rest = c :: rest) (hc : q c = true) :
    (char q).many.ways m = (char q).many.ways (m.upTo rest) ++ [m] := by
  have hlt : (m.past [c] rest).rest.length < m.rest.length := by
    rw [hrest]
    exact Nat.lt_succ_self _
  have hone : [m.past [c] rest].filter (fun m' => m'.rest.length < m.rest.length)
      = [m.past [c] rest] := List.filter_cons_of_pos (decide_eq_true hlt)
  rw [ways_many, ways_char_cons hrest, if_pos hc, hone, List.flatMap_singleton,
    Match.upTo_eq_past [c] hrest]

/-- Where no further character is of the kind that is asked for, none is passed. -/
lemma ways_many_char_stop (h : m.rest.head?.any q = false) : (char q).many.ways m = [m] := by
  rw [ways_many]
  cases hrest : m.rest with
  | nil =>
    rw [ways_char_nil hrest]
    rfl
  | cons c rest =>
    have hc : ¬q c = true := by
      rw [hrest] at h
      exact Bool.eq_false_iff.1 h
    rw [ways_char_cons hrest, if_neg hc]
    rfl

/-- What is left behind the first character is an end of what is left. -/
lemma upTo_upTo_dropWhile (hrest : m.rest = c :: rest) (hc : q c = true) :
    (m.upTo rest).upTo (rest.dropWhile q) = m.upTo (m.rest.dropWhile q) := by
  rw [hrest, List.dropWhile_cons_of_pos hc]
  exact Match.upTo_upTo (hrest ▸ List.suffix_cons c rest) (List.dropWhile_suffix q)

/-- Characters are passed as far as possible where what comes next begins with none of them. -/
lemma ways_skip (hp : ∀ n : Match, n.rest.head?.any q = true → p.ways n = []) (m : Match) :
    ((char q).many.seq p).ways m = p.ways (m.upTo (m.rest.dropWhile q)) := by
  rw [ways_seq]
  induction hrest : m.rest generalizing m with
  | nil =>
    rw [ways_many_char_stop (by rw [hrest]; rfl), List.flatMap_singleton, List.dropWhile_nil,
      ← hrest, Match.upTo_rest]
  | cons c rest ih =>
    by_cases hc : q c = true
    · have hhere : p.ways m = [] := hp m (by rw [hrest]; exact hc)
      rw [ways_many_char_cons hrest hc, List.flatMap_append, ih (m.upTo rest) rfl,
        upTo_upTo_dropWhile hrest hc, List.flatMap_singleton, hhere, List.append_nil, hrest]
    · rw [ways_many_char_stop (by rw [hrest]; exact Bool.eq_false_iff.2 hc),
        List.flatMap_singleton, List.dropWhile_cons_of_neg hc, ← hrest, Match.upTo_rest]

/-- The preferred way to pass characters is to pass all of them.

**Proof sketch.** Induction on what is left. Where the first character counts, the ways behind it
come first, and the one that passes nothing comes last. -/
lemma exists_ways_many_char (q : Char → Bool) (m : Match) :
    ∃ others, (char q).many.ways m = m.upTo (m.rest.dropWhile q) :: others
      ∧ ∀ n ∈ others, ∃ part, (∀ c ∈ part, q c = true) ∧ n.rest = part ++ m.rest.dropWhile q := by
  induction hrest : m.rest generalizing m with
  | nil =>
    refine ⟨[], ?_, List.forall_mem_nil _⟩
    rw [ways_many_char_stop (by rw [hrest]; rfl), List.dropWhile_nil, ← hrest, Match.upTo_rest]
  | cons c rest ih =>
    by_cases hc : q c = true
    · obtain ⟨others, hothers, hshorter⟩ := ih (m.upTo rest) rfl
      refine ⟨others ++ [m], ?_, fun n hn => ?_⟩
      · rw [ways_many_char_cons hrest hc, hothers, upTo_upTo_dropWhile hrest hc, hrest]
        rfl
      rw [List.dropWhile_cons_of_pos hc]
      rcases List.mem_append.1 hn with hn | hn
      · exact hshorter n hn
      · obtain rfl := List.mem_singleton.1 hn
        refine ⟨c :: rest.takeWhile q,
          List.forall_mem_cons.2 ⟨hc, fun d => List.mem_takeWhile_imp⟩, ?_⟩
        rw [hrest, List.cons_append, List.takeWhile_append_dropWhile]
    · refine ⟨[], ?_, List.forall_mem_nil _⟩
      rw [ways_many_char_stop (by rw [hrest]; exact Bool.eq_false_iff.2 hc),
        List.dropWhile_cons_of_neg hc, ← hrest, Match.upTo_rest]

end ManyChars

/-- The preferred way is gone on with, if no other way is where it is not. -/
lemma head?_flatMap_cons {α β : Type} {step : α → List β} {first : α} {others : List α}
    (h : step first = [] → ∀ other ∈ others, step other = []) :
    ((first :: others).flatMap step).head? = (step first).head? := by
  rw [List.flatMap_cons]
  cases hfirst : step first with
  | nil => rw [List.nil_append, List.flatMap_eq_nil_iff.2 (h hfirst)]
  | cons next _ => rfl

/-! ## What a match passes -/

/-- Whether a pattern has to pass a character. -/
def passes : Pattern → Bool
  | .empty | .edge | .many _ => false
  | .char _ => true
  | .seq a b => a.passes || b.passes
  | .either a b => a.passes && b.passes
  | .group _ a => a.passes

/-- **A match goes on over a part of what is left**, which is not empty where a character has to be
passed.

**Proof sketch.** Induction on the pattern, one case for each way to build it. A pattern behind
another one goes on over two parts, one after the other. A repetition is itself an induction on what
is left, as each of its steps makes it shorter (`ways_many`). -/
theorem exists_part (h : m' ∈ p.ways m) :
    ∃ part, m.rest = part ++ m'.rest ∧ m'.cursor.before = part.reverse ++ m.cursor.before
      ∧ (p.passes = true → part ≠ []) := by
  induction p generalizing m m' with
  | empty =>
    obtain rfl := List.mem_singleton.1 h
    exact ⟨[], rfl, rfl, fun hpasses => by cases hpasses⟩
  | char q =>
    cases hrest : m.rest with
    | nil => simp [ways_char_nil hrest] at h
    | cons c rest =>
      rw [ways_char_cons hrest] at h
      split at h
      · obtain rfl := List.mem_singleton.1 h
        exact ⟨[c], rfl, rfl, fun _ => List.cons_ne_nil c []⟩
      · cases h
  | edge =>
    rw [ways] at h
    split at h
    · cases h
    · obtain rfl := List.mem_singleton.1 h
      exact ⟨[], rfl, rfl, fun hpasses => by cases hpasses⟩
  | seq a b iha ihb =>
    obtain ⟨n, hn, hm'⟩ := mem_ways_seq.1 h
    obtain ⟨x, hx, hbefore, hxpasses⟩ := iha hn
    obtain ⟨y, hy, hbefore', hypasses⟩ := ihb hm'
    refine ⟨x ++ y, by rw [hx, hy, List.append_assoc], ?_, fun hpasses => ?_⟩
    · rw [hbefore', hbefore, List.reverse_append, List.append_assoc]
    · rcases Bool.or_eq_true_iff.1 hpasses with ha | hb
      · exact List.append_ne_nil_of_left_ne_nil (hxpasses ha) y
      · exact List.append_ne_nil_of_right_ne_nil x (hypasses hb)
  | either a b iha ihb =>
    rcases List.mem_append.1 h with h | h
    · obtain ⟨x, hx, hbefore, hxpasses⟩ := iha h
      exact ⟨x, hx, hbefore, fun hpasses => hxpasses (Bool.and_eq_true_iff.1 hpasses).1⟩
    · obtain ⟨x, hx, hbefore, hxpasses⟩ := ihb h
      exact ⟨x, hx, hbefore, fun hpasses => hxpasses (Bool.and_eq_true_iff.1 hpasses).2⟩
  | many a iha =>
    -- each step of the repetition leaves less of the text
    induction hn : m.rest.length using Nat.strongRecOn generalizing m with
    | _ n ih =>
      subst hn
      rw [ways_many, List.mem_append, List.mem_flatMap] at h
      rcases h with ⟨k, hk, hm'⟩ | h
      · obtain ⟨hk, hlt⟩ := List.mem_filter.1 hk
        obtain ⟨x, hx, hbefore, -⟩ := iha hk
        obtain ⟨y, hy, hbefore', -⟩ := ih _ (of_decide_eq_true hlt) hm' rfl
        refine ⟨x ++ y, by rw [hx, hy, List.append_assoc], ?_, fun hpasses => by cases hpasses⟩
        rw [hbefore', hbefore, List.reverse_append, List.append_assoc]
      · obtain rfl := List.mem_singleton.1 h
        exact ⟨[], rfl, rfl, fun hpasses => by cases hpasses⟩
  | group number a iha =>
    obtain ⟨n, hn, rfl⟩ := List.mem_map.1 h
    obtain ⟨part, hpart, hbefore, hpasses⟩ := iha hn
    exact ⟨part, hpart, hbefore, hpasses⟩

/-! ## Searching -/

/-- There is no first match if there is no way to match. -/
lemma first?_eq_none_iff {c : Cursor} : p.first? c = none ↔ p.ways { cursor := c } = [] :=
  List.head?_eq_none_iff

/-- The first match is one of the ways to match. -/
lemma mem_ways_of_first? {c : Cursor} (h : p.first? c = some m) : m ∈ p.ways { cursor := c } :=
  List.mem_of_head? h

/-- A search looks at the place at which it stands, and then at the next one. -/
lemma search_cons (p : Pattern) (before : List Char) (c : Char) (after : List Char) :
    p.search before (c :: after)
      = (p.first? ⟨before, c :: after⟩).or (p.search (c :: before) after) := rfl

/-- A search passes the places where there is no match. -/
lemma search_skip {part : List Char} (before rest : List Char)
    (h : ∀ x y, part = x ++ y → y ≠ [] → p.first? ⟨x.reverse ++ before, y ++ rest⟩ = none) :
    p.search before (part ++ rest) = p.search (part.reverse ++ before) rest := by
  induction part generalizing before with
  | nil => rfl
  | cons c part ih =>
    have hhere : p.first? ⟨before, c :: (part ++ rest)⟩ = none := h [] (c :: part) rfl (by simp)
    rw [List.cons_append, search_cons, hhere, Option.none_or, ih (c :: before) fun x y hxy hy => ?_]
    · simp
    · simpa using h (c :: x) y (by rw [hxy, List.cons_append]) hy

/-- Where a match in sight is the only one, it is found.

**Proof sketch.** Induction on the part in sight. The search looks at its first character. If there
is a match, it is the only one; if there is none, one begins later and the search goes on. -/
lemma search_of_agree {part : List Char} (before rest : List Char)
    (hagree : ∀ x y, part = x ++ y → ∀ m' ∈ p.first? ⟨x.reverse ++ before, y ++ rest⟩, m' = m)
    (hsome : ∃ x y, part = x ++ y ∧ p.first? ⟨x.reverse ++ before, y ++ rest⟩ ≠ none) :
    p.search before (part ++ rest) = some m := by
  induction part generalizing before with
  | nil =>
    obtain ⟨x, y, hxy, hfound⟩ := hsome
    obtain ⟨rfl, rfl⟩ := List.append_eq_nil_iff.1 hxy.symm
    obtain ⟨m', hm'⟩ := Option.ne_none_iff_exists'.1 hfound
    obtain rfl := hagree [] [] rfl m' hm'
    cases rest with
    | nil => exact hm'
    | cons c rest =>
      rw [List.nil_append, search_cons]
      exact Option.or_eq_some_iff.2 (.inl hm')
  | cons c part ih =>
    rw [List.cons_append, search_cons]
    cases hhere : p.first? ⟨before, c :: (part ++ rest)⟩ with
    | some m' =>
      obtain rfl := hagree [] (c :: part) rfl m' hhere
      rfl
    | none =>
      rw [Option.none_or]
      refine ih (c :: before) (fun x y hxy m' hm' => ?_) ?_
      · exact hagree (c :: x) y (by rw [hxy, List.cons_append]) m' (by simpa using hm')
      · obtain ⟨x, y, hxy, hfound⟩ := hsome
        cases x with
        | nil =>
          obtain rfl : c :: part = y := hxy
          exact absurd hhere hfound
        | cons d x =>
          obtain ⟨rfl, rfl⟩ := List.cons_eq_cons.1 hxy
          exact ⟨x, y, rfl, by simpa using hfound⟩

/-- What is left behind a match is an end of the text, and a match passes something where a
character has to be passed. -/
lemma rest_of_first? {before text : List Char} (hp : p.passes = true)
    (h : p.first? ⟨before, text⟩ = some m) :
    before.length < m.place ∧ m.rest = text.drop (m.place - before.length)
      ∧ m.rest.length < text.length := by
  obtain ⟨part, hpart, hbefore, hpasses⟩ := exists_part (mem_ways_of_first? h)
  have hpos : 0 < part.length := List.length_pos_iff.2 (hpasses hp)
  have htext : text = part ++ m.rest := hpart
  have hplace : m.place = part.length + before.length := by
    rw [Match.place, hbefore, List.length_append, List.length_reverse]
  refine ⟨?_, ?_, ?_⟩
  · omega
  · rw [hplace, Nat.add_sub_cancel, htext, List.drop_left]
  · rw [htext, List.length_append]
    omega

/-- Behind a match that has to pass a character less is left. -/
lemma length_rest_search_lt {before text : List Char} (hp : p.passes = true)
    (h : p.search before text = some m) : m.rest.length < text.length := by
  induction text generalizing before with
  | nil => exact (rest_of_first? hp h).2.2
  | cons c text ih =>
    rcases Option.or_eq_some_iff.1 h with h | ⟨-, h⟩
    · exact (rest_of_first? hp h).2.2
    · exact Nat.lt_succ_of_lt (ih h)

/-- After a match the search goes on behind it. -/
lemma findsFrom_of_search (hp : p.passes = true) {before text : List Char}
    (h : p.search before text = some m) :
    p.findsFrom ⟨before, text⟩ = m :: p.findsFrom m.cursor := by
  rw [findsFrom]
  simp only [h, length_rest_search_lt hp h, if_true]

/-- Places where there is no match make no difference to what is found. -/
lemma findsFrom_of_search_eq (hp : p.passes = true) {before text before' text' : List Char}
    (h : p.search before text = p.search before' text') :
    p.findsFrom ⟨before, text⟩ = p.findsFrom ⟨before', text'⟩ := by
  cases hsearch : p.search before' text' with
  | none =>
    rw [findsFrom, findsFrom]
    simp only [h, hsearch]
  | some m => rw [findsFrom_of_search hp (h.trans hsearch), findsFrom_of_search hp hsearch]

/-- At the end of the text nothing is found. -/
lemma findsFrom_nil (hp : p.passes = true) (before : List Char) :
    p.findsFrom ⟨before, []⟩ = [] := by
  have hnone : p.search before [] = none := by
    rw [Option.eq_none_iff_forall_ne_some]
    intro m hm
    exact absurd (length_rest_search_lt hp hm) (Nat.not_lt_zero _)
  rw [findsFrom]
  simp only [hnone]

end Pattern

end Outliner
