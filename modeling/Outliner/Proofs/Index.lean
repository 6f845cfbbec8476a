import Mathlib.Data.List.Induction
import Mathlib.Order.Bounds.Basic
import Outliner.Proofs.Checked.ByText
import Outliner.Proofs.Utf8

set_option autoImplicit false

/-!
# An index of lines and braces

A program that asks often where a brace is closed, and on which line something stands, goes through
the text once and keeps what it needs to answer: the offsets of the line ends, and for each brace
that is closed the offset at which it is. While it goes through the text it keeps the braces that
are open on a stack. Braces that close nothing are passed over, and braces that are never closed
stay on the stack.

What the program answers can be told without a stack. An opening brace is closed at the first
closing brace up to which as many braces are opened as are closed, and at the end of the text if
there is none.

## Main definitions

* `Outliner.Closes`, `Outliner.ClosedAt` — where a bracket is closed, told by counting.
* `Outliner.Index` — what the program keeps.
* `Outliner.Index.Pass.next` — what one byte changes.
* `Outliner.Index.line`, `Outliner.Index.closing` — what the program answers.

## Main results

* `Outliner.Index.Pass.Sound.next` — each byte keeps what the stack and the pairs say.
* `Outliner.Place.closedAt_closing` — places of a text are closed where counting says.
* `Outliner.Index.ofText_faithful` — the program answers what counting says.
-/

namespace Outliner

/-! ## Where brackets are closed -/

section Counting

variable {α : Type} {text : List α}

/-- What stands in a longer text stands in the text itself or is its last character. -/
lemma getElem?_concat_eq_some {a b : α} {n : Nat} (h : (text ++ [a])[n]? = some b) :
    text[n]? = some b ∨ n = text.length ∧ a = b := by
  obtain ⟨hlt, hb⟩ := List.getElem?_eq_some_iff.1 h
  rcases Nat.lt_or_ge n text.length with hn | hn
  · exact .inl (by rwa [List.getElem?_append_left hn] at h)
  · obtain rfl : n = text.length := by
      rw [List.length_append, List.length_singleton] at hlt
      omega
    exact .inr ⟨rfl, by simpa using h⟩

variable [DecidableEq α] {opening closing : α}

/-- A closing bracket stands at `stop`, behind `start`, and as many brackets are opened as are
closed between the two. -/
structure Closes (opening closing : α) (text : List α) (start stop : Nat) : Prop where
  /-- The bracket stands further on. -/
  behind : start < stop
  /-- It is a closing one. -/
  closes : text[stop]? = some closing
  /-- What is opened in between is closed there. -/
  balanced : ((text.take stop).drop (start + 1)).count opening
    = ((text.take stop).drop (start + 1)).count closing

/-- What is opened at `start` is closed at `stop`: at the first bracket that closes it, or at the
end of the text if there is none. -/
inductive ClosedAt (opening closing : α) (text : List α) (start : Nat) : Nat → Prop where
  /-- The first bracket that closes it. -/
  | first {stop : Nat} (h : IsLeast {p | Closes opening closing text start p} stop) :
    ClosedAt opening closing text start stop
  /-- The end of the text. -/
  | never (h : ∀ p, ¬ Closes opening closing text start p) :
    ClosedAt opening closing text start text.length

/-- What is opened is closed at one place only. -/
lemma ClosedAt.unique {start stop stop' : Nat} (h : ClosedAt opening closing text start stop)
    (h' : ClosedAt opening closing text start stop') : stop = stop' := by
  cases h with
  | first hleast =>
    cases h' with
    | first hleast' => exact hleast.unique hleast'
    | never hnone => exact absurd hleast.1 (hnone _)
  | never hnone =>
    cases h' with
    | first hleast' => exact absurd hleast'.1 (hnone _)
    | never => rfl

/-- A closing bracket stands in the text. -/
lemma Closes.lt_length {start stop : Nat} (h : Closes opening closing text start stop) :
    stop < text.length := (List.getElem?_eq_some_iff.1 h.closes).1

/-- One more character closes what is open in front of it, if it is a closing bracket and nothing
else is open.

**Proof sketch.** Where the closing bracket stands in front of the last character, it closes the
same in the shorter text. Where it is the last character, all that is opened before it has to be
closed. -/
lemma closes_concat {a : α} {start stop : Nat} :
    Closes opening closing (text ++ [a]) start stop
      ↔ Closes opening closing text start stop
        ∨ stop = text.length ∧ start < text.length ∧ a = closing
          ∧ (text.drop (start + 1)).count opening = (text.drop (start + 1)).count closing := by
  constructor
  · rintro ⟨hbehind, hcloses, hbalanced⟩
    rcases Nat.lt_trichotomy stop text.length with hlt | rfl | hgt
    · rw [List.getElem?_append_left hlt] at hcloses
      rw [List.take_append_of_le_length hlt.le] at hbalanced
      exact .inl ⟨hbehind, hcloses, hbalanced⟩
    · rw [List.getElem?_concat_length, Option.some.injEq] at hcloses
      rw [List.take_left] at hbalanced
      exact .inr ⟨rfl, hbehind, hcloses, hbalanced⟩
    · rw [List.getElem?_eq_none (by simpa using Nat.succ_le_of_lt hgt)] at hcloses
      cases hcloses
  · rintro (h | ⟨rfl, hstart, rfl, hbalanced⟩)
    · refine ⟨h.behind, ?_, ?_⟩
      · rw [List.getElem?_append_left h.lt_length]
        exact h.closes
      · rw [List.take_append_of_le_length h.lt_length.le]
        exact h.balanced
    · refine ⟨hstart, List.getElem?_concat_length, ?_⟩
      rw [List.take_left]
      exact hbalanced

/-- What is closed in a text is closed there whatever stands behind it. -/
lemma isLeast_closes_concat {a : α} {start stop : Nat}
    (h : IsLeast {p | Closes opening closing text start p} stop) :
    IsLeast {p | Closes opening closing (text ++ [a]) start p} stop := by
  refine ⟨closes_concat.2 (.inl h.1), fun p hp => ?_⟩
  rcases closes_concat.1 hp with hp | ⟨rfl, -⟩
  · exact h.2 hp
  · exact h.1.lt_length.le

end Counting

/-! ## The index -/

/-- What the program keeps of a text. -/
structure Index where
  /-- The offsets of the line ends, in their order. -/
  lineEnds : List Nat
  /-- The opening braces that are closed, each with the brace that closes it. -/
  pairs : List (Nat × Nat)
  /-- The number of bytes of the text. -/
  length : Nat

namespace Index

/-- What the program knows while it goes through a text. -/
structure Pass where
  /-- The offsets of the line ends so far, in their order. -/
  lineEnds : List Nat := []
  /-- The opening braces that are closed, each with the brace that closes it. -/
  pairs : List (Nat × Nat) := []
  /-- The opening braces that are not closed yet, the last one first. -/
  opened : List Nat := []

/-- The byte that ends a line. -/
abbrev lineEnd : UInt8 := '\n'.toUInt8

/-- The byte of an opening brace. -/
abbrev openingBrace : UInt8 := '\x7b'.toUInt8

/-- The byte of a closing brace. -/
abbrev closingBrace : UInt8 := '\x7d'.toUInt8

/-- What is known after the byte at an offset. A closing brace closes the brace opened last, if one
is open. -/
def Pass.next (pass : Pass) (byte : UInt8) (offset : Nat) : Pass :=
  if byte = lineEnd then { pass with lineEnds := pass.lineEnds ++ [offset] }
  else if byte = openingBrace then { pass with opened := offset :: pass.opened }
  else if byte = closingBrace then
    match pass.opened with
    | [] => pass
    | start :: opened => { pass with pairs := (start, offset) :: pass.pairs, opened := opened }
  else pass

/-- What is known after all bytes. -/
def Pass.ofBytes (bytes : List UInt8) : Pass :=
  bytes.zipIdx.foldl (fun pass entry => pass.next entry.1 entry.2) {}

/-- The index of a text that is given by its bytes. -/
def ofBytes (bytes : List UInt8) : Index where
  lineEnds := (Pass.ofBytes bytes).lineEnds
  pairs := (Pass.ofBytes bytes).pairs
  length := bytes.length

/-- The index of a text. -/
def ofText (text : List Char) : Index := ofBytes (Utf8.encode text)

/-- The line of an offset: the number of line ends before the first one that is not in front of
it. -/
def line (offset : Nat) (x : Index) : Nat := (x.lineEnds.takeWhile (· < offset)).length

/-- The offset at which the brace at an offset is closed, or the end of the text if it is not. -/
def closing (opening : Nat) (x : Index) : Nat := (x.pairs.lookup opening).getD x.length

/-! ## What the program knows -/

/-- One more byte is one more step of the pass. -/
lemma Pass.ofBytes_concat (bytes : List UInt8) (byte : UInt8) :
    Pass.ofBytes (bytes ++ [byte]) = (Pass.ofBytes bytes).next byte bytes.length := by
  rw [ofBytes, List.zipIdx_append, List.foldl_append, List.zipIdx_singleton, Nat.zero_add]
  rfl

/-- What the stack and the pairs say is true of the bytes so far. -/
structure Braces (bytes : List UInt8) (opened : List Nat) (pairs : List (Nat × Nat)) : Prop where
  /-- Braces on the stack are opening ones, and as many are open behind each of them as stand above
  it. -/
  stacked : ∀ (i start : Nat), opened[i]? = some start → bytes[start]? = some openingBrace
    ∧ (bytes.drop (start + 1)).count openingBrace
      = (bytes.drop (start + 1)).count closingBrace + i
  /-- They are not closed. -/
  unclosed : ∀ start ∈ opened, ∀ stop, ¬ Closes openingBrace closingBrace bytes start stop
  /-- Pairs are closed where they are said to be. -/
  paired : ∀ start stop, pairs.lookup start = some stop →
    IsLeast {p | Closes openingBrace closingBrace bytes start p} stop
  /-- Every opening brace is on the stack or has been closed. -/
  complete : ∀ start : Nat, bytes[start]? = some openingBrace →
    start ∈ opened ∨ (pairs.lookup start).isSome = true

namespace Braces

variable {bytes : List UInt8} {opened : List Nat} {pairs : List (Nat × Nat)} {byte : UInt8}
  {start : Nat}

/-- A brace on the stack stands among the bytes so far. -/
lemma succ_le_length (h : Braces bytes opened pairs) (hmem : start ∈ opened) :
    start + 1 ≤ bytes.length := by
  obtain ⟨i, hi⟩ := List.getElem?_of_mem hmem
  exact (List.getElem?_eq_some_iff.1 (h.stacked i start hi).1).1

/-- A byte that neither opens nor closes anything.

**Proof sketch.** Field by field. The byte changes neither count, so what is open stays open and
nothing is closed; a closing brace is such a byte only where the stack is empty. -/
lemma other (h : Braces bytes opened pairs) (hopening : byte ≠ openingBrace)
    (hclosing : byte = closingBrace → opened = []) : Braces (bytes ++ [byte]) opened pairs := by
  have hplain : ∀ start ∈ opened, byte ≠ closingBrace := by
    intro start hmem hbyte
    rw [hclosing hbyte] at hmem
    cases hmem
  constructor
  · intro i start hi
    have hmem := List.mem_of_getElem? hi
    have hlt := h.succ_le_length hmem
    obtain ⟨hbrace, hcount⟩ := h.stacked i start hi
    refine ⟨by rwa [List.getElem?_append_left hlt], ?_⟩
    rw [List.drop_append_of_le_length hlt, List.count_append, List.count_append,
      List.count_singleton, List.count_singleton, if_neg (by simpa using hopening),
      if_neg (by simpa using hplain start hmem)]
    exact hcount
  · intro start hmem stop hcloses
    rcases closes_concat.1 hcloses with hold | ⟨-, -, hbyte, -⟩
    · exact h.unclosed start hmem stop hold
    · exact hplain start hmem hbyte
  · exact fun start stop hpair => isLeast_closes_concat (h.paired start stop hpair)
  · intro start hbrace
    rcases getElem?_concat_eq_some hbrace with hold | ⟨-, hbyte⟩
    · exact h.complete start hold
    · exact absurd hbyte hopening

/-- An opening brace comes to stand on the stack.

**Proof sketch.** Field by field. Behind the new brace nothing stands yet, and behind the others one
brace more is open, which stands above them on the stack. The byte closes nothing. -/
lemma opens (h : Braces bytes opened pairs) :
    Braces (bytes ++ [openingBrace]) (bytes.length :: opened) pairs := by
  constructor
  -- the stack
  · intro i start hi
    cases i with
    | zero =>
      obtain rfl : bytes.length = start := by simpa using hi
      refine ⟨List.getElem?_concat_length, ?_⟩
      rw [List.drop_eq_nil_of_le (by simp)]
      rfl
    | succ i =>
      rw [List.getElem?_cons_succ] at hi
      have hlt := h.succ_le_length (List.mem_of_getElem? hi)
      obtain ⟨hbrace, hcount⟩ := h.stacked i start hi
      refine ⟨by rwa [List.getElem?_append_left hlt], ?_⟩
      rw [List.drop_append_of_le_length hlt, List.count_append, List.count_append,
        List.count_singleton_self, List.count_singleton, if_neg (by decide), hcount]
      omega
  -- what is open still
  · intro start hmem stop hcloses
    rcases closes_concat.1 hcloses with hold | ⟨-, -, hbyte, -⟩
    · rcases List.mem_cons.1 hmem with rfl | hmem
      · exact absurd (hold.behind.trans hold.lt_length) (Nat.lt_irrefl _)
      · exact h.unclosed start hmem stop hold
    · exact absurd hbyte (by decide)
  -- what is closed
  · exact fun start stop hpair => isLeast_closes_concat (h.paired start stop hpair)
  -- all braces
  · intro start hbrace
    rcases getElem?_concat_eq_some hbrace with hold | ⟨rfl, -⟩
    · exact (h.complete start hold).imp_left (List.mem_cons_of_mem _)
    · exact .inl List.mem_cons_self

/-- A closing brace closes the brace on top of the stack.

**Proof sketch.** Behind the brace on top nothing is open, so it is closed here, and not before,
since it was still open. Behind the braces below it more is open, so they are not closed here, and
one less is open from now on. -/
lemma closes (h : Braces bytes (start :: opened) pairs) :
    Braces (bytes ++ [closingBrace]) opened ((start, bytes.length) :: pairs) := by
  have htop := h.stacked 0 start rfl
  have hcloses : Closes openingBrace closingBrace (bytes ++ [closingBrace]) start bytes.length :=
    closes_concat.2 (.inr ⟨rfl, h.succ_le_length List.mem_cons_self, rfl, htop.2⟩)
  constructor
  -- the stack
  · intro i below hi
    have hlt := h.succ_le_length (List.mem_cons_of_mem start (List.mem_of_getElem? hi))
    obtain ⟨hbrace, hcount⟩ := h.stacked (i + 1) below hi
    refine ⟨by rwa [List.getElem?_append_left hlt], ?_⟩
    rw [List.drop_append_of_le_length hlt, List.count_append, List.count_append,
      List.count_singleton_self, List.count_singleton, if_neg (by decide), hcount]
    omega
  -- what is open still
  · intro below hmem stop hbelow
    obtain ⟨i, hi⟩ := List.getElem?_of_mem hmem
    rcases closes_concat.1 hbelow with hold | ⟨-, -, -, hbalanced⟩
    · exact h.unclosed below (List.mem_cons_of_mem start hmem) stop hold
    · have hcount := (h.stacked (i + 1) below hi).2
      omega
  -- what is closed
  · intro start' stop hpair
    rw [List.lookup_cons] at hpair
    split at hpair
    · next hsame =>
      obtain rfl := Option.some.inj hpair
      obtain rfl := beq_iff_eq.1 hsame
      refine ⟨hcloses, fun p hp => ?_⟩
      rcases closes_concat.1 hp with hold | ⟨rfl, -⟩
      · exact absurd hold (h.unclosed start' List.mem_cons_self p)
      · exact Nat.le_refl _
    · exact isLeast_closes_concat (h.paired start' stop hpair)
  -- all braces
  · intro start' hbrace
    rw [List.lookup_cons]
    split
    · exact .inr rfl
    · next hother =>
      rcases getElem?_concat_eq_some hbrace with hold | ⟨-, hbyte⟩
      · refine (h.complete start' hold).imp_left fun hmem => ?_
        exact (List.mem_cons.1 hmem).resolve_left (beq_eq_false_iff_ne.1 hother)
      · exact absurd hbyte (by decide)

end Braces

/-- The line ends are in their order, and counted right in front of every offset. -/
structure LineEnds (bytes : List UInt8) (ends : List Nat) : Prop where
  /-- They are in their order, and all of them lie within the text. -/
  sorted : (ends ++ [bytes.length]).Pairwise (· < ·)
  /-- In front of every offset there are as many as line ends in front of it. -/
  count : ∀ offset, ends.countP (· < offset) = (bytes.take offset).count lineEnd

namespace LineEnds

variable {bytes : List UInt8} {ends : List Nat} {byte : UInt8}

/-- One more byte lies in front of the offsets behind it. -/
lemma count_take_concat (bytes : List UInt8) (byte : UInt8) (offset : Nat) :
    ((bytes ++ [byte]).take offset).count lineEnd = (bytes.take offset).count lineEnd
      + if bytes.length < offset ∧ byte = lineEnd then 1 else 0 := by
  rw [List.take_append, List.count_append]
  congr 1
  rcases Nat.lt_or_ge bytes.length offset with hlt | hge
  · rw [List.take_of_length_le (by simpa using Nat.le_sub_of_add_le' hlt), List.count_singleton]
    simp [hlt]
  · rw [Nat.sub_eq_zero_of_le hge, List.take_zero, if_neg fun h => Nat.not_lt_of_le hge h.1]
    rfl

/-- A line end counts in front of the offsets behind it. -/
lemma concat (h : LineEnds bytes ends) :
    LineEnds (bytes ++ [lineEnd]) (ends ++ [bytes.length]) := by
  constructor
  · refine List.pairwise_append.2 ⟨h.sorted, List.pairwise_singleton _ _, fun n hn last hlast => ?_⟩
    obtain rfl := List.mem_singleton.1 hlast
    rw [List.length_append, List.length_singleton]
    rcases List.mem_append.1 hn with hn | hn
    · exact Nat.lt_succ_of_lt ((List.pairwise_append.1 h.sorted).2.2 n hn _ List.mem_cons_self)
    · rw [List.mem_singleton.1 hn]
      exact Nat.lt_succ_self _
  · intro offset
    rw [count_take_concat, List.countP_append, h.count]
    simp

/-- Any other byte counts nowhere. -/
lemma other (h : LineEnds bytes ends) (hbyte : byte ≠ lineEnd) :
    LineEnds (bytes ++ [byte]) ends := by
  constructor
  · obtain ⟨hends, -, hlast⟩ := List.pairwise_append.1 h.sorted
    refine List.pairwise_append.2 ⟨hends, List.pairwise_singleton _ _, fun n hn last hlast' => ?_⟩
    obtain rfl := List.mem_singleton.1 hlast'
    rw [List.length_append, List.length_singleton]
    exact Nat.lt_succ_of_lt (hlast n hn _ List.mem_cons_self)
  · intro offset
    rw [count_take_concat, if_neg fun hend => hbyte hend.2, Nat.add_zero, h.count]

/-- Numbers in their order stand in front of a bound as long as they are less. -/
lemma length_takeWhile_lt {l : List Nat} (h : l.Pairwise (· < ·)) (bound : Nat) :
    (l.takeWhile (· < bound)).length = l.countP (· < bound) := by
  induction l with
  | nil => rfl
  | cons n l ih =>
    obtain ⟨hfirst, hrest⟩ := List.pairwise_cons.1 h
    rcases Nat.lt_or_ge n bound with hn | hn
    · rw [List.takeWhile_cons_of_pos (by simpa using hn), List.length_cons, ih hrest,
        List.countP_cons_of_pos (by simpa using hn)]
    · rw [List.takeWhile_cons_of_neg (by simpa using hn), List.length_nil, eq_comm,
        List.countP_eq_zero]
      intro m hm
      rcases List.mem_cons.1 hm with rfl | hm
      · simpa using hn
      · simpa using hn.trans (hfirst m hm).le

end LineEnds

/-- What is known after some bytes is true of them. -/
structure Pass.Sound (bytes : List UInt8) (pass : Pass) : Prop where
  /-- What is known of braces. -/
  braces : Braces bytes pass.opened pass.pairs
  /-- What is known of line ends. -/
  lineEnds : LineEnds bytes pass.lineEnds

/-- **Each byte keeps what the stack and the pairs say**, and what the line ends say.

**Proof sketch.** By the byte: a line end, an opening brace, a closing brace with or without
something on the stack, or any other byte. Each of them keeps what is said of braces and of line
ends. -/
theorem Pass.Sound.next {bytes : List UInt8} {pass : Pass} (h : pass.Sound bytes) (byte : UInt8) :
    (pass.next byte bytes.length).Sound (bytes ++ [byte]) := by
  rw [Pass.next]
  split
  · next hbyte =>
    subst hbyte
    exact ⟨h.braces.other (by decide) (fun hclosing => absurd hclosing (by decide)),
      h.lineEnds.concat⟩
  · next hend =>
    have hends := h.lineEnds.other hend
    split
    · next hbyte =>
      subst hbyte
      exact ⟨h.braces.opens, hends⟩
    · next hopening =>
      split
      · next hbyte =>
        subst hbyte
        have hbraces := h.braces
        cases hopened : pass.opened with
        | nil => exact ⟨hbraces.other hopening fun _ => hopened, hends⟩
        | cons start opened =>
          rw [hopened] at hbraces
          exact ⟨hbraces.closes, hends⟩
      · next hclosing =>
        exact ⟨h.braces.other hopening fun hbyte => absurd hbyte hclosing, hends⟩

/-- What is known after all bytes is true of them. -/
theorem Pass.sound_ofBytes (bytes : List UInt8) : (Pass.ofBytes bytes).Sound bytes := by
  induction bytes using List.reverseRecOn with
  | nil =>
    refine ⟨⟨?_, ?_, ?_, ?_⟩, ⟨List.pairwise_singleton _ _, fun offset => by simp [ofBytes]⟩⟩
    · exact fun i start hi => by simp [ofBytes] at hi
    · exact fun start hmem => by simp [ofBytes] at hmem
    · exact fun start stop hpair => by simp [ofBytes] at hpair
    · exact fun start hbrace => by simp at hbrace
  | append_singleton bytes byte ih =>
    rw [ofBytes_concat]
    exact ih.next byte

/-! ## What the program answers -/

variable {bytes : List UInt8} {start : Nat}

/-- An opening brace is closed where the index says. -/
theorem closedAt_closing (h : bytes[start]? = some openingBrace) :
    ClosedAt openingBrace closingBrace bytes start ((ofBytes bytes).closing start) := by
  have hbraces := (Pass.sound_ofBytes bytes).braces
  rw [closing, ofBytes]
  cases hpair : (Pass.ofBytes bytes).pairs.lookup start with
  | some stop => exact .first (hbraces.paired start stop hpair)
  | none =>
    rcases hbraces.complete start h with hmem | hsome
    · exact .never (hbraces.unclosed start hmem)
    · rw [hpair] at hsome
      cases hsome

/-- The line of an offset is the number of line ends in front of it. -/
theorem line_ofBytes (bytes : List UInt8) (offset : Nat) :
    (ofBytes bytes).line offset = (bytes.take offset).count lineEnd := by
  have hends := (Pass.sound_ofBytes bytes).lineEnds
  rw [line, ofBytes, LineEnds.length_takeWhile_lt (List.pairwise_append.1 hends.sorted).1,
    hends.count]

end Index

/-! ## Places of a text -/

namespace Place

variable {text : List Char}

/-- Behind an opening brace, where `depth` more are open, the brace that closes all of them is the
first one up to which as many braces are closed as are open by then.

**Proof sketch.** Induction on the text. Its first character is no such brace, and so the first one
is the first one of the rest, where one more or one less is open; or it closes the last one that is
open, and there is none in front of it. -/
lemma beforeClosing?_eq_some_iff {depth n : Nat} :
    beforeClosing? depth text = some n ↔ IsLeast {k | text[k]? = some '\x7d'
      ∧ (text.take k).count '\x7b' + depth = (text.take k).count '\x7d'} n := by
  fun_induction beforeClosing? depth text generalizing n with
  | case1 => simp [IsLeast]
  | case2 depth text ih =>
    simp only [Option.map_eq_some_iff, ih]
    refine (Checked.isLeast_add_iff (fun k hk => ?_) fun k => ?_).symm
    · simp [Nat.lt_one_iff.1 hk]
    · have hcount : ('\x7b' :: text.take k).count '\x7d' = (text.take k).count '\x7d' :=
        List.count_cons_of_ne (by decide)
      simp only [Set.mem_ofPred_eq, List.getElem?_cons_succ, List.take_succ_cons,
        List.count_cons_self, hcount, Nat.add_assoc, Nat.add_comm 1 depth]
  | case3 text hne =>
    have hzero : IsLeast {k | ('\x7d' :: text)[k]? = some '\x7d'
        ∧ (('\x7d' :: text).take k).count '\x7b' + 0 = (('\x7d' :: text).take k).count '\x7d'} 0 :=
      ⟨⟨rfl, rfl⟩, fun k _ => Nat.zero_le k⟩
    rw [Option.some.injEq]
    exact ⟨fun h => h ▸ hzero, hzero.unique⟩
  | case4 text depth hne ih =>
    simp only [Option.map_eq_some_iff, ih]
    refine (Checked.isLeast_add_iff (fun k hk => ?_) fun k => ?_).symm
    · simp [Nat.lt_one_iff.1 hk]
    · have hcount : ('\x7d' :: text.take k).count '\x7b' = (text.take k).count '\x7b' :=
        List.count_cons_of_ne (by decide)
      simp only [Set.mem_ofPred_eq, List.getElem?_cons_succ, List.take_succ_cons,
        List.count_cons_self, hcount, Nat.succ_eq_add_one, ← Nat.add_assoc,
        Nat.add_right_cancel_iff]
  | case5 depth c text hopening hclosing ih =>
    simp only [Option.map_eq_some_iff, ih]
    refine (Checked.isLeast_add_iff (fun k hk => ?_) fun k => ?_).symm
    · simp [Nat.lt_one_iff.1 hk, hclosing]
    · simp only [Set.mem_ofPred_eq, List.getElem?_cons_succ, List.take_succ_cons,
        List.count_cons_of_ne hopening, List.count_cons_of_ne hclosing]

/-- **Places of a text are closed where counting says.**

**Proof sketch.** A place closes the brace just if the characters in between are balanced and a
closing brace follows them, which is what `beforeClosing?` looks for first
(`beforeClosing?_eq_some_iff`). If it finds none, nothing closes the brace. -/
theorem closedAt_closing (text : List Char) (opening : Nat) :
    ClosedAt '\x7b' '\x7d' text opening (closing text opening) := by
  have hcloses : ∀ k, Closes '\x7b' '\x7d' text opening (k + (opening + 1))
      ↔ (text.drop (opening + 1))[k]? = some '\x7d'
        ∧ ((text.drop (opening + 1)).take k).count '\x7b' + 0
          = ((text.drop (opening + 1)).take k).count '\x7d' := by
    intro k
    have hbetween : (text.take (k + (opening + 1))).drop (opening + 1)
        = (text.drop (opening + 1)).take k := by
      rw [List.drop_take, Nat.add_sub_cancel_right]
    rw [List.getElem?_drop, Nat.add_comm (opening + 1) k, Nat.add_zero, ← hbetween]
    exact ⟨fun h => ⟨h.closes, h.balanced⟩, fun h => ⟨by omega, h.1, h.2⟩⟩
  have hleast : ∀ n, IsLeast {p | Closes '\x7b' '\x7d' text opening p} n
      ↔ ∃ k, beforeClosing? 0 (text.drop (opening + 1)) = some k ∧ k + (opening + 1) = n := by
    intro n
    simp only [beforeClosing?_eq_some_iff]
    exact Checked.isLeast_add_iff
      (fun k hk h => Nat.not_lt_of_le (Nat.le_of_lt_succ hk) h.behind) hcloses
  rw [closing]
  cases hn : beforeClosing? 0 (text.drop (opening + 1)) with
  | some n => exact .first ((hleast _).2 ⟨n, hn, Nat.add_comm _ _⟩)
  | none =>
    refine .never fun p hp => ?_
    obtain ⟨first, hfirst⟩ := Checked.exists_isLeast ⟨p, hp⟩
    obtain ⟨k, hk, -⟩ := (hleast first).1 hfirst
    rw [hn] at hk
    cases hk

/-! ### Places in bytes -/

/-- The offset behind the last place is the number of bytes. -/
lemma offset_eq_length (text : List Char) :
    offset text text.length = (Utf8.encode text).length := by
  rw [offset, List.take_length, Utf8.length_encode]

/-- Between two places of a text there are the bytes of what stands between them. -/
lemma drop_take_encode {start stop : Nat} (h : start ≤ stop) (text : List Char) :
    ((Utf8.encode text).take (offset text stop)).drop (offset text start)
      = Utf8.encode ((text.take stop).drop start) := by
  have hstart : offset text start = byteLength ((text.take stop).take start) := by
    rw [offset, List.take_take, Nat.min_eq_left h]
  have hstop : (Utf8.encode text).take (offset text stop) = Utf8.encode (text.take stop) :=
    Utf8.take_encode text stop
  rw [hstop, hstart, Utf8.drop_encode]

/-- Among the bytes of a text, a brace is closed by the braces that close it in the text.

**Proof sketch.** A brace takes one byte, and no byte of another character is a brace. So braces
stand at offsets of places, and between two of them there are as many braces in bytes as in
characters (`count_encode`). -/
lemma closes_encode_iff {start offset' : Nat} (h : text[start]? = some '\x7b') :
    Closes Index.openingBrace Index.closingBrace (Utf8.encode text) (offset text start) offset'
      ↔ ∃ stop, Closes '\x7b' '\x7d' text start stop ∧ offset text stop = offset' := by
  have hsucc : offset text (start + 1) = offset text start + 1 := offset_succ h
  have hbalanced : ∀ stop, start < stop →
      ((((Utf8.encode text).take (offset text stop)).drop (offset text start + 1)).count
          Index.openingBrace
        = (((Utf8.encode text).take (offset text stop)).drop (offset text start + 1)).count
          Index.closingBrace
      ↔ ((text.take stop).drop (start + 1)).count '\x7b'
        = ((text.take stop).drop (start + 1)).count '\x7d') := by
    intro stop hstop
    rw [← hsucc, drop_take_encode hstop, Utf8.count_encode (by decide),
      Utf8.count_encode (by decide)]
  constructor
  · rintro ⟨hbehind, hcloses, hcount⟩
    obtain ⟨stop, rfl, hstop⟩ := (Utf8.getElem?_encode_iff (by decide)).1 hcloses
    have hlt : start < stop :=
      (offset_lt_iff (List.getElem?_eq_some_iff.1 hstop).1.le).1 hbehind
    exact ⟨stop, ⟨hlt, hstop, (hbalanced stop hlt).1 hcount⟩, rfl⟩
  · rintro ⟨stop, ⟨hbehind, hcloses, hcount⟩, rfl⟩
    exact ⟨(offset_lt_iff (List.getElem?_eq_some_iff.1 hcloses).1.le).2 hbehind,
      (Utf8.getElem?_encode_iff (by decide)).2 ⟨stop, rfl, hcloses⟩,
      (hbalanced stop hbehind).2 hcount⟩

/-- Among the bytes of a text, a brace is closed where it is closed in the text. -/
lemma closedAt_encode {start stop : Nat} (h : text[start]? = some '\x7b')
    (hclosed : ClosedAt '\x7b' '\x7d' text start stop) :
    ClosedAt Index.openingBrace Index.closingBrace (Utf8.encode text) (offset text start)
      (offset text stop) := by
  cases hclosed with
  | first hleast =>
    refine .first ⟨(closes_encode_iff h).2 ⟨stop, hleast.1, rfl⟩, fun p hp => ?_⟩
    obtain ⟨stop', hstop', rfl⟩ := (closes_encode_iff h).1 hp
    exact offset_mono text (hleast.2 hstop')
  | never hnone =>
    rw [offset_eq_length]
    refine .never fun p hp => ?_
    obtain ⟨stop', hstop', -⟩ := (closes_encode_iff h).1 hp
    exact hnone stop' hstop'

end Place

namespace Index

variable {text : List Char}

/-- The index answers for places as the readers of this library do. -/
lemma closing_offset {start : Nat} (h : text[start]? = some '\x7b') :
    (ofText text).closing (Place.offset text start)
      = Place.offset text (Place.closing text start) :=
  (closedAt_closing ((Utf8.getElem?_encode_iff (by decide)).2 ⟨start, rfl, h⟩)).unique
    (Place.closedAt_encode h (Place.closedAt_closing text start))

/-- The line of the offset of a place is the line of the place. -/
lemma line_offset (text : List Char) (place : Nat) :
    (ofText text).line (Place.offset text place) = Place.line text place := by
  rw [ofText, line_ofBytes, Place.offset, Utf8.take_encode, Utf8.count_encode (by decide)]
  rfl

/-- A brace that stands between an opening brace and the place where that is closed is closed there
at the latest.

**Proof sketch.** Both braces stand at places of the text, so the claim is one about places. The
inner brace stands in front of the closing one or behind it, but not at it, as it is an opening one.
-/
lemma closing_lt_or_le {start inner : Nat}
    (hstart : (Utf8.encode text)[start]? = some openingBrace)
    (hinner : (Utf8.encode text)[inner]? = some openingBrace) (hlt : start < inner) :
    (ofText text).closing start < inner
      ∨ (ofText text).closing inner ≤ (ofText text).closing start := by
  obtain ⟨place, rfl, hplace⟩ := (Utf8.getElem?_encode_iff (by decide)).1 hstart
  obtain ⟨place', rfl, hplace'⟩ := (Utf8.getElem?_encode_iff (by decide)).1 hinner
  have hlength := (List.getElem?_eq_some_iff.1 hplace').1
  have hless : place < place' := (Place.offset_lt_iff hlength.le).1 hlt
  change (ofText text).closing (Place.offset text place) < Place.offset text place'
    ∨ (ofText text).closing (Place.offset text place')
      ≤ (ofText text).closing (Place.offset text place)
  rw [closing_offset hplace, closing_offset hplace', Place.offset_lt_iff hlength.le]
  rcases Nat.lt_trichotomy (Place.closing text place) place' with hbefore | hsame | hbehind
  · exact .inl hbefore
  · -- no opening brace stands where one is closed
    have hclosed := Place.closedAt_closing text place
    rw [hsame] at hclosed
    cases hclosed with
    | first hleast =>
      have hcloses := hleast.1.closes
      rw [hplace'] at hcloses
      exact absurd hcloses (by decide)
    | never => exact absurd hlength (Nat.lt_irrefl _)
  · exact .inr (Place.offset_mono text (Place.closing_le hplace' hless hbehind))

/-- **The program answers what counting says.** Among the bytes of any text, an opening brace is
closed at the first closing brace behind it up to which as many braces are opened as are closed, and
at the end of the text if there is none, whatever braces in front of it close nothing. A brace
opened before another one is closed in front of it or not before it. The line of an offset is the
number of line ends in front of it. The readers of this library, which count in characters, find the
same places and lines.

**Proof sketch.** What is known after each byte is true of the bytes so far (`Pass.Sound.next`), and
so of all bytes in the end. A character of ASCII is one byte and no other character has such a byte,
so that braces are counted in bytes as in characters, and braces in characters are nested. -/
theorem ofText_faithful (text : List Char) :
    (∀ start : Nat, (Utf8.encode text)[start]? = some openingBrace →
        ClosedAt openingBrace closingBrace (Utf8.encode text) start
          ((ofText text).closing start))
      ∧ (∀ start inner : Nat, (Utf8.encode text)[start]? = some openingBrace →
        (Utf8.encode text)[inner]? = some openingBrace → start < inner →
        (ofText text).closing start < inner
          ∨ (ofText text).closing inner ≤ (ofText text).closing start)
      ∧ (∀ offset, (ofText text).line offset = ((Utf8.encode text).take offset).count lineEnd)
      ∧ (∀ place : Nat, text[place]? = some '\x7b' →
        (ofText text).closing (Place.offset text place)
          = Place.offset text (Place.closing text place))
      ∧ ∀ place, (ofText text).line (Place.offset text place) = Place.line text place :=
  ⟨fun _ => closedAt_closing, fun _ _ => closing_lt_or_le, line_ofBytes _,
    fun _ => closing_offset, line_offset text⟩

/-- A brace that closes nothing, a character of two bytes, and two braces that are never closed
around a pair and a line end. -/
def unbalanced : List Char := "\x7dé\x7ba\x7b\x7d\n\x7b".toList

/-- The statement at a text in which braces are left open, and at an offset within a character of
two bytes.

**Proof sketch.** All offsets of the text are computed. -/
theorem ofText_faithful_unbalanced :
    (Utf8.encode unbalanced)[3]? = some openingBrace
      ∧ (Utf8.encode unbalanced)[5]? = some openingBrace ∧ 3 < 5
      ∧ unbalanced[3]? = some 'a' ∧ unbalanced[4]? = some '\x7b'
      ∧ ClosedAt openingBrace closingBrace (Utf8.encode unbalanced) 3 9
      ∧ (9 < 5 ∨ 6 ≤ 9)
      ∧ (ofText unbalanced).closing (Place.offset unbalanced 4)
        = Place.offset unbalanced (Place.closing unbalanced 4) := by
  have hclosed := (ofText_faithful unbalanced).1 3 (by decide)
  have hnested := (ofText_faithful unbalanced).2.1 3 5 (by decide) (by decide) (by decide)
  have hplace := (ofText_faithful unbalanced).2.2.2.1 4 (by decide)
  have houter : (ofText unbalanced).closing 3 = 9 := by decide
  have hinner : (ofText unbalanced).closing 5 = 6 := by decide
  rw [houter] at hclosed
  rw [houter, hinner] at hnested
  exact ⟨by decide, by decide, by decide, by decide, by decide, hclosed, hnested, hplace⟩

end Index

end Outliner
