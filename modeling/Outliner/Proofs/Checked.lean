import Mathlib.Data.List.TakeWhile
import Mathlib.Data.Nat.Find
import Mathlib.Order.Bounds.Defs
import Outliner.Text.Word

set_option autoImplicit false

/-!
# Running with checks

The readers of this library cut texts between characters and count down to zero at most, so nothing
can go wrong in them. A program that keeps a text as its bytes may go wrong: it cuts the text at an
offset, which may lie behind its end or within a character; it takes one offset from another, which
may be larger; and it repeats a pass until nothing is left, which may never be. In this module these
operations check what they do, and stop the program where it goes wrong.

## Main definitions

* `Outliner.Checked.Fault`, `Outliner.Checked.Run` — what may go wrong, and the outcome of a
  program.
* `Outliner.Checked.sliceFrom`, `Outliner.Checked.sliceTo`, `Outliner.Checked.slice` — the parts of
  a text at byte offsets.
* `Outliner.Checked.minus` — the difference of two numbers.
* `Outliner.Checked.filter` — the elements that a program accepts.
* `Outliner.Checked.loop` — repeated passes, each of which leaves less to do.
* `Outliner.Checked.byteIndex?`, `Outliner.Checked.byteLastIndex?`, `Outliner.Checked.byteOffset?` —
  the byte offset at which a character of a class stands first or last, or a pattern first.

## Main results

* `Outliner.Checked.slice_append` — a text may be cut where two parts of it meet.
* `Outliner.Checked.sliceTo_byteIndex` — it may be cut in front of the first character of a class.
-/

namespace Outliner.Checked

/-! ## Programs -/

/-- What goes wrong. -/
inductive Fault where
  /-- A text is cut behind its end or within a character. -/
  | cut
  /-- A number is taken from a smaller one. -/
  | underflow
  /-- A pass leaves as much to do as there was before it. -/
  | standstill
deriving DecidableEq, Repr

/-- The outcome of a program. -/
abbrev Run : Type → Type := Except Fault

/-- What went well is handed on. -/
@[simp] lemma ok_bind {α β : Type} (a : α) (f : α → Run β) : ((.ok a : Run α) >>= f) = f a := rfl

/-- A value by itself goes well. -/
@[simp] lemma pure_eq_ok {α : Type} (a : α) : (pure a : Run α) = .ok a := rfl

/-- What went well is changed as a value. -/
@[simp] lemma map_ok {α β : Type} (f : α → β) (a : α) : f <$> (.ok a : Run α) = .ok (f a) := rfl

/-- The text before and after an offset. -/
def cut (text : List Char) (offset : Nat) : Run (List Char × List Char) :=
  match splitAtByte? offset text with
  | some parts => .ok parts
  | none => .error .cut

/-- The text from an offset on. -/
def sliceFrom (text : List Char) (offset : Nat) : Run (List Char) := Prod.snd <$> cut text offset

/-- The text up to an offset. -/
def sliceTo (text : List Char) (offset : Nat) : Run (List Char) := Prod.fst <$> cut text offset

/-- The text between two offsets. -/
def slice (text : List Char) (start stop : Nat) : Run (List Char) := do
  sliceFrom (← sliceTo text stop) start

/-- The difference of two numbers. -/
def minus (a b : Nat) : Run Nat := if b ≤ a then .ok (a - b) else .error .underflow

/-- The elements that a program accepts. -/
def filter {α : Type} (accepts : α → Run Bool) : List α → Run (List α)
  | [] => return []
  | a :: others => do
    let accepted ← accepts a
    let further ← filter accepts others
    return if accepted then a :: further else further

/-- If nothing goes wrong with any item, the items are selected. -/
lemma filter_eq {α : Type} {accepts : α → Run Bool} {p : α → Bool} (h : ∀ a, accepts a = .ok (p a))
    (l : List α) : filter accepts l = .ok (l.filter p) := by
  induction l with
  | nil => rfl
  | cons a l ih =>
    rw [filter, h, ok_bind, ih, ok_bind, List.filter_cons]
    rfl

/-- If nothing goes wrong with any item, the items are changed. -/
lemma mapM_eq {α β : Type} {run : α → Run β} {f : α → β} {l : List α}
    (h : ∀ a ∈ l, run a = .ok (f a)) : l.mapM run = .ok (l.map f) := by
  induction l with
  | nil => rfl
  | cons a l ih =>
    obtain ⟨ha, hl⟩ := List.forall_mem_cons.1 h
    rw [List.mapM_cons, ha, ok_bind, ih hl, ok_bind]
    rfl

/-- Repeats a pass until one gives a result, where `left` tells how much there is still to do. -/
def loop {σ ρ : Type} (left : σ → Nat) (pass : σ → Run (ρ ⊕ σ)) (s : σ) : Run ρ :=
  match pass s with
  | .error fault => .error fault
  | .ok (.inl result) => .ok result
  | .ok (.inr next) => if left next < left s then loop left pass next else .error .standstill
termination_by left s

section Loop

variable {σ ρ : Type} {left : σ → Nat} {pass : σ → Run (ρ ⊕ σ)} {s : σ}

/-- A loop is over with the result of a pass. -/
lemma loop_of_result {result : ρ} (h : pass s = .ok (.inl result)) :
    loop left pass s = .ok result := by
  rw [loop, h]

/-- A loop goes on with what a pass leaves, if less is left to do. -/
lemma loop_of_next {next : σ} (h : pass s = .ok (.inr next)) (hleft : left next < left s) :
    loop left pass s = loop left pass next := by
  rw [loop, h]
  exact if_pos hleft

/-- Where a pass does the same with more to do, the loop goes on as before.

**Proof sketch.** The pass is the same. If it comes to a result, so does the loop, and if it leaves
less to do than before, it leaves less than the larger measure as well. -/
lemma loop_of_le {s' : σ} {result : ρ} (hpass : pass s' = pass s) (hleft : left s ≤ left s')
    (h : loop left pass s = .ok result) : loop left pass s' = .ok result := by
  rw [loop] at h
  rw [loop, hpass]
  cases hs : pass s with
  | error fault => rwa [hs] at h
  | ok outcome =>
    rw [hs] at h
    cases outcome with
    | inl found => exact h
    | inr next =>
      change (if left next < left s then loop left pass next else .error .standstill) = _ at h
      change (if left next < left s' then loop left pass next else .error .standstill) = _
      split at h
      · next hless => rwa [if_pos (hless.trans_le hleft)]
      · cases h

end Loop

/-! ## Offsets -/

/-- The offset of the first character of a class. -/
def byteIndex? (p : Char → Bool) : List Char → Option Nat
  | [] => none
  | c :: text => if p c then some 0 else (byteIndex? p text).map (· + c.utf8Size)

/-- The offset of the last character of a class. -/
def byteLastIndex? (p : Char → Bool) : List Char → Option Nat
  | [] => none
  | c :: text =>
    match byteLastIndex? p text with
    | some offset => some (c.utf8Size + offset)
    | none => if p c then some 0 else none

/-- The offset of the first occurrence of a pattern. -/
def byteOffset? (pattern : List Char) : List Char → Option Nat
  | [] => if pattern.isEmpty then some 0 else none
  | c :: text =>
    if startsWith pattern (c :: text) then some 0
    else (byteOffset? pattern text).map (· + c.utf8Size)

/-- The empty text takes no bytes. -/
@[simp] lemma byteLength_nil : byteLength [] = 0 := rfl

/-- A character takes its bytes, and the rest of the text takes the others. -/
@[simp] lemma byteLength_cons (c : Char) (text : List Char) :
    byteLength (c :: text) = c.utf8Size + byteLength text := rfl

/-- A text takes bytes if it has characters. -/
lemma byteLength_pos_iff {text : List Char} : 0 < byteLength text ↔ text ≠ [] := by
  cases text with
  | nil => simp
  | cons c text =>
    have hc : 0 < c.utf8Size := c.utf8Size_pos
    simp only [byteLength_cons, ne_eq, reduceCtorEq, not_false_eq_true, iff_true]
    omega

/-- A text has no more characters than bytes. -/
lemma length_le_byteLength (text : List Char) : text.length ≤ byteLength text := by
  induction text with
  | nil => exact Nat.le_refl 0
  | cons c text ih =>
    have hc : 0 < c.utf8Size := c.utf8Size_pos
    rw [List.length_cons, byteLength_cons]
    omega

/-! ## Cutting where two parts meet -/

/-- A text is cut between its two parts. -/
lemma cut_append (a b : List Char) : cut (a ++ b) (byteLength a) = .ok (a, b) := by
  have hsplit : splitAtByte? (byteLength a) (a ++ b) = some (a, b) :=
    splitAtByte?_eq_some_iff.2 ⟨rfl, rfl⟩
  rw [cut, hsplit]

/-- Behind its first part a text has the second one. -/
lemma sliceFrom_append (a b : List Char) : sliceFrom (a ++ b) (byteLength a) = .ok b := by
  rw [sliceFrom, cut_append]
  rfl

/-- Behind its first character a text has the others. -/
lemma sliceFrom_cons (c : Char) (text : List Char) :
    sliceFrom (c :: text) c.utf8Size = .ok text :=
  sliceFrom_append [c] text

/-- Up to its second part a text has the first one. -/
lemma sliceTo_append (a b : List Char) : sliceTo (a ++ b) (byteLength a) = .ok a := by
  rw [sliceTo, cut_append]
  rfl

/-- Up to the end of a beginning a text has that beginning. -/
lemma sliceTo_of_isPrefix {a text : List Char} (h : a <+: text) :
    sliceTo text (byteLength a) = .ok a := by
  obtain ⟨b, rfl⟩ := h
  exact sliceTo_append a b

/-- Up to the end of the characters of a class at its front a text has these. -/
lemma sliceTo_takeWhile (p : Char → Bool) (text : List Char) :
    sliceTo text (byteLength (text.takeWhile p)) = .ok (text.takeWhile p) :=
  sliceTo_of_isPrefix (List.takeWhile_prefix p)

/-- Behind the characters of a class at its front a text has the others. -/
lemma sliceFrom_takeWhile (p : Char → Bool) (text : List Char) :
    sliceFrom text (byteLength (text.takeWhile p)) = .ok (text.dropWhile p) := by
  have hcut := sliceFrom_append (text.takeWhile p) (text.dropWhile p)
  rwa [List.takeWhile_append_dropWhile] at hcut

/-- **A text may be cut where two parts of it meet.** -/
theorem slice_append (a b c : List Char) :
    slice (a ++ b ++ c) (byteLength a) (byteLength a + byteLength b) = .ok b := by
  rw [slice, ← byteLength_append, sliceTo_append, ok_bind, sliceFrom_append]

/-- A character of two bytes is not cut in the middle. -/
example : slice ['é', 'a'] 1 3 = .error .cut := by decide

/-- What is not more can be taken away. -/
lemma minus_of_le {a b : Nat} (h : b ≤ a) : minus a b = .ok (a - b) := if_pos h

/-! ## Where characters and patterns stand -/

/-- The first character of a class stands behind the characters that are not of the class. -/
lemma byteIndex?_eq (p : Char → Bool) (text : List Char) :
    byteIndex? p text
      = if text.any p then some (byteLength (text.takeWhile (!p ·))) else none := by
  induction text with
  | nil => rfl
  | cons c text ih =>
    rw [byteIndex?, ih]
    cases hc : p c with
    | true => simp [hc]
    | false =>
      cases htext : text.any p with
      | true => simp [hc, htext, Nat.add_comm]
      | false => simp [hc, htext]

/-- Without a character of the class the text goes on to its end. -/
lemma byteIndex?_getD (p : Char → Bool) (text : List Char) :
    (byteIndex? p text).getD (byteLength text) = byteLength (text.takeWhile (!p ·)) := by
  rw [byteIndex?_eq]
  split
  · rfl
  · next hnone =>
    have hall : text.takeWhile (!p ·) = text := by
      rw [List.takeWhile_eq_self_iff]
      intro c hc
      have : p c ≠ true := fun h => hnone (List.any_eq_true.2 ⟨c, hc, h⟩)
      simpa using this
    rw [hall]
    rfl

/-- **A text may be cut in front of the first character of a class**, or at its end. -/
theorem sliceTo_byteIndex (p : Char → Bool) (text : List Char) :
    sliceTo text ((byteIndex? p text).getD (byteLength text)) = .ok (text.takeWhile (!p ·)) := by
  rw [byteIndex?_getD, sliceTo_takeWhile]

/-- If no last character of a class is found, there is none. -/
lemma byteLastIndex?_eq_none {p : Char → Bool} {text : List Char}
    (h : byteLastIndex? p text = none) : ∀ c ∈ text, p c = false := by
  induction text with
  | nil => exact fun c hc => absurd hc List.not_mem_nil
  | cons c text ih =>
    rw [byteLastIndex?] at h
    cases hoffset : byteLastIndex? p text with
    | some offset =>
      rw [hoffset] at h
      cases h
    | none =>
      rw [hoffset] at h
      cases hc : p c with
      | true => simp [hc] at h
      | false => exact List.forall_mem_cons.2 ⟨hc, ih hoffset⟩

/-- The text goes on behind the last character of a class with other characters only.

**Proof sketch.** Induction on the text. If a character of the class is found further on, it is the
last one of the whole text. If not, the first character is, provided that it belongs to the class.
-/
lemma byteLastIndex?_eq_some {p : Char → Bool} {text : List Char} {offset : Nat}
    (h : byteLastIndex? p text = some offset) :
    ∃ before c after, text = before ++ c :: after ∧ byteLength before = offset ∧ p c = true ∧
      ∀ d ∈ after, p d = false := by
  induction text generalizing offset with
  | nil => cases h
  | cons c text ih =>
    rw [byteLastIndex?] at h
    cases hoffset : byteLastIndex? p text with
    | some further =>
      rw [hoffset] at h
      obtain ⟨before, d, after, rfl, rfl, hd, hafter⟩ := ih hoffset
      exact ⟨c :: before, d, after, rfl, Option.some.inj h, hd, hafter⟩
    | none =>
      rw [hoffset] at h
      cases hc : p c with
      | false => simp [hc] at h
      | true =>
        have hzero : 0 = offset := by simpa [hc] using h
        exact ⟨[], c, text, rfl, hzero, hc, byteLastIndex?_eq_none hoffset⟩

/-- Where there are some numbers, one comes first. -/
lemma exists_isLeast {s : Set Nat} (h : s.Nonempty) : ∃ n, IsLeast s n := by
  classical
  exact ⟨Nat.find h, Nat.find_spec h, fun _ => Nat.find_min' h⟩

/-- What comes first of all, and not among the first places, comes first behind these. -/
lemma isLeast_add_iff {s t : Set Nat} {m n : Nat} (hfront : ∀ k < m, k ∉ s)
    (hbehind : ∀ k, k + m ∈ s ↔ k ∈ t) : IsLeast s n ↔ ∃ k, IsLeast t k ∧ k + m = n := by
  have hle : ∀ k ∈ s, m ≤ k := fun k hk => Nat.le_of_not_lt fun hlt => hfront k hlt hk
  constructor
  · rintro ⟨hn, hleast⟩
    obtain ⟨k, rfl⟩ := Nat.exists_eq_add_of_le' (hle n hn)
    exact ⟨k, ⟨(hbehind k).1 hn, fun j hj =>
      Nat.le_of_add_le_add_right (hleast ((hbehind j).2 hj))⟩, rfl⟩
  · rintro ⟨k, ⟨hk, hleast⟩, rfl⟩
    refine ⟨(hbehind k).2 hk, fun j hj => ?_⟩
    obtain ⟨i, rfl⟩ := Nat.exists_eq_add_of_le' (hle j hj)
    exact Nat.add_le_add_right (hleast ((hbehind i).1 hj)) m

/-- The offset of a pattern in bytes is what the characters before its first occurrence take.

**Proof sketch.** Induction on the text, with the two searches side by side. -/
lemma byteOffset?_eq (pattern text : List Char) :
    byteOffset? pattern text = (offset? pattern text).map fun n => byteLength (text.take n) := by
  induction text with
  | nil =>
    rw [byteOffset?, offset?]
    split
    · rfl
    · rfl
  | cons c text ih =>
    rw [byteOffset?, offset?, ih]
    split
    · rfl
    · rw [Option.map_map, Option.map_map]
      congr 1
      funext n
      simp [Nat.add_comm]

end Outliner.Checked
