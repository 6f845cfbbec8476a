import Outliner.Cursor.Walk
import Outliner.Reader
import Outliner.Proofs.Order.Marks
import Outliner.Proofs.Reading
import Outliner.Proofs.Renumbering.Reading

set_option autoImplicit false

/-!
# Reading in the right order

What a reader finds comes in the right order if this holds step by step. Beside the order of what
one step finds, a step has to tell what may still come: `later s x` says that `x` may be found from
the state `s` on. A step must find nothing else, must leave no more to come than before it, and what
it finds must precede all that is still to come.

## Main definitions

* `Outliner.ComesInOrder` — what an outcome has found comes in the right order.

## Main results

* `Outliner.Cursor.walk_comesInOrder` — from one step to a walk.
* `Outliner.readLines_pairwise` — from one line to a source.
* `Outliner.readLines_precedes`, `Outliner.eachLine_precedes` — marks that name the line on which
  they are found come in the right order.
-/

namespace Outliner

variable {σ α : Type} {I : σ → Prop} {later : σ → α → Prop} {R : α → α → Prop}

/-- What is found from the state `s` on comes in the order `R`, and what may come after it is
known. -/
structure ComesInOrder (I : σ → Prop) (later : σ → α → Prop) (R : α → α → Prop) (s : σ)
    (outcome : σ × List α) : Prop where
  /-- The state that is carried on has the property `I`. -/
  state : I outcome.1
  /-- What is found could be expected. -/
  found : ∀ x ∈ outcome.2, later s x
  /-- What is still to come could be expected before. -/
  further : ∀ x, later outcome.1 x → later s x
  /-- What is found precedes all that is still to come. -/
  before : ∀ x ∈ outcome.2, ∀ y, later outcome.1 y → R x y
  /-- What is found stands in order. -/
  order : outcome.2.Pairwise R

namespace ComesInOrder

variable {s s' : σ}

/-- Finding nothing keeps the order, if what may be found later could be found before. -/
lemma silent (hs : I s') (hfurther : ∀ x, later s' x → later s x) :
    ComesInOrder I later R s (s', []) :=
  ⟨hs, List.forall_mem_nil _, hfurther, List.forall_mem_nil _, .nil⟩

/-- Staying in the same state without finding anything keeps the order. -/
lemma same (hs : I s) : ComesInOrder I later R s (s, []) := silent hs fun _ hx => hx

/-- Finding one thing keeps the order, if it may be found here and precedes what may be found later.
-/
lemma single {x : α} (hs : I s') (hx : later s x) (hfurther : ∀ y, later s' y → later s y)
    (hbefore : ∀ y, later s' y → R x y) : ComesInOrder I later R s (s', [x]) :=
  ⟨hs, List.forall_mem_singleton.2 hx, hfurther, List.forall_mem_singleton.2 hbefore,
    List.pairwise_singleton R x⟩

/-- Both ways of a case distinction keep the order if each of them does. -/
lemma ite {p : Prop} [Decidable p] {a b : σ × List α} (ha : p → ComesInOrder I later R s a)
    (hb : ¬p → ComesInOrder I later R s b) : ComesInOrder I later R s (if p then a else b) := by
  split
  · next h => exact ha h
  · next h => exact hb h

/-- What is found first precedes what is found later.

**Proof sketch.** What is found first stands before what may be found later, and this includes all
that is found next. -/
lemma append {first rest : σ × List α} (hfirst : ComesInOrder I later R s first)
    (hrest : ComesInOrder I later R first.1 rest) :
    ComesInOrder I later R s (rest.1, first.2 ++ rest.2) where
  state := hrest.state
  found := by
    intro x hx
    rcases List.mem_append.1 hx with hx | hx
    · exact hfirst.found x hx
    · exact hfirst.further x (hrest.found x hx)
  further := fun x hx => hfirst.further x (hrest.further x hx)
  before := by
    intro x hx y hy
    rcases List.mem_append.1 hx with hx | hx
    · exact hfirst.before x hx y (hrest.further y hy)
    · exact hrest.before x hx y hy
  order := List.pairwise_append.2
    ⟨hfirst.order, hrest.order, fun x hx y hy => hfirst.before x hx y (hrest.found y hy)⟩

end ComesInOrder

/-! ## Walks -/

namespace Cursor

variable {step : σ → Cursor → Char → Step σ α}

/-- What is found in a step comes in order. -/
def Step.ComesInOrder (I : σ → Prop) (later : σ → α → Prop) (R : α → α → Prop) (s : σ)
    (outcome : Step σ α) : Prop :=
  Outliner.ComesInOrder I later R s (outcome.state, outcome.found)

/-- A step of either kind keeps the order if each of them does. -/
lemma Step.ComesInOrder.ite {s : σ} {p : Prop} [Decidable p] {a b : Step σ α}
    (ha : p → a.ComesInOrder I later R s) (hb : ¬p → b.ComesInOrder I later R s) :
    (if p then a else b).ComesInOrder I later R s := by
  split
  · next h => exact ha h
  · next h => exact hb h

/-- **What comes in order step by step comes in order on a line.**

**Proof sketch.** Induction on the number of characters that are left. -/
theorem walk_comesInOrder (hstep : ∀ s c ch, I s → (step s c ch).ComesInOrder I later R s) {s : σ}
    (hs : I s) (c : Cursor) : Outliner.ComesInOrder I later R s (walk step s c) := by
  induction hn : c.after.length using Nat.strong_induction_on generalizing s c with
  | _ n ih =>
    rw [walk]
    split
    · exact .same hs
    · next ch _ =>
      have hhere : Outliner.ComesInOrder I later R s ((step s c ch).state, (step s c ch).found) :=
        hstep s c ch hs
      dsimp only
      split
      · next hmoves => exact hhere.append (ih _ (hn ▸ hmoves) hhere.state _ rfl)
      · exact hhere

end Cursor

/-! ## Lines -/

/-- **What comes in order line by line comes in order in a source**, where the state keeps its
property from line to line and a line leaves no more to come.

**Proof sketch.** Induction on the lines. -/
theorem readLines_pairwise (I : Nat → σ → Prop) (later : Nat → σ → α → Prop)
    {read : σ → Nat → List Char → σ × List α} (hstate : ∀ i s, I i s → I (i + 1) s)
    (hlater : ∀ i s, I i s → ∀ x, later (i + 1) s x → later i s x)
    (hread : ∀ s i text, I i s → ComesInOrder (I i) (later i) R s (read s i text)) {first : Nat}
    {s : σ} (hs : I first s) (lines : List (List Char)) :
    (readLines read first s lines).2.Pairwise R
      ∧ ∀ x ∈ (readLines read first s lines).2, later first s x := by
  induction lines generalizing first s with
  | nil => exact ⟨.nil, List.forall_mem_nil _⟩
  | cons line lines ih =>
    have hhere := hread s first line hs
    obtain ⟨horder, hfound⟩ := ih (hstate first _ hhere.state)
    have hfound : ∀ x ∈ (readLines read (first + 1) (read s first line).1 lines).2,
        later first (read s first line).1 x :=
      fun x hx => hlater first _ hhere.state x (hfound x hx)
    constructor
    · exact List.pairwise_append.2
        ⟨hhere.order, horder, fun x hx y hy => hhere.before x hx y (hfound y hy)⟩
    · intro x hx
      rcases List.mem_append.1 hx with hx | hx
      · exact hhere.found x hx
      · exact hhere.further x (hfound x hx)

/-! ## Marks of the line that is read -/

/-- All that the mark reports begins on the line. -/
def Mark.OnLine (line : Nat) (m : Mark) : Prop := m.All fun r => r.tag.line = line

/-- Marks that do not change when all lines are numbered alike name this number.

**Proof sketch.** Each mark is one that was renumbered, and what a renumbered mark reports stands on
the one line. -/
lemma Mark.onLine_of_renumber {found : List Mark} {line : Nat}
    (h : found = found.map (Mark.renumber fun _ => line)) : ∀ m ∈ found, m.OnLine line := by
  intro m hm r hr
  rw [h] at hm
  obtain ⟨m, -, rfl⟩ := List.mem_map.1 hm
  cases m with
  | leaf kind name l => rw [List.mem_singleton.1 hr]
  | atTop kind name l => rw [List.mem_singleton.1 hr]
  | once kind name l => rw [List.mem_singleton.1 hr]
  | enter header => rw [List.mem_singleton.1 hr]; rfl
  | leave => exact absurd hr List.not_mem_nil
  | forget => exact absurd hr List.not_mem_nil
  | method owner name l =>
    rcases List.mem_cons.1 hr with rfl | hr
    · rfl
    · rw [List.mem_singleton.1 hr]
  | qualified owner owned free name l =>
    rcases List.mem_cons.1 hr with rfl | hr
    · rfl
    · rw [List.mem_singleton.1 hr]

/-- **Marks that name the line on which they are found come in the right order.** -/
theorem readLines_precedes {read : σ → Nat → List Char → σ × List Mark} {entered : Kind → Prop}
    (hread : ∀ s i text, ∀ m ∈ (read s i text).2, m.OnLine i) (s : σ) (lines : List (List Char)) :
    (readLines read 0 s lines).2.Pairwise (Mark.Precedes entered) := by
  refine (readLines_pairwise (fun _ _ => True) (fun i _ m => m.All fun r => i ≤ r.tag.line)
    (fun _ _ _ => trivial) ?_ ?_ trivial lines).1
  · intro i s _ m hm r hr
    exact Nat.le_of_succ_le (hm r hr)
  · intro s i text _
    have hline := hread s i text
    refine ⟨trivial, fun m hm r hr => (hline m hm r hr).ge, fun m hm => hm, ?_, ?_⟩
    · intro m hm m' hm' r hr r' hr' _
      rw [hline m hm r hr]
      exact hm' r' hr'
    · refine List.pairwise_of_forall_mem_list fun m hm m' hm' r hr r' hr' _ => ?_
      rw [hline m hm r hr, hline m' hm' r' hr']

/-- What names the line on which it is found is found in the order of the lines. -/
lemma eachLine_pairwise (line : α → Nat) {read : Nat → List Char → List α}
    (hread : ∀ i text, ∀ x ∈ read i text, line x = i) (lines : List (List Char)) :
    (eachLine read lines).Pairwise fun x y => line x ≤ line y := by
  rw [eachLine_eq_readLines]
  refine (readLines_pairwise (fun _ _ => True) (fun i _ x => i ≤ line x) (fun _ _ _ => trivial)
    (fun _ _ _ _ hx => Nat.le_of_succ_le hx) (fun s i text _ => ?_) trivial lines).1
  have hline := hread i text
  refine ⟨trivial, fun x hx => (hline x hx).ge, fun _ hx => hx, fun x hx y hy => ?_, ?_⟩
  · rw [hline x hx]
    exact hy
  · refine List.pairwise_of_forall_mem_list fun x hx y hy => ?_
    rw [hline x hx, hline y hy]

/-- Marks of lines that are read independently come in the right order if they name their line. -/
theorem eachLine_precedes {read : Nat → List Char → List Mark} {entered : Kind → Prop}
    (hread : ∀ i text, ∀ m ∈ read i text, m.OnLine i) (lines : List (List Char)) :
    (eachLine read lines).Pairwise (Mark.Precedes entered) := by
  rw [eachLine_eq_readLines]
  exact readLines_precedes (fun _ i text => hread i text) () lines

end Outliner
