import Outliner.Cursor.Walk
import Outliner.Reader
import Outliner.Proofs.Renumbering

set_option autoImplicit false

/-!
# Reading under other line numbers

A reader gets the number of a line from outside and passes it on. If one step under other numbers
does what it does under the old ones, up to the numbers in the state and in what it finds, so does a
walk along a line, and so does the reading of a whole source.

## Main results

* `Outliner.Cursor.walk_map` — from one step to a walk.
* `Outliner.readLines_map`, `Outliner.eachLine_map` — from one line to all lines.
* `Outliner.readLines_shift`, `Outliner.eachLine_shift` — empty lines before a source only add to
  the numbers of what is found.
-/

namespace Outliner

variable {σ τ α β : Type} {g : σ → τ} {h : α → β}

/-! ## Walks -/

namespace Cursor

/-- The outcome with the state, and all that was found, replaced by their images. -/
def Step.map (g : σ → τ) (h : α → β) (outcome : Step σ α) : Step τ β :=
  ⟨g outcome.state, outcome.cursor, outcome.found.map h⟩

/-- Two steps that are told apart by the same question correspond if they do so in both cases. -/
lemma Step.ite_map {p : Prop} [Decidable p] {a b : Step τ β} {a' b' : Step σ α}
    (ha : a = a'.map g h) (hb : b = b'.map g h) :
    (if p then a else b) = (if p then a' else b').map g h := by
  rw [ha, hb, apply_ite (Step.map g h)]

/-- **Walks correspond where their steps do.**

**Proof sketch.** Induction on the number of characters that are left; a step leaves as many in the
one walk as in the other. -/
theorem walk_map {step : σ → Cursor → Char → Step σ α} {step' : τ → Cursor → Char → Step τ β}
    (hstep : ∀ s c ch, step' (g s) c ch = (step s c ch).map g h) (s : σ) (c : Cursor) :
    walk step' (g s) c = Prod.map g (List.map h) (walk step s c) := by
  induction hn : c.after.length using Nat.strong_induction_on generalizing s c with
  | _ n ih =>
    rw [walk, walk]
    cases c.peek? with
    | none => rfl
    | some ch =>
      have hcursor : (step' (g s) c ch).cursor = (step s c ch).cursor := by
        rw [hstep]
        rfl
      have hstate : (step' (g s) c ch).state = g (step s c ch).state := by
        rw [hstep]
        rfl
      have hfound : (step' (g s) c ch).found = (step s c ch).found.map h := by
        rw [hstep]
        rfl
      simp only [hcursor, hstate, hfound]
      split
      · next hmoves =>
        rw [ih _ (hn ▸ hmoves) _ _ rfl]
        simp only [Prod.map, List.map_append]
      · rfl

end Cursor

/-! ## Lines -/

variable {f : Nat → Nat}

/-- **Sources read with a state correspond where their lines do**, if the other numbers count the
lines too. -/
theorem readLines_map {read : σ → Nat → List Char → σ × List α}
    {read' : τ → Nat → List Char → τ × List β} (hf : ∀ i, f (i + 1) = f i + 1)
    (hread : ∀ s i text, read' (g s) (f i) text = Prod.map g (List.map h) (read s i text))
    (first : Nat) (s : σ) (lines : List (List Char)) :
    readLines read' (f first) (g s) lines
      = Prod.map g (List.map h) (readLines read first s lines) := by
  induction lines generalizing first s with
  | nil => rfl
  | cons line lines ih =>
    have hrest := ih (first + 1) (read s first line).1
    rw [hf] at hrest
    simp only [readLines, hread, Prod.map, hrest, List.map_append]

/-- Sources read line by line correspond where their lines do. -/
theorem eachLine_map {read : Nat → List Char → List α} {read' : Nat → List Char → List β}
    (hread : ∀ i text, read' (f i) text = (read i text).map h) (lines : List (List Char)) :
    eachLine (fun i => read' (f i)) lines = (eachLine read lines).map h := by
  have hmap : (fun i text => read' (f i) text) = fun i text => (read i text).map h := by
    funext i text
    exact hread i text
  rw [eachLine, eachLine, List.map_flatten, hmap, List.mapIdx_eq_zipIdx_map,
    List.mapIdx_eq_zipIdx_map, List.map_map]
  rfl

/-- Lines before the source that change nothing and on which nothing is found only add to the
numbers of its lines. -/
lemma readLines_blank {read : σ → Nat → List Char → σ × List α} {s : σ}
    (hblank : ∀ i, read s i [] = (s, [])) (k first : Nat) (lines : List (List Char)) :
    readLines read first s (List.replicate k [] ++ lines)
      = readLines read (first + k) s lines := by
  induction k generalizing first with
  | zero => rfl
  | succ k ih =>
    rw [List.replicate_succ, List.cons_append, readLines, hblank, ih, Nat.add_assoc,
      Nat.add_comm 1 k]
    rfl

/-- Lines before the source on which nothing is found only add to the numbers of its lines. -/
lemma eachLine_blank {read : Nat → List Char → List α} (hblank : ∀ i, read i [] = []) (k : Nat)
    (lines : List (List Char)) :
    eachLine read (List.replicate k [] ++ lines) = eachLine (fun i => read (i + k)) lines := by
  have hbefore : ((List.replicate k []).mapIdx read).flatten = [] := by
    rw [List.flatten_eq_nil_iff]
    intro found hfound
    obtain ⟨i, hi, rfl⟩ := List.mem_mapIdx.1 hfound
    rw [List.getElem_replicate, hblank]
  rw [eachLine, List.mapIdx_append, List.flatten_append, hbefore, List.nil_append,
    List.length_replicate]
  rfl

/-! ## Empty lines before a source -/

/-- **Empty lines before a source that is read with a state only add to the numbers of what is
found**, where an empty line changes nothing and the state holds no numbers yet. -/
theorem readLines_shift {read : σ → Nat → List Char → σ × List α}
    (state : (Nat → Nat) → σ → σ) (found : (Nat → Nat) → α → α) {s : σ}
    (hstart : ∀ f, state f s = s) (hblank : ∀ i, read s i [] = (s, []))
    (hread : ∀ f s i text, read (state f s) (f i) text
      = Prod.map (state f) (List.map (found f)) (read s i text))
    (k : Nat) (lines : List (List Char)) :
    (readLines read 0 s (List.replicate k [] ++ lines)).2
      = (readLines read 0 s lines).2.map (found (· + k)) := by
  have hcount : ∀ i, i + 1 + k = i + k + 1 := by
    intro i
    omega
  have hlater := readLines_map (f := (· + k)) hcount (hread (· + k)) 0 s lines
  rw [hstart] at hlater
  rw [readLines_blank hblank, hlater]
  rfl

/-- Empty lines before a source that is read line by line only add to the numbers of what is found,
where nothing is found on an empty line. -/
theorem eachLine_shift {read : Nat → List Char → List α} (found : (Nat → Nat) → α → α)
    (hblank : ∀ i, read i [] = [])
    (hread : ∀ f i text, read (f i) text = (read i text).map (found f))
    (k : Nat) (lines : List (List Char)) :
    eachLine read (List.replicate k [] ++ lines)
      = (eachLine read lines).map (found (· + k)) := by
  rw [eachLine_blank hblank]
  exact eachLine_map (f := (· + k)) (hread (· + k)) lines

end Outliner
