import Outliner.Cursor.Walk
import Outliner.Reader
import Outliner.Proofs.Excerpt
import Outliner.Proofs.Filing

set_option autoImplicit false

/-!
# What is read off lines

A mark is read off a line, at a cursor, from a state that was carried there. To know of all marks of
a source that they report elements of the lines they name, it is enough to know it of one step along
one line, given an invariant of the state. A source that goes on has the marks it had before, and
more.

## Main definitions

* `Outliner.Report.Plain`, `Outliner.Report.Placed`, `Outliner.Report.Named` — the element has a
  kind that fits its group, a line of the source, and a name that stands on this line.
* `Outliner.Mark.All` — what holds of all elements that a mark reports.
* `Outliner.Keeps`, `Outliner.Cursor.Step.Keeps` — the state is kept, and what is found is right.

## Main results

* `Outliner.Cursor.walk_keeps`, `Outliner.Cursor.walk_keeps_at`, `Outliner.Cursor.walk_keeps_on` —
  from one step to a walk.
* `Outliner.readLines_keeps`, `Outliner.mem_eachLine` — from one line to all lines.
* `Outliner.readLines_isPrefix`, `Outliner.eachLine_isPrefix` — from some lines to more lines.
-/

namespace Outliner

/-! ## Reports -/

/-- The element has the kind that fits the group it is filed in, and belongs to no class yet. -/
structure Report.Plain (kindUnder : Kind → Kind) (r : Report) : Prop where
  /-- The kind of the element fits the group. -/
  kind : r.tag.kind = kindUnder r.group
  /-- The element belongs to no class yet. -/
  scope : r.tag.scope = none

/-- The element begins on one of the lines. -/
structure Report.Placed (kindUnder : Kind → Kind) (lines : List (List Char)) (r : Report) : Prop
    extends Report.Plain kindUnder r where
  /-- There is a line of the number. -/
  line : r.tag.line < lines.length

/-- The element begins on one of the lines, and its name stands there. -/
structure Report.Named (kindUnder : Kind → Kind) (lines : List (List Char)) (r : Report) : Prop
    extends Report.Plain kindUnder r where
  /-- The line of the number holds the name. -/
  name : ∃ text, lines[r.tag.line]? = some text ∧ r.tag.name.toList <:+: text

section Reports

variable {kindUnder : Kind → Kind} {lines : List (List Char)} {kind : Kind} {line : Nat}

/-- What is named is placed. -/
lemma Report.Named.placed {r : Report} (h : r.Named kindUnder lines) : r.Placed kindUnder lines := by
  obtain ⟨text, hline, -⟩ := h.name
  obtain ⟨hlength, -⟩ := List.getElem?_eq_some_iff.1 hline
  exact ⟨h.toPlain, hlength⟩

/-- An element without members is placed if there is a line of its number. -/
lemma Report.placed_leaf (hkind : kindUnder kind = kind) (name : String)
    (hline : line < lines.length) :
    Report.Placed kindUnder lines ⟨kind, { name := name, line := line, kind := kind }⟩ :=
  ⟨⟨hkind.symm, rfl⟩, hline⟩

/-- An element without members is named if its name is an excerpt of the line of its number. -/
lemma Report.named_leaf {text name : List Char} (hkind : kindUnder kind = kind)
    (hline : lines[line]? = some text) (hname : name <:+: text) :
    Report.Named kindUnder lines ⟨kind, { name := .ofList name, line := line, kind := kind }⟩ := by
  refine ⟨⟨hkind.symm, rfl⟩, text, hline, ?_⟩
  rwa [String.toList_ofList]

end Reports

/-- The property holds of all elements that the mark reports. -/
def Mark.All (P : Report → Prop) (m : Mark) : Prop := ∀ r ∈ m.reports, P r

namespace Mark

variable {P : Report → Prop} {kind : Kind} {name : String} {line : Nat}

/-- A leaf reports its element. -/
@[simp] lemma all_leaf : (Mark.leaf kind name line).All P
    ↔ P ⟨kind, { name := name, line := line, kind := kind }⟩ := by
  simp [All, reports]

/-- So does an element at the top. -/
@[simp] lemma all_atTop : (Mark.atTop kind name line).All P
    ↔ P ⟨kind, { name := name, line := line, kind := kind }⟩ := by
  simp [All, reports]

/-- So does an element that is filed only once. -/
@[simp] lemma all_once : (Mark.once kind name line).All P
    ↔ P ⟨kind, { name := name, line := line, kind := kind }⟩ := by
  simp [All, reports]

/-- Entering an element reports what its header says. -/
@[simp] lemma all_enter {header : Header} :
    (Mark.enter header).All P ↔ P ⟨header.group, header.tag⟩ := by
  simp [All, reports]

/-- Leaving reports nothing. -/
@[simp] lemma all_leave : Mark.leave.All P := by
  simp [All, reports]

/-- Forgetting reports nothing. -/
@[simp] lemma all_forget : Mark.forget.All P := by
  simp [All, reports]

/-- A method that is declared outside its class reports the class, which may have to be made for it.
-/
@[simp] lemma all_method {owner : String} : (Mark.method owner name line).All P
    ↔ P ⟨.classes, { name := owner, line := line, kind := .classes }⟩
      ∧ P ⟨.methods, { name := name, line := line, kind := .methods }⟩ := by
  simp [All, reports]

/-- An element of an owner that may not exist is reported under the kind that it has there or at the
top. -/
@[simp] lemma all_qualified {owner : String} {owned free : Kind} :
    (Mark.qualified owner owned free name line).All P
    ↔ P ⟨owned, { name := name, line := line, kind := owned }⟩
      ∧ P ⟨free, { name := name, line := line, kind := free }⟩ := by
  simp [All, reports]

/-- What is true of all that a mark reports is true of less. -/
lemma All.imp {Q : Report → Prop} {m : Mark} (h : ∀ r, P r → Q r) (hm : m.All P) : m.All Q :=
  fun r hr => h r (hm r hr)

end Mark

/-! ## Outcomes -/

section Outcomes

variable {σ α : Type} {I : σ → Prop} {P : α → Prop}

/-- The state that is carried on has the property `I`, and all that was found has the property
`P`. -/
structure Keeps (I : σ → Prop) (P : α → Prop) (outcome : σ × List α) : Prop where
  /-- The state that is carried on. -/
  state : I outcome.1
  /-- What was found. -/
  found : ∀ x ∈ outcome.2, P x

namespace Keeps

/-- Finding nothing keeps what is true. -/
lemma silent {s : σ} (hs : I s) : Keeps I P (s, []) := ⟨hs, List.forall_mem_nil P⟩

/-- Finding one thing that is fit keeps what is true. -/
lemma single {s : σ} {x : α} (hs : I s) (hx : P x) : Keeps I P (s, [x]) :=
  ⟨hs, List.forall_mem_singleton.2 hx⟩

/-- Both ways of a case distinction keep what is true if each of them does. -/
lemma ite {p : Prop} [Decidable p] {a b : σ × List α} (ha : p → Keeps I P a)
    (hb : ¬p → Keeps I P b) : Keeps I P (if p then a else b) := by
  split
  · next h => exact ha h
  · next h => exact hb h

/-- What is found first and what is found later are found together. -/
lemma append {first further : σ × List α} (hfirst : Keeps I P first)
    (hfurther : Keeps I P further) : Keeps I P (further.1, first.2 ++ further.2) := by
  refine ⟨hfurther.state, fun x hx => ?_⟩
  rcases List.mem_append.1 hx with hx | hx
  · exact hfirst.found x hx
  · exact hfurther.found x hx

end Keeps

end Outcomes

/-! ## Walks -/

namespace Cursor

variable {σ α : Type} {step : σ → Cursor → Char → Step σ α} {I : σ → Prop} {P : α → Prop}

/-- The step stays on the line. -/
def Step.StaysOn (line : List Char) (outcome : Step σ α) : Prop := outcome.cursor.line = line

/-- The state after the step has the property `I`, and all that the step found has the property
`P`. -/
def Step.Keeps (I : σ → Prop) (P : α → Prop) (outcome : Step σ α) : Prop :=
  Outliner.Keeps I P (outcome.state, outcome.found)

namespace Step

/-- A step of either kind stays on the line if each of them does. -/
lemma StaysOn.ite {line : List Char} {p : Prop} [Decidable p] {a b : Step σ α}
    (ha : p → a.StaysOn line) (hb : ¬p → b.StaysOn line) :
    (if p then a else b).StaysOn line := by
  split
  · next h => exact ha h
  · next h => exact hb h

/-- Going on without finding anything keeps what is true. -/
lemma Keeps.silent {s : σ} {c : Cursor} (hs : I s) :
    Step.Keeps I P { state := s, cursor := c } := Outliner.Keeps.silent hs

/-- A step of either kind keeps what is true if each of them does. -/
lemma Keeps.ite {p : Prop} [Decidable p] {a b : Step σ α} (ha : p → a.Keeps I P)
    (hb : ¬p → b.Keeps I P) : (if p then a else b).Keeps I P := by
  split
  · next h => exact ha h
  · next h => exact hb h

end Step

/-- What every step of a walk keeps, the walk keeps, where a step may rely on its cursor.

**Proof sketch.** Induction on the number of characters that are left. -/
lemma walk_invariant {J : σ → Cursor → Prop}
    (hstep : ∀ s c ch, c.peek? = some ch → J s c →
      J (step s c ch).state (step s c ch).cursor ∧ ∀ x ∈ (step s c ch).found, P x)
    {s : σ} {c : Cursor} (h : J s c) :
    (∃ last, J (walk step s c).1 last) ∧ ∀ x ∈ (walk step s c).2, P x := by
  induction hn : c.after.length using Nat.strong_induction_on generalizing s c with
  | _ n ih =>
    rw [walk]
    split
    · exact ⟨⟨c, h⟩, by simp⟩
    · next ch hch =>
      obtain ⟨hJ, hfound⟩ := hstep s c ch hch h
      dsimp only
      split
      · next hmoves =>
        obtain ⟨hlast, hfurther⟩ := ih _ (hn ▸ hmoves) hJ rfl
        refine ⟨hlast, fun x hx => ?_⟩
        rcases List.mem_append.1 hx with hx | hx
        · exact hfound x hx
        · exact hfurther x hx
      · exact ⟨⟨_, hJ⟩, hfound⟩

/-- What every step at the next character keeps, the walk keeps. -/
theorem walk_keeps_at (hstep : ∀ s c ch, c.peek? = some ch → I s → (step s c ch).Keeps I P) {s : σ}
    (hs : I s) (c : Cursor) : Keeps I P (walk step s c) := by
  obtain ⟨⟨-, hlast⟩, hfound⟩ := walk_invariant (J := fun s _ => I s)
    (fun s c ch hch hs => ⟨(hstep s c ch hch hs).state, (hstep s c ch hch hs).found⟩) (c := c) hs
  exact ⟨hlast, hfound⟩

/-- **What every step of a walk keeps, the walk keeps.** -/
theorem walk_keeps (hstep : ∀ s c ch, I s → (step s c ch).Keeps I P) {s : σ} (hs : I s)
    (c : Cursor) : Keeps I P (walk step s c) :=
  walk_keeps_at (fun s c ch _ => hstep s c ch) hs c

/-- **What every step along a line keeps, the walk along it keeps**, if the steps stay on their
line. -/
theorem walk_keeps_on {line : List Char} (hline : ∀ s c ch, (step s c ch).StaysOn c.line)
    (hstep : ∀ s c ch, c.line = line → I s → (step s c ch).Keeps I P) {s : σ} (hs : I s) :
    Keeps I P (walk step s (.start line)) := by
  have hboth : ∀ s c ch, c.peek? = some ch → c.line = line ∧ I s →
      ((step s c ch).cursor.line = line ∧ I (step s c ch).state)
        ∧ ∀ x ∈ (step s c ch).found, P x := by
    rintro s c ch - ⟨hc, hs⟩
    have hkeeps := hstep s c ch hc hs
    exact ⟨⟨(hline s c ch).trans hc, hkeeps.state⟩, hkeeps.found⟩
  obtain ⟨⟨last, -, hlast⟩, hfound⟩ :=
    walk_invariant (J := fun s c => c.line = line ∧ I s) hboth ⟨line_start line, hs⟩
  exact ⟨hlast, hfound⟩

end Cursor

/-! ## Lines -/

section Lines

variable {σ α : Type} {read : σ → Nat → List Char → σ × List α} {I : σ → Prop} {P : α → Prop}

/-- Lines read independently are lines read with nothing carried along. -/
lemma eachLine_eq_readLines (read : Nat → List Char → List α) (lines : List (List Char)) :
    eachLine read lines = (readLines (fun _ i text => ((), read i text)) 0 () lines).2 := by
  suffices h : ∀ first, (lines.mapIdx fun i => read (i + first)).flatten
      = (readLines (fun _ i text => ((), read i text)) first () lines).2 from h 0
  induction lines with
  | nil => exact fun _ => rfl
  | cons line lines ih =>
    intro first
    have hrest : (fun i => read (i + 1 + first)) = fun i => read (i + (first + 1)) := by
      funext i
      rw [Nat.add_assoc, Nat.add_comm 1 first]
    rw [List.mapIdx_cons, List.flatten_cons, hrest, ih, Nat.zero_add]
    rfl

/-- What is found on lines read independently is found on one of them. -/
lemma mem_eachLine {read : Nat → List Char → List α} {lines : List (List Char)} {x : α}
    (h : x ∈ eachLine read lines) : ∃ i text, lines[i]? = some text ∧ x ∈ read i text := by
  obtain ⟨found, hfound, hx⟩ := List.mem_flatten.1 h
  obtain ⟨i, hi, rfl⟩ := List.mem_mapIdx.1 hfound
  exact ⟨i, lines[i], List.getElem?_eq_getElem hi, hx⟩

/-- What is found on one of them is found on all. -/
lemma mem_eachLine_of_mem {read : Nat → List Char → List α} {lines : List (List Char)} {i : Nat}
    {text : List Char} {x : α} (htext : lines[i]? = some text) (hx : x ∈ read i text) :
    x ∈ eachLine read lines := by
  obtain ⟨hi, rfl⟩ := List.getElem?_eq_some_iff.1 htext
  exact List.mem_flatten.2 ⟨_, List.mem_mapIdx.2 ⟨i, hi, rfl⟩, hx⟩

/-- What is found on lines is found on one of them, in the state in which the lines before leave it.

**Proof sketch.** Induction on the lines, for any number of the first one. -/
lemma mem_readLines_iff {s : σ} {lines : List (List Char)} {x : α} :
    x ∈ (readLines read 0 s lines).2 ↔ ∃ i text,
      lines[i]? = some text ∧ x ∈ (read (readLines read 0 s (lines.take i)).1 i text).2 := by
  suffices h : ∀ first s, x ∈ (readLines read first s lines).2 ↔ ∃ i text,
      lines[i]? = some text
        ∧ x ∈ (read (readLines read first s (lines.take i)).1 (first + i) text).2 by
    simpa using h 0 s
  induction lines with
  | nil => simp [readLines]
  | cons line lines ih =>
    intro first s
    rw [readLines, List.mem_append, ih]
    constructor
    · rintro (hx | ⟨i, text, htext, hx⟩)
      · exact ⟨0, line, rfl, hx⟩
      · refine ⟨i + 1, text, htext, ?_⟩
        rwa [List.take_succ_cons, readLines, ← Nat.add_assoc, Nat.add_right_comm]
    · rintro ⟨i, text, htext, hx⟩
      cases i with
      | zero =>
        obtain rfl : line = text := by simpa using htext
        exact .inl hx
      | succ i =>
        rw [List.take_succ_cons, readLines, ← Nat.add_assoc, Nat.add_right_comm] at hx
        exact .inr ⟨i, text, htext, hx⟩

/-- What every line keeps, a list of lines keeps.

**Proof sketch.** Induction on the lines. The line after the first one has the next number. -/
lemma readLines_keeps_from {first : Nat} {lines : List (List Char)}
    (hstep : ∀ s i text, lines[i]? = some text → I s → Keeps I P (read s (first + i) text))
    {s : σ} (hs : I s) : Keeps I P (readLines read first s lines) := by
  induction lines generalizing first s with
  | nil => exact Keeps.silent hs
  | cons line lines ih =>
    have hhere : Keeps I P (read s first line) := hstep s 0 line rfl hs
    have hrest : ∀ s i text, lines[i]? = some text → I s →
        Keeps I P (read s (first + 1 + i) text) := by
      intro s i text htext hs
      rw [Nat.add_assoc, Nat.add_comm 1 i]
      exact hstep s (i + 1) text (by rwa [List.getElem?_cons_succ]) hs
    exact hhere.append (ih hrest hhere.state)

/-- **What every line keeps, a source keeps.** -/
theorem readLines_keeps {lines : List (List Char)}
    (hstep : ∀ s i text, lines[i]? = some text → I s → Keeps I P (read s i text)) {s : σ}
    (hs : I s) : Keeps I P (readLines read 0 s lines) := by
  refine readLines_keeps_from (fun s i text htext hs => ?_) hs
  rw [Nat.zero_add]
  exact hstep s i text htext hs

/-- What holds of all that is found on a line, whatever was carried there, holds of all that is
found in a source. -/
theorem readLines_found {lines : List (List Char)}
    (hstep : ∀ s i text, lines[i]? = some text → ∀ x ∈ (read s i text).2, P x) (s : σ) :
    ∀ x ∈ (readLines read 0 s lines).2, P x :=
  (readLines_keeps (I := fun _ => True)
    (fun s i text htext _ => ⟨trivial, hstep s i text htext⟩) trivial).found

/-- Lines read independently give nothing else when more of them follow. -/
lemma eachLine_isPrefix (read : Nat → List Char → List α) (a b : List (List Char)) :
    eachLine read a <+: eachLine read (a ++ b) := by
  rw [eachLine, eachLine, List.mapIdx_append, List.flatten_append]
  exact List.prefix_append _ _

/-- Lines that are alike one by one, as far as they are read, give the same. -/
lemma eachLine_congr {read : Nat → List Char → List α} {R : List Char → List Char → Prop}
    (hread : ∀ i a b, R a b → read i a = read i b) {lines lines' : List (List Char)}
    (h : List.Forall₂ R lines lines') : eachLine read lines = eachLine read lines' := by
  rw [eachLine_eq_readLines, eachLine_eq_readLines]
  suffices hlines : ∀ first, (readLines (fun _ i text => ((), read i text)) first () lines).2
      = (readLines (fun _ i text => ((), read i text)) first () lines').2 from hlines 0
  induction h with
  | nil => exact fun _ => rfl
  | cons hline _ ih =>
    intro first
    simp only [readLines, hread first _ _ hline, ih]

/-- Lines read with a state give nothing else when more of them follow. -/
lemma readLines_isPrefix (read : σ → Nat → List Char → σ × List α) (s : σ)
    (a b : List (List Char)) : (readLines read 0 s a).2 <+: (readLines read 0 s (a ++ b)).2 := by
  rw [readLines_append]
  exact List.prefix_append _ _

end Lines

end Outliner
