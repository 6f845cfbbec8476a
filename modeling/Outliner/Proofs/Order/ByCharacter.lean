import Outliner.Proofs.Order.Reading
import Outliner.Proofs.Renumbering.ByCharacter

set_option autoImplicit false

/-!
# The order of marks in sources read character by character

A header that waits, for its brace or for its name, is marked after the line on which it began.
Until then nothing is marked under its kind, so the marks come in the right order all the same. For
each reader the state tells the smallest line that may still be named.

## Main definitions

* `Outliner.Php.State.earliest`, `Outliner.Verilog.State.earliest` — the line of the header that
  waits, or else the line that is read.
* `Outliner.StyleSheet.State.waiting` — the lines of the selectors that wait.

## Main results

* `Outliner.Python.marks_precedes`, `Outliner.Python.marks_fits` and their like — the marks of a
  source come in the right order.
-/

namespace Outliner

variable {lines : List (List Char)} {entered : Kind → Prop}

/-! ## Python sources -/

namespace Python

/-- Classes are filed under their kind. -/
def enteredKinds : Kind → Prop := fun kind => kind = .classes

/-- The marks of a line are on the line. -/
lemma readLine_onLine (s : State) (i : Nat) (text : List Char) :
    ∀ m ∈ (readLine s i text).2, m.OnLine i :=
  Mark.onLine_of_renumber (congrArg Prod.snd (readLine_renumber (fun _ => i) s i text))

/-- The marks of a Python source come in the order of their lines. -/
theorem marks_precedes : (marks lines).Pairwise (Mark.Precedes entered) :=
  readLines_precedes readLine_onLine {} lines

/-- A statement enters nothing but a class. -/
lemma declare_fits (indent i : Nat) (state : State) (s : Statement) :
    ∀ m ∈ (declare indent i state s).2, m.Fits enteredKinds := by
  intro m hm
  unfold declare at hm
  split at hm
  · exact absurd hm List.not_mem_nil
  · obtain rfl := List.mem_singleton.1 hm
    exact rfl
  · obtain ⟨name, -, rfl⟩ := Option.map_eq_some_iff.1 (Option.mem_toList.1 hm)
    trivial
  · obtain rfl := List.mem_singleton.1 hm
    trivial
  · exact absurd hm List.not_mem_nil

/-- Closing the open classes that a line ends only leaves. -/
lemma settle_fits (indent : Nat) (state : State) :
    ∀ m ∈ (settle indent state).2, m.Fits enteredKinds := by
  intro m hm
  obtain rfl := List.eq_of_mem_replicate hm
  trivial

/-- Only classes are entered in a Python source. -/
theorem marks_fits : ∀ m ∈ marks lines, m.Fits enteredKinds := by
  refine readLines_found (fun s i text _ => ?_) _
  simp only [readLine]
  split
  · simp
  · split
    · exact settle_fits _ _
    · intro m hm
      rcases List.mem_append.1 hm with hm | hm
      · exact settle_fits _ _ m hm
      · exact declare_fits _ i _ _ m hm

end Python

/-! ## Lua sources -/

namespace Lua

/-- The marks of a line are on the line. -/
lemma readLine_onLine (s : Option Nat) (i : Nat) (text : List Char) :
    ∀ m ∈ (readLine s i text).2, m.OnLine i :=
  Mark.onLine_of_renumber (congrArg Prod.snd (readLine_renumber (fun _ => i) s i text))

/-- The marks of a Lua source come in the order of their lines. -/
theorem marks_precedes : (marks lines).Pairwise (Mark.Precedes entered) :=
  readLines_precedes readLine_onLine none lines

section Forall

variable {P : Mark → Prop} (hleaf : ∀ name i, P (.leaf .functions name i))
  (hmethod : ∀ owner name i, P (.method owner name i))
include hleaf hmethod

/-- A function is marked as a leaf or as a method. -/
lemma forall_functionMarks (name : List Char) (i : Nat) : ∀ m ∈ functionMarks name i, P m := by
  intro m hm
  simp only [functionMarks] at hm
  split at hm
  · split at hm
    · exact absurd hm List.not_mem_nil
    · obtain rfl := List.mem_singleton.1 hm
      exact hmethod _ _ i
  · split at hm
    · obtain rfl := List.mem_singleton.1 hm
      exact hleaf _ i
    · exact absurd hm List.not_mem_nil

/-- What is marked where a name is due is a leaf or a method. -/
lemma forall_nameStep (i : Nat) (c : Cursor) : ∀ m ∈ (nameStep i c).found, P m := by
  simp only [nameStep]
  split
  · exact forall_functionMarks hleaf hmethod _ i
  · split
    · exact forall_functionMarks hleaf hmethod _ i
    · simp

/-- What a step marks is a leaf or a method.

**Proof sketch.** Only the step that reads a name marks anything (`forall_nameStep`). All other
branches are silent. -/
lemma forall_step (i : Nat) (state : Option Nat) (c : Cursor) (ch : Char) :
    (step i state c ch).Keeps (fun _ => True) P := by
  unfold step
  split
  · exact .silent trivial
  · split
    · split
      · exact .silent trivial
      · exact .silent trivial
    · refine .ite (fun _ => .silent trivial) fun _ => ?_
      refine .ite (fun _ => ?_) fun _ => ?_
      · split
        · exact .silent trivial
        · exact .silent trivial
      · refine .ite (fun _ => ⟨trivial, ?_⟩) fun _ => .silent trivial
        exact forall_nameStep hleaf hmethod i c

/-- The marks of a source are functions and methods. -/
theorem forall_marks : ∀ m ∈ marks lines, P m :=
  readLines_found (fun s i _ _ => (Cursor.walk_keeps
    (fun s c ch _ => forall_step hleaf hmethod i s c ch) (s := s) trivial _).found) _

end Forall

/-- Only leaves and methods are marked in a Lua source, and nothing is entered. -/
theorem marks_fits : ∀ m ∈ marks lines, m.Fits enteredNever :=
  forall_marks (fun _ _ => trivial) fun _ _ _ => id

end Lua

/-! ## PHP sources -/

namespace Php

/-- Classes are filed under their kind. -/
def enteredKinds : Kind → Prop := fun kind => kind = .classes

/-- The line of the header that waits for its brace, or else the line that is read. -/
def State.earliest (i : Nat) (s : State) : Nat := (s.pending.map Prod.snd).getD i

/-- What may still be marked: nothing begins before the header that waits, and only classes begin
before the line that is read. -/
def State.Later (i : Nat) (s : State) (m : Mark) : Prop :=
  m.All fun r => s.earliest i ≤ r.tag.line ∧ (r.group ≠ .classes → i ≤ r.tag.line)

/-- The state is one at the line: the header that waits did not begin later. -/
def State.Reached (i : Nat) (s : State) : Prop := s.earliest i ≤ i

/-- What is found in an outcome comes in order. -/
def InOrder (i : Nat) (s : State) (outcome : State × List Mark) : Prop :=
  ComesInOrder (State.Reached i) (State.Later i) (Mark.Precedes enteredKinds) s outcome

/-- A step that finds nothing comes in order, if no earlier line may be named after it. -/
lemma inOrder_silent {i : Nat} {s : State} (s' : State) (hs : s'.Reached i)
    (hline : s.earliest i ≤ s'.earliest i) : InOrder i s (s', []) :=
  .silent hs fun _ hm r hr => ⟨hline.trans (hm r hr).1, (hm r hr).2⟩

/-- A leaf on the line that is read comes in order. -/
lemma inOrder_leaf {i : Nat} {s : State} (hs : s.Reached i) {kind : Kind} (hkind : kind ≠ .classes)
    (name : String) : InOrder i s (s, [.leaf kind name i]) := by
  refine .single hs (Mark.all_leaf.2 ⟨hs, fun _ => le_rfl⟩) (fun _ hm => hm) ?_
  intro _ hm r hr r' hr' hgroup
  obtain rfl := List.mem_singleton.1 hr
  rcases hgroup with hgroup | hholds | hholds
  · exact (hm r' hr').2 fun h => hkind (hgroup.trans h)
  · exact absurd hholds hkind
  · exact absurd hholds hkind

/-- A function is marked on the line that is read. -/
lemma functionMarks_inOrder {i : Nat} {s : State} (hs : s.Reached i) (name : List Char) :
    InOrder i s (s, functionMarks s name i) := by
  unfold functionMarks
  split
  · split
    · exact inOrder_leaf hs (by decide) _
    · exact .same hs
  · exact inOrder_leaf hs (by decide) _

/-- What a word declares comes in order.

**Proof sketch.** A class that is announced waits on the line that is read. A function and a leaf
are marked there, and a word of any other kind is passed over. -/
lemma wordStep_inOrder {i : Nat} {s : State} (hs : s.Reached i) (c : Cursor) :
    InOrder i s ((wordStep i s c).state, (wordStep i s c).found) := by
  simp only [wordStep]
  split
  · exact .same hs
  · split
    · split
      · exact inOrder_silent { s with pending := some _ } (Nat.le_refl i) hs
      · exact .same hs
    · split
      · split
        · exact functionMarks_inOrder hs _
        · exact .same hs
      · split
        · dsimp only
          split
          · exact .same hs
          · exact inOrder_leaf hs (by decide) _
        · exact .same hs

/-- A class that begins comes in order, on the line of its header. -/
lemma openBrace_inOrder {i : Nat} {s : State} (hs : s.Reached i) :
    InOrder i s (openBrace s) := by
  unfold openBrace
  split
  · next name line hpending _ =>
    have hline : s.earliest i = line := by
      rw [State.earliest, hpending]
      rfl
    have hreached : line ≤ i := hline ▸ hs
    refine .single (Nat.le_refl i) (Mark.all_enter.2 ⟨hline.le, fun h => absurd rfl h⟩)
      (fun m hm r hr => ⟨hs.trans (hm r hr).1, (hm r hr).2⟩) ?_
    intro _ hm r hr r' hr' _
    obtain rfl := List.mem_singleton.1 hr
    exact hreached.trans (hm r' hr').1
  · exact inOrder_silent { s with pending := none, braces := s.braces + 1 } (Nat.le_refl i) hs

/-- Leaving a class comes in order. -/
lemma closeBrace_inOrder {i : Nat} {s : State} (hs : s.Reached i) :
    InOrder i s (closeBrace s) := by
  unfold closeBrace
  refine .ite (fun _ => ?_) fun _ => inOrder_silent _ hs le_rfl
  have hnothing : ∀ m ∈ [Mark.leave, .forget], m.reports = [] := by
    simp [Mark.reports]
  refine ⟨hs, fun m hm r hr => ?_, fun _ hm => hm, fun m hm m' _ r hr => ?_, ?_⟩
  · rw [hnothing m hm] at hr
    exact absurd hr List.not_mem_nil
  · rw [hnothing m hm] at hr
    exact absurd hr List.not_mem_nil
  · refine List.pairwise_of_forall_mem_list fun m hm m' _ r hr => ?_
    rw [hnothing m hm] at hr
    exact absurd hr List.not_mem_nil

/-- A step comes in order.

**Proof sketch.** A change of the mode finds nothing and leaves the header that waits alone. In
code, braces and words are the branches that find anything, and each of them has its lemma. -/
lemma step_inOrder {i : Nat} {s : State} (hs : s.Reached i) (c : Cursor) (ch : Char) :
    InOrder i s ((step i s c ch).state, (step i s c ch).found) := by
  have hmode : ∀ mode : Mode, InOrder i s ({ s with mode := mode }, []) :=
    fun mode => inOrder_silent { s with mode := mode } hs le_rfl
  have hsame : InOrder i s (s, []) := .same hs
  unfold step
  split
  · dsimp only
    split
    · exact hmode .code
    · exact hsame
  · dsimp only
    split
    · exact hmode .code
    · exact hsame
  · dsimp only
    split
    · exact hmode .code
    · exact hsame
  · change Cursor.Step.ComesInOrder (State.Reached i) (State.Later i) (Mark.Precedes enteredKinds) s
      (codeStep i s c ch)
    unfold codeStep
    refine .ite (fun _ => hmode .page) fun _ => ?_
    refine .ite (fun _ => hmode .comment) fun _ => ?_
    refine .ite (fun _ => hsame) fun _ => ?_
    refine .ite (fun _ => hsame) fun _ => ?_
    refine .ite (fun _ => hmode (.quoted ch)) fun _ => ?_
    refine .ite (fun _ => openBrace_inOrder hs) fun _ => ?_
    refine .ite (fun _ => closeBrace_inOrder hs) fun _ => ?_
    refine .ite (fun _ => ?_) fun _ => ?_
    · exact inOrder_silent { s with pending := none } (Nat.le_refl i) hs
    · exact .ite (fun _ => wordStep_inOrder hs c) fun _ => hsame

/-- Properties are marked on the line that is read. -/
lemma propertyMarks_inOrder {i : Nat} {s : State} (hs : s.Reached i) (text : List Char) :
    InOrder i s (s, propertyMarks s i text) := by
  unfold propertyMarks
  split
  · cases propertyName? text with
    | none => exact .same hs
    | some name => exact inOrder_leaf hs (by decide) _
  · exact .same hs

/-- The marks of a PHP source come in the right order.

**Proof sketch.** At the end of a line the header that waits stays, so the smallest line that may be
named stays, or it is the next one. A line is its properties, which are on the line, followed by the
walk over its characters (`step_inOrder`). -/
theorem marks_precedes : (marks lines).Pairwise (Mark.Precedes enteredKinds) := by
  refine (readLines_pairwise State.Reached State.Later (fun i s hs => ?_) (fun i s hs m hm r hr => ?_)
    (fun s i text hs => ?_) (show State.Reached 0 {} from Nat.le_refl 0) lines).1
  · cases hpending : s.pending with
    | none => simp [State.Reached, State.earliest, hpending]
    | some header =>
      simp only [State.Reached, State.earliest, hpending, Option.map_some, Option.getD_some] at hs ⊢
      exact Nat.le_succ_of_le hs
  · obtain ⟨hearliest, hline⟩ := hm r hr
    refine ⟨?_, fun h => Nat.le_of_succ_le (hline h)⟩
    cases hpending : s.pending with
    | none =>
      simp only [State.earliest, hpending, Option.map_none, Option.getD_none] at hearliest ⊢
      exact Nat.le_of_succ_le hearliest
    | some header =>
      simp only [State.earliest, hpending, Option.map_some, Option.getD_some] at hearliest ⊢
      exact hearliest
  · exact (propertyMarks_inOrder hs text).append
      (Cursor.walk_comesInOrder (fun s c ch hs => step_inOrder hs c ch) hs (.start text))

/-- The mark of a function enters nothing. -/
lemma functionMarks_fits (s : State) (name : List Char) (i : Nat) :
    ∀ m ∈ functionMarks s name i, m.Fits enteredKinds := by
  intro m hm
  unfold functionMarks at hm
  split_ifs at hm
  · obtain rfl := List.mem_singleton.1 hm
    trivial
  · exact absurd hm List.not_mem_nil
  · obtain rfl := List.mem_singleton.1 hm
    trivial

/-- A word enters nothing.

**Proof sketch.** Only functions and leaves are marked at a word. The class that a word announces is
entered at its brace. -/
lemma wordStep_fits (i : Nat) (s : State) (c : Cursor) :
    ∀ m ∈ (wordStep i s c).found, m.Fits enteredKinds := by
  simp only [wordStep]
  split
  · simp
  · split
    · split
      · simp
      · simp
    · split
      · split
        · exact functionMarks_fits s _ i
        · simp
      · split
        · dsimp only
          split
          · simp
          · intro m hm
            obtain rfl := List.mem_singleton.1 hm
            trivial
        · simp

/-- An opening brace enters nothing but a class. -/
lemma openBrace_fits (s : State) : ∀ m ∈ (openBrace s).2, m.Fits enteredKinds := by
  unfold openBrace
  split
  · intro m hm
    obtain rfl := List.mem_singleton.1 hm
    exact rfl
  · simp

/-- A closing brace only leaves. -/
lemma closeBrace_fits (s : State) : ∀ m ∈ (closeBrace s).2, m.Fits enteredKinds := by
  simp only [closeBrace]
  split
  · intro m hm
    simp only [List.mem_cons, List.not_mem_nil, or_false] at hm
    rcases hm with rfl | rfl
    · trivial
    · trivial
  · simp

/-- A step enters nothing but a class. -/
lemma step_fits (i : Nat) (s : State) (c : Cursor) (ch : Char) :
    (step i s c ch).Keeps (fun _ => True) (Mark.Fits enteredKinds) := by
  unfold step
  split
  · exact .ite (fun _ => .silent trivial) fun _ => .silent trivial
  · exact .silent trivial
  · exact .silent trivial
  · unfold codeStep
    iterate 5 refine .ite (fun _ => .silent trivial) fun _ => ?_
    refine .ite (fun _ => ⟨trivial, openBrace_fits s⟩) fun _ => ?_
    refine .ite (fun _ => ⟨trivial, closeBrace_fits s⟩) fun _ => ?_
    refine .ite (fun _ => .silent trivial) fun _ => ?_
    exact .ite (fun _ => ⟨trivial, wordStep_fits i s c⟩) fun _ => .silent trivial

/-- Only classes are entered in a PHP source. -/
theorem marks_fits : ∀ m ∈ marks lines, m.Fits enteredKinds := by
  refine readLines_found (fun s i text _ m hm => ?_) _
  rcases List.mem_append.1 hm with hm | hm
  · unfold propertyMarks at hm
    split at hm
    · obtain ⟨name, -, rfl⟩ := Option.map_eq_some_iff.1 (Option.mem_toList.1 hm)
      trivial
    · exact absurd hm List.not_mem_nil
  · exact (Cursor.walk_keeps (fun s c ch _ => step_fits i s c ch) (s := s) trivial _).found m hm

end Php

/-! ## Verilog sources -/

namespace Verilog

/-- Units are filed under their kinds. -/
def enteredKinds : Kind → Prop := fun kind => ∃ unit : DesignUnit, kind = unit.kind

/-- The line of the header that is being read, or else the line that is read. -/
def State.earliest (i : Nat) (s : State) : Nat := (s.header.map PartialHeader.line).getD i

/-- What may still be marked: nothing begins before the header that is being read. -/
def State.Later (i : Nat) (s : State) (m : Mark) : Prop := m.All fun r => s.earliest i ≤ r.tag.line

/-- The state is one at the line: the header that is being read did not begin later. -/
def State.Reached (i : Nat) (s : State) : Prop := s.earliest i ≤ i

/-- What is found in an outcome comes in order. -/
def InOrder (i : Nat) (s : State) (outcome : State × List Mark) : Prop :=
  ComesInOrder (State.Reached i) (State.Later i) (Mark.Precedes enteredKinds) s outcome

/-- A step that finds nothing comes in order, if no earlier line may be named after it. -/
lemma inOrder_silent {i : Nat} {s : State} (s' : State) (hs : s'.Reached i)
    (hline : s.earliest i ≤ s'.earliest i) : InOrder i s (s', []) :=
  .silent hs fun _ hm r hr => hline.trans (hm r hr)

/-- A mark of what begins on the line of the header that is being read comes in order. -/
lemma inOrder_single {i : Nat} {s s' : State} (hs : s'.Reached i)
    (hline : s.earliest i ≤ s'.earliest i) {m : Mark} (hm : m.OnLine (s.earliest i)) :
    InOrder i s (s', [m]) := by
  refine .single hs (fun r hr => (hm r hr).ge) (fun _ hm' r hr => hline.trans (hm' r hr)) ?_
  intro _ hm' r hr r' hr' _
  rw [hm r hr]
  exact hline.trans (hm' r' hr')

/-- A routine is marked on the line that its header names. -/
lemma routineMark_onLine (routine : Routine) (owner : Option String) (units : List DesignUnit)
    (name : String) (i : Nat) : (routineMark routine owner units name i).OnLine i := by
  cases owner with
  | none => exact Mark.all_leaf.2 rfl
  | some owner => exact Mark.all_qualified.2 ⟨rfl, rfl⟩

/-- What a header declares is marked on the line on which the header began.

**Proof sketch.** Before, the smallest line that may be named is that of the header; after, it is
the line that is read, because no header is left. In each branch the mark names the line of the
header. -/
lemma endHeader_inOrder {i : Nat} {s : State} (hs : s.Reached i) : InOrder i s (endHeader s) := by
  unfold endHeader
  split
  · exact .same hs
  · next header hheader =>
    have hline : s.earliest i = header.line := by
      rw [State.earliest, hheader]
      rfl
    have hreached : ∀ s' : State, s'.header = none → s'.earliest i = i := by
      intro s' h
      rw [State.earliest, h]
      rfl
    dsimp only
    split
    · exact inOrder_silent _ (hreached _ rfl).le (hs.trans (hreached _ rfl).ge)
    · refine inOrder_single (hreached _ rfl).le (hs.trans (hreached _ rfl).ge) ?_
      exact Mark.all_atTop.2 hline.symm
    · refine inOrder_single (hreached _ rfl).le (hs.trans (hreached _ rfl).ge) ?_
      exact Mark.all_enter.2 hline.symm
    · split
      · exact inOrder_silent _ (hreached _ rfl).le (hs.trans (hreached _ rfl).ge)
      · refine inOrder_single (hreached _ rfl).le (hs.trans (hreached _ rfl).ge) ?_
        rw [hline]
        exact routineMark_onLine _ _ _ _ _

/-- What comes in order depends only on the line of the header that is being read. -/
lemma InOrder.of_earliest {i : Nat} {s s' : State} {outcome : State × List Mark}
    (h : InOrder i s' outcome) (hline : s'.earliest i = s.earliest i) : InOrder i s outcome := by
  have hlater : ∀ m, State.Later i s' m → State.Later i s m :=
    fun _ hm r hr => hline.ge.trans (hm r hr)
  exact ⟨h.state, fun m hm => hlater m (h.found m hm), fun m hm => hlater m (h.further m hm),
    h.before, h.order⟩

/-- A word inside a header comes in order.

**Proof sketch.** The header that goes on keeps its line, so each branch that changes it finds
nothing and names the same smallest line. The branches that end it are those of `endHeader_inOrder`.
-/
lemma headerWord_inOrder {i : Nat} {s : State} (hs : s.Reached i) {header : PartialHeader}
    (hheader : s.header = some header) (w : String) : InOrder i s (headerWord s header w) := by
  have hline : ∀ next : PartialHeader, next.line = header.line →
      State.earliest i { s with header := some next } = s.earliest i := by
    intro next h
    rw [State.earliest, State.earliest, hheader]
    exact h
  have hreached : ∀ next : PartialHeader, next.line = header.line →
      State.Reached i { s with header := some next } :=
    fun next h => (hline next h).trans_le hs
  have hsilent : ∀ next : PartialHeader, next.line = header.line →
      InOrder i s ({ s with header := some next }, []) :=
    fun next h => inOrder_silent _ (hreached next h) (hline next h).ge
  have hend : ∀ next : PartialHeader, next.line = header.line →
      InOrder i s (endHeader { s with header := some next }) :=
    fun next h => (endHeader_inOrder (hreached next h)).of_earliest (hline next h)
  unfold headerWord
  split
  · exact hend _ rfl
  · refine .ite (fun _ => hsilent _ rfl) fun _ => ?_
    exact .ite (fun _ => hsilent _ rfl) fun _ => hend _ rfl
  · exact hsilent _ rfl

/-- A header that begins is on the line that is read.

**Proof sketch.** A header that begins is silent and names the line that is read, and qualifiers are
only remembered. The word that ends a design unit leaves it, and a header does not wait there. -/
lemma freeWord_inOrder {i : Nat} {s : State} (hs : s.Reached i) (w : String) :
    InOrder i s (freeWord s i w) := by
  have hheader : ∀ declared : Declared,
      InOrder i s ({ s with header := some { declared := declared, line := i } }, []) :=
    fun declared => inOrder_silent { s with header := some { declared := declared, line := i } }
      (Nat.le_refl i) hs
  have hqualifiers : InOrder i s ({ s with qualifiers := w :: s.qualifiers }, []) :=
    inOrder_silent { s with qualifiers := w :: s.qualifiers } hs le_rfl
  unfold freeWord
  dsimp only
  split
  · exact .ite (fun _ => hqualifiers) fun _ => hheader _
  · exact hheader _
  · split
    · next innermost outer _ =>
      refine .ite (fun _ => ?_) fun _ => hqualifiers
      have hleft : State.Reached i { s with units := outer } := hs
      have hline : s.earliest i ≤ State.earliest i { s with units := outer } := le_rfl
      exact inOrder_single hleft hline Mark.all_leave
    · exact hqualifiers

/-- A word comes in order. -/
lemma word_inOrder {i : Nat} {s : State} (hs : s.Reached i) (w : String) :
    InOrder i s (word s i w) := by
  unfold word
  split
  · split
    · exact inOrder_silent { s with body := none, qualifiers := [] } hs le_rfl
    · exact .same hs
  · refine .ite (fun _ => .same hs) fun _ => ?_
    split
    · next header hheader => exact headerWord_inOrder hs hheader w
    · exact freeWord_inOrder hs w

/-- The double colon does not change which header waits. -/
lemma earliest_qualify (i : Nat) (s : State) : (qualify s).earliest i = s.earliest i := by
  rw [State.earliest, State.earliest, qualify, Option.map_map]
  rfl

/-- A directive comes in order. -/
lemma directiveStep_inOrder {i : Nat} {s : State} (hs : s.Reached i) (c : Cursor) :
    InOrder i s ((directiveStep i s c).state, (directiveStep i s c).found) := by
  unfold directiveStep
  split
  · split
    · exact inOrder_silent { s with header := some { declared := .definition, line := i } }
        (Nat.le_refl i) hs
    · exact .same hs
  · exact .same hs

/-- A step outside comments and strings comes in order.

**Proof sketch.** Braces and the double colon leave the header alone, and words and directives have
their lemmas. A semicolon ends the header and then forgets the qualifiers, so its branch is two
outcomes, one after the other. -/
lemma codeStep_inOrder {i : Nat} {s : State} (hs : s.Reached i) (c : Cursor) (ch : Char) :
    (codeStep i s c ch).ComesInOrder (State.Reached i) (State.Later i)
      (Mark.Precedes enteredKinds) s := by
  have hsame : InOrder i s (s, []) := .same hs
  unfold codeStep
  refine .ite (fun _ => hsame) fun _ => ?_
  refine .ite (fun _ => inOrder_silent { s with braces := s.braces + 1 } hs le_rfl) fun _ => ?_
  refine .ite (fun _ => inOrder_silent { s with braces := s.braces - 1 } hs le_rfl) fun _ => ?_
  refine .ite (fun _ => directiveStep_inOrder hs c) fun _ => ?_
  refine .ite (fun _ => ?_) fun _ => ?_
  · have hend : InOrder i s (endHeader s) := endHeader_inOrder hs
    have hforget : InOrder i (endHeader s).1 ({ (endHeader s).1 with qualifiers := [] }, []) :=
      inOrder_silent { (endHeader s).1 with qualifiers := [] } hend.state le_rfl
    dsimp only [Cursor.Step.ComesInOrder]
    split
    · have hboth := hend.append hforget
      rwa [List.append_nil] at hboth
    · exact hend
  · refine .ite (fun _ => ?_) fun _ => ?_
    · have hline := earliest_qualify i s
      exact inOrder_silent (qualify s) (hline.trans_le hs) hline.ge
    · refine .ite (fun _ => word_inOrder hs _) fun _ => ?_
      exact .ite (fun _ => hsame) fun _ => hsame

/-- A step comes in order. -/
lemma step_inOrder {i : Nat} {s : State} (hs : s.Reached i) (c : Cursor) (ch : Char) :
    (step i s c ch).ComesInOrder (State.Reached i) (State.Later i)
      (Mark.Precedes enteredKinds) s := by
  have hcomment : ∀ b : Bool, InOrder i s ({ s with inComment := b }, []) :=
    fun b => inOrder_silent { s with inComment := b } hs le_rfl
  unfold step
  refine .ite (fun _ => hcomment _) fun _ => ?_
  refine .ite (fun _ => .same hs) fun _ => ?_
  exact .ite (fun _ => hcomment _) fun _ => codeStep_inOrder hs c ch

/-- The marks of a hardware description come in the right order.

**Proof sketch.** At the end of a line a header that waits keeps its line, and otherwise the next
line may be named at the earliest. A line is the walk over its characters (`step_inOrder`), followed
by the end of the line, where a header may end. -/
theorem marks_precedes : (marks lines).Pairwise (Mark.Precedes enteredKinds) := by
  refine (readLines_pairwise State.Reached State.Later (fun i s hs => ?_) (fun i s hs m hm r hr => ?_)
    (fun s i text hs => ?_) (show State.Reached 0 {} from Nat.le_refl 0) lines).1
  · cases hheader : s.header with
    | none => simp [State.Reached, State.earliest, hheader]
    | some header =>
      simp only [State.Reached, State.earliest, hheader, Option.map_some, Option.getD_some] at hs ⊢
      exact Nat.le_succ_of_le hs
  · have hearliest := hm r hr
    cases hheader : s.header with
    | none =>
      simp only [State.earliest, hheader, Option.map_none, Option.getD_none] at hearliest ⊢
      exact Nat.le_of_succ_le hearliest
    | some header =>
      simp only [State.earliest, hheader, Option.map_some, Option.getD_some] at hearliest ⊢
      exact hearliest
  · have hwalked := Cursor.walk_comesInOrder (fun s c ch hs => step_inOrder hs c ch) hs (.start text)
    have hended : ∀ s : State, s.Reached i → InOrder i s (endLine s) := by
      intro s hs
      unfold endLine
      exact .ite (fun _ => endHeader_inOrder hs) fun _ => .same hs
    exact hwalked.append (hended _ hwalked.state)

/-- A routine enters nothing. -/
lemma routineMark_fits (routine : Routine) (owner : Option String) (units : List DesignUnit)
    (name : String) (i : Nat) : (routineMark routine owner units name i).Fits enteredKinds := by
  cases owner with
  | none => trivial
  | some owner => trivial

/-- The end of a header enters nothing but a design unit.

**Proof sketch.** By what the header declares. A macro is marked as a leaf that no design unit is
filed with, a design unit is entered under its own kind, and a routine enters nothing. -/
lemma endHeader_fits (s : State) :
    Keeps (fun _ => True) (Mark.Fits enteredKinds) (endHeader s) := by
  have hmacros : ¬enteredKinds .macros := by
    rintro ⟨unit, hunit⟩
    cases unit <;> exact absurd hunit (by decide)
  unfold endHeader
  split
  · exact .silent trivial
  · dsimp only
    split
    · exact .silent trivial
    · exact .single trivial hmacros
    · next kind _ _ => exact .single trivial ⟨kind, rfl⟩
    · refine ⟨trivial, fun m hm => ?_⟩
      split at hm
      · exact absurd hm List.not_mem_nil
      · obtain rfl := List.mem_singleton.1 hm
        exact routineMark_fits _ _ _ _ _

/-- A word inside a header enters nothing but a design unit. -/
lemma headerWord_fits (s : State) (header : PartialHeader) (w : String) :
    Keeps (fun _ => True) (Mark.Fits enteredKinds) (headerWord s header w) := by
  unfold headerWord
  split
  · exact endHeader_fits _
  · refine .ite (fun _ => .silent trivial) fun _ => ?_
    exact .ite (fun _ => .silent trivial) fun _ => endHeader_fits _
  · exact .silent trivial

/-- A word outside headers enters nothing. -/
lemma freeWord_fits (s : State) (i : Nat) (w : String) :
    Keeps (fun _ => True) (Mark.Fits enteredKinds) (freeWord s i w) := by
  unfold freeWord
  dsimp only
  split
  · exact .ite (fun _ => .silent trivial) fun _ => .silent trivial
  · exact .silent trivial
  · split
    · exact .ite (fun _ => .single trivial trivial) fun _ => .silent trivial
    · exact .silent trivial

/-- A word enters nothing but a design unit. -/
lemma word_fits (s : State) (i : Nat) (w : String) :
    Keeps (fun _ => True) (Mark.Fits enteredKinds) (word s i w) := by
  unfold word
  split
  · exact .silent trivial
  · refine .ite (fun _ => .silent trivial) fun _ => ?_
    split
    · exact headerWord_fits _ _ _
    · exact freeWord_fits _ _ _

/-- A step enters nothing but a design unit. -/
lemma step_fits (i : Nat) (s : State) (c : Cursor) (ch : Char) :
    (step i s c ch).Keeps (fun _ => True) (Mark.Fits enteredKinds) := by
  unfold step
  iterate 3 refine .ite (fun _ => .silent trivial) fun _ => ?_
  unfold codeStep
  iterate 3 refine .ite (fun _ => .silent trivial) fun _ => ?_
  refine .ite (fun _ => ?_) fun _ => ?_
  · unfold directiveStep
    split
    · exact .ite (fun _ => .silent trivial) fun _ => .silent trivial
    · exact .silent trivial
  · refine .ite (fun _ => ⟨trivial, (endHeader_fits s).found⟩) fun _ => ?_
    refine .ite (fun _ => .silent trivial) fun _ => ?_
    refine .ite (fun _ => word_fits s i _) fun _ => ?_
    exact .ite (fun _ => .silent trivial) fun _ => .silent trivial

/-- The end of a line enters nothing but a design unit. -/
lemma endLine_fits (s : State) :
    Keeps (fun _ => True) (Mark.Fits enteredKinds) (endLine s) := by
  unfold endLine
  exact .ite (fun _ => endHeader_fits s) fun _ => .silent trivial

/-- Only design units are entered in a hardware description. -/
theorem marks_fits : ∀ m ∈ marks lines, m.Fits enteredKinds := by
  refine readLines_found (fun s i text _ => ?_) _
  have hwalked := Cursor.walk_keeps (fun s c ch _ => step_fits i s c ch) (s := s) trivial
    (.start text)
  exact (hwalked.append (endLine_fits _)).found

end Verilog

/-! ## Style sheets -/

namespace StyleSheet

/-- The lines of the selectors that wait for their block, in order. -/
def State.waiting (s : State) : List Nat :=
  s.list.map Selector.line ++ (s.piece.map Piece.line).toList

/-- The state is one at the line: the selectors that wait stand in order, and none began later. -/
def State.Reached (i : Nat) (s : State) : Prop := (s.waiting ++ [i]).Pairwise (· ≤ ·)

/-- What may still be found: it begins on the line of a selector that waits, or later. -/
def State.Later (i : Nat) (s : State) (selector : Selector) : Prop :=
  ∃ line ∈ s.waiting ++ [i], line ≤ selector.line

/-- What is found in an outcome comes in order. -/
def InOrder (i : Nat) (s : State) (outcome : State × List Selector) : Prop :=
  ComesInOrder (State.Reached i) (State.Later i) (·.line ≤ ·.line) s outcome

/-- A step that finds nothing comes in order, if it makes no other line wait. -/
lemma inOrder_silent {i : Nat} {s : State} (s' : State) (hs : s'.Reached i)
    (hwaiting : s'.waiting ++ [i] ⊆ s.waiting ++ [i]) : InOrder i s (s', []) := by
  refine .silent hs fun selector hlater => ?_
  obtain ⟨line, hline, hle⟩ := hlater
  exact ⟨line, hwaiting hline, hle⟩

/-- Selectors may be given up. -/
lemma inOrder_sublist {i : Nat} {s : State} (s' : State) (hs : s.Reached i)
    (hwaiting : s'.waiting.Sublist s.waiting) : InOrder i s (s', []) := by
  have hall : (s'.waiting ++ [i]).Sublist (s.waiting ++ [i]) :=
    hwaiting.append (List.Sublist.refl _)
  exact inOrder_silent s' (List.Pairwise.sublist hall hs) hall.subset

/-- A selector that ends waits further, on the line on which it began, unless it is blank. -/
lemma waiting_endSelector (s : State) :
    s.endSelector.waiting.Sublist s.waiting
      ∧ s.endSelector.waiting = s.endSelector.list.map Selector.line := by
  have hpiece : ((s.piece.bind Piece.selector?).toList.map Selector.line).Sublist
      (s.piece.map Piece.line).toList := by
    cases s.piece with
    | none => exact List.Sublist.refl _
    | some piece =>
      rw [Option.bind_some, Piece.selector?]
      split
      · exact List.nil_sublist _
      · exact List.Sublist.refl _
  simp only [State.waiting, State.endSelector, List.map_append, Option.map_none, Option.toList_none,
    List.append_nil, and_true]
  exact (List.Sublist.refl _).append hpiece

/-- A text is added to a selector that waits. -/
lemma append_inOrder {i : Nat} {s : State} (hs : s.Reached i) (text : List Char) :
    InOrder i s ({ s with piece := s.piece.map (·.append text) }, []) := by
  have hwaiting : State.waiting { s with piece := s.piece.map (·.append text) } = s.waiting := by
    simp only [State.waiting, Option.map_map]
    rfl
  exact inOrder_sublist _ hs (hwaiting ▸ List.Sublist.refl _)

/-- A selector that is extended began before, or begins on the line that is read.

**Proof sketch.** Where no selector waits, the line that is read is added at the end of those that
wait, and none of them is greater. Where one waits, its line is kept. -/
lemma extend_inOrder {i : Nat} {s : State} (hs : s.Reached i) (text : List Char) :
    InOrder i s (s.extend i text, []) := by
  cases hpiece : s.piece with
  | none =>
    have hwaiting : (s.extend i text).waiting = s.waiting ++ [i] := by
      simp [State.waiting, State.extend, Piece.append, hpiece]
    refine inOrder_silent _ ?_ ?_
    · have hlast : ∀ line ∈ s.waiting ++ [i], line ≤ i := by
        intro line hline
        rcases List.mem_append.1 hline with hline | hline
        · exact (List.pairwise_append.1 hs).2.2 line hline i (List.mem_singleton_self i)
        · exact (List.mem_singleton.1 hline).le
      rw [State.Reached, hwaiting, List.pairwise_append]
      refine ⟨hs, List.pairwise_singleton _ _, fun line hline other hother => ?_⟩
      rw [List.mem_singleton.1 hother]
      exact hlast line hline
    · rw [hwaiting]
      exact List.append_subset.2 ⟨List.Subset.refl _, List.subset_append_right _ _⟩
  | some piece =>
    have hwaiting : (s.extend i text).waiting = s.waiting := by
      simp [State.waiting, State.extend, Piece.append, hpiece]
    exact inOrder_sublist _ hs (hwaiting ▸ List.Sublist.refl _)

/-- The selectors of a rule are found when its block begins, in the order in which they stand.

**Proof sketch.** The selectors of the rule are a part of those that waited, so they come in order,
and each of them stands no later than the line that is read. Nothing waits in the new block. -/
lemma openRule_inOrder {i : Nat} {s : State} (hs : s.Reached i) :
    InOrder i s ({ s.endSelector with list := [], blocks := .declarations :: s.blocks },
      s.endSelector.list) := by
  obtain ⟨hsublist, hlines⟩ := waiting_endSelector s
  have hnone : State.waiting { s.endSelector with list := [], blocks := .declarations :: s.blocks }
      = [] := rfl
  have hmem : ∀ selector ∈ s.endSelector.list, selector.line ∈ s.waiting := by
    intro selector hselector
    refine hsublist.subset ?_
    rw [hlines]
    exact List.mem_map_of_mem hselector
  obtain ⟨horder, -, hline⟩ := List.pairwise_append.1 hs
  refine ⟨?_, fun selector hselector => ?_, fun selector hlater => ?_, ?_, ?_⟩
  · rw [State.Reached, hnone]
    exact List.pairwise_singleton _ _
  · exact ⟨selector.line, List.mem_append_left _ (hmem selector hselector), le_rfl⟩
  · obtain ⟨line, hline, hle⟩ := hlater
    rw [hnone] at hline
    exact ⟨line, List.mem_append_right _ hline, hle⟩
  · intro selector hselector other hlater
    obtain ⟨line, hother, hle⟩ := hlater
    rw [hnone, List.nil_append, List.mem_singleton] at hother
    exact (hline _ (hmem selector hselector) i (List.mem_singleton_self i)).trans (hother ▸ hle)
  · have hended : (s.endSelector.list.map Selector.line).Pairwise (· ≤ ·) := by
      rw [← hlines]
      exact horder.sublist hsublist
    exact List.pairwise_map.1 hended

/-- A step among the selectors of a rule comes in order. -/
lemma ruleStep_inOrder {i : Nat} {s : State} (hs : s.Reached i) (c : Cursor) (ch : Char) :
    (ruleStep i s c ch).ComesInOrder (State.Reached i) (State.Later i) (·.line ≤ ·.line) s := by
  have hdropped : ∀ blocks : List Block,
      InOrder i s ({ s.dropSelectors with blocks := blocks }, []) :=
    fun blocks => inOrder_sublist { s.dropSelectors with blocks := blocks } hs (List.nil_sublist _)
  unfold ruleStep
  refine .ite (fun _ => inOrder_sublist { s with atRule := _ } hs (List.Sublist.refl _)) fun _ => ?_
  refine .ite (fun _ => openRule_inOrder hs) fun _ => ?_
  refine .ite (fun _ => hdropped _) fun _ => ?_
  refine .ite (fun _ => hdropped s.blocks) fun _ => ?_
  refine .ite (fun _ => inOrder_sublist s.endSelector hs (waiting_endSelector s).1) fun _ => ?_
  refine .ite (fun _ => extend_inOrder hs _) fun _ => ?_
  exact .ite (fun _ => append_inOrder hs [ch]) fun _ => extend_inOrder hs _

/-- A step comes in order.

**Proof sketch.** Comments, at-rules and blocks change nothing that waits, so they are silent. What
remains is a step among the selectors (`ruleStep_inOrder`). -/
lemma step_inOrder {i : Nat} {s : State} (hs : s.Reached i) (c : Cursor) (ch : Char) :
    (step i s c ch).ComesInOrder (State.Reached i) (State.Later i) (·.line ≤ ·.line) s := by
  have hsame : ∀ (b : Bool) (blocks : List Block) (atRule : Option Bool),
      InOrder i s ({ s with inComment := b, blocks := blocks, atRule := atRule }, []) :=
    fun b blocks atRule =>
      inOrder_sublist { s with inComment := b, blocks := blocks, atRule := atRule } hs
        (List.Sublist.refl _)
  unfold step
  refine .ite (fun _ => hsame _ _ _) fun _ => ?_
  refine .ite (fun _ => hsame _ _ _) fun _ => ?_
  split
  · unfold atRuleStep
    refine .ite (fun _ => hsame s.inComment _ _) fun _ => ?_
    refine .ite (fun _ => hsame s.inComment s.blocks _) fun _ => ?_
    exact .ite (fun _ => .same hs) fun _ => .same hs
  · exact ruleStep_inOrder hs c ch
  · unfold blockStep
    refine .ite (fun _ => .same hs) fun _ => ?_
    refine .ite (fun _ => hsame s.inComment _ s.atRule) fun _ => ?_
    exact .ite (fun _ => hsame s.inComment _ s.atRule) fun _ => .same hs

/-- The selectors of a sheet stand in the order of their lines. -/
lemma selectors_pairwise : (selectors lines).Pairwise (·.line ≤ ·.line) := by
  refine (readLines_pairwise State.Reached State.Later (fun i s hs => ?_) (fun i s hs _ hlater => ?_)
    (fun s i text hs => ?_) (show State.Reached 0 {} from List.pairwise_singleton _ _) lines).1
  · obtain ⟨horder, -, hline⟩ := List.pairwise_append.1 hs
    refine List.pairwise_append.2 ⟨horder, List.pairwise_singleton _ _, fun line hwaits j hj => ?_⟩
    rw [List.mem_singleton.1 hj]
    exact Nat.le_succ_of_le (hline line hwaits i (List.mem_singleton_self i))
  · obtain ⟨line, hline, hle⟩ := hlater
    rcases List.mem_append.1 hline with hline | hline
    · exact ⟨line, List.mem_append_left _ hline, hle⟩
    · rw [List.mem_singleton.1 hline] at hle
      exact ⟨i, List.mem_append_right _ (List.mem_singleton_self i), Nat.le_of_succ_le hle⟩
  · have hwalked := Cursor.walk_comesInOrder (fun s c ch hs => step_inOrder hs c ch) hs (.start text)
    have hboth := hwalked.append (append_inOrder hwalked.state [' '])
    rwa [List.append_nil] at hboth

/-- Marks that report something once come in order, if their lines do. -/
lemma once_precedes {line line' : Nat} (h : line ≤ line') (kind kind' : Kind)
    (name name' : String) :
    (Mark.once kind name line).Precedes entered (.once kind' name' line') := by
  intro r hr r' hr' _
  obtain rfl := List.mem_singleton.1 hr
  obtain rfl := List.mem_singleton.1 hr'
  exact h

/-- The marks of a style sheet come in the right order. -/
theorem marks_precedes : (marks lines).Pairwise (Mark.Precedes entered) := by
  refine List.pairwise_flatMap.2 ⟨fun selector _ => ?_, ?_⟩
  · exact List.pairwise_map.2 (List.pairwise_of_forall fun _ _ => once_precedes le_rfl _ _ _ _)
  · refine selectors_pairwise.imp fun hle m hm m' hm' => ?_
    obtain ⟨_, -, rfl⟩ := List.mem_map.1 hm
    obtain ⟨_, -, rfl⟩ := List.mem_map.1 hm'
    exact once_precedes hle _ _ _ _

/-- A style sheet has but marks that report something once. -/
theorem marks_fits : ∀ m ∈ marks lines, m.Fits enteredNever := by
  intro m hm
  obtain ⟨_, -, hm⟩ := List.mem_flatMap.1 hm
  obtain ⟨_, -, rfl⟩ := List.mem_map.1 hm
  exact id

/-- Read as styles, the selectors come in the right order too. -/
theorem styleMarks_precedes : (styleMarks lines).Pairwise (Mark.Precedes entered) :=
  List.pairwise_map.2 (selectors_pairwise.imp fun hle => once_precedes hle _ _ _ _)

/-- Read as styles, the selectors are reported once each. -/
theorem styleMarks_fits : ∀ m ∈ styleMarks lines, m.Fits enteredNever := by
  intro m hm
  obtain ⟨_, -, rfl⟩ := List.mem_map.1 hm
  exact id

end StyleSheet

end Outliner
