import Mathlib.Data.List.Find
import Mathlib.Data.List.Perm.Basic
import Mathlib.Tactic.Lemma
import Outliner.Scan
import Outliner.Proofs.Nesting
import Outliner.Proofs.Python.Statements

set_option autoImplicit false

/-!
# Scopes of a Python source

A statement belongs to the block of an earlier line if all statement lines from there on are
indented deeper than that line. On a page this alone decides what is reported and where: what stands
in the block of a function is left out, and everything else is held by the classes in whose blocks
it stands. The reader, which keeps a list of indentations and the indentation of one function,
reports the same of the page that it makes of a source.

## Main definitions

* `Outliner.Python.surrounds` — whether the block of a line goes on up to another line.
* `Outliner.Python.isLocal`, `Outliner.Python.parent?`, `Outliner.Python.holders` — whether a line
  stands in a function, and in which classes it stands.
* `Outliner.Python.reported?` — the element that a line of a page declares.

## Main results

* `Outliner.Python.isLocal_iff`, `Outliner.Python.surrounds_iff` — the rules spelled out.
* `Outliner.Python.describes_readBefore` — what is carried from line to line describes the blocks
  that are open there.
* `Outliner.Python.reported?_congr` — what a line declares depends on the page up to the line only.
* `Outliner.Language.scan_python_readPage` — the elements of a document are those that its lines
  declare as the reader sees them.
-/

namespace Outliner

namespace Python

/-! ## The rule -/

section Rule

variable (p : Page)

/-- Whether line `i` is indented deeper than line `j`. Where no statement begins on line `i`, it
counts as deeper than any line. -/
def isDeeper (j i : Nat) : Bool :=
  (p i).all fun inner => (p j).any fun outer => outer.indent < inner.indent

/-- Whether all statement lines after line `j` and before line `k` are indented deeper than line
`j`. -/
def surrounds (j k : Nat) : Bool := (List.range k).all fun i => i ≤ j || isDeeper p j i

/-- Whether a function begins on the line. -/
def isFunction (k : Nat) : Bool := (p k).any fun s => s.statement matches .function _

/-- The name of the class that begins on the line. -/
def className? (k : Nat) : Option String :=
  (p k).bind fun s =>
    match s.statement with
    | .classOf name => name.map .ofList
    | _ => none

/-- Whether the line is local: it stands in the block of an earlier function that is not local
itself. -/
def isLocal (k : Nat) : Bool :=
  (List.range k).attach.any fun j =>
    isFunction p j && !isLocal j && surrounds p j (k + 1)
termination_by k
decreasing_by exact List.mem_range.1 j.2

/-- Whether a class with a name begins on the line, outside functions. -/
def opensClass (k : Nat) : Bool := (className? p k).isSome && !isLocal p k

/-- The line of the class that holds what is declared on line `k`: the last one in whose block the
line stands. -/
def parent? (k : Nat) : Option Nat :=
  (List.range k).reverse.find? fun j => opensClass p j && surrounds p j (k + 1)

/-- The parent of a line comes before it. -/
lemma parent?_lt {p : Page} {j k : Nat} (h : parent? p k = some j) : j < k :=
  List.mem_range.1 (List.mem_reverse.1 (List.mem_of_find?_eq_some h))

/-- The tag of the class that begins on the line, as long as it belongs to no class. -/
def classTag (k : Nat) : Tag :=
  { name := (className? p k).getD "", line := k, kind := .classes }

/-- The tags of the classes that hold what is declared on line `k`, the innermost one first. -/
def holders (k : Nat) : List Tag :=
  match _h : parent? p k with
  | none => []
  | some j => (classTag p j).heldBy (holders j) :: holders j
termination_by k
decreasing_by all_goals exact parent?_lt _h

/-- The element that a statement declares, where `top` tells whether it stands in no class. -/
def Statement.report? (top : Bool) (line : Nat) : Statement → Option Report
  | .classOf name => name.map (report .classes)
  | .function name => name.map (report (if top then .functions else .methods))
  | .variable name => some (report .vars name)
  | .other => none
where
  /-- An element of the given kind and name on the line. -/
  report (kind : Kind) (name : List Char) : Report :=
    ⟨kind, { name := .ofList name, line := line, kind := kind }⟩

/-- What is reported of line `k`: the element that its statement declares, held by the classes in
whose blocks it stands. A local line declares nothing. -/
def reported? (k : Nat) : Option Occurrence :=
  (p k).bind fun s =>
    if isLocal p k then none
    else (s.statement.report? (holders p k).isEmpty k).map (Report.heldBy (holders p k))

end Rule

/-! ## The rule spelled out -/

variable {p : Page} {j k : Nat}

/-- A line is deeper if the other one holds a statement with less indentation, unless there is no
statement on it. -/
lemma isDeeper_iff {i : Nat} : isDeeper p j i = true ↔
    ∀ inner, p i = some inner → ∃ outer, p j = some outer ∧ outer.indent < inner.indent := by
  simp [isDeeper, Option.all_eq_true, Option.any_eq_true]

/-- The lines in between are deeper. -/
lemma surrounds_iff : surrounds p j k = true ↔ ∀ i, j < i → i < k → isDeeper p j i = true := by
  simp only [surrounds, List.all_eq_true, List.mem_range, Bool.or_eq_true, decide_eq_true_eq]
  constructor
  · intro h i hj hk
    exact (h i hk).resolve_left (Nat.not_le_of_lt hj)
  · intro h i hk
    rcases Nat.lt_or_ge j i with hj | hj
    · exact .inr (h i hj hk)
    · exact .inl hj

/-- The classes around a line are its parent and the classes around that. -/
lemma holders_eq (p : Page) (k : Nat) :
    holders p k =
      match parent? p k with
      | none => []
      | some j => (classTag p j).heldBy (holders p j) :: holders p j := by
  rw [holders]
  split <;> simp_all

/-- A line is local if an earlier line that is not local begins a function, and all statement lines
after it, up to the line itself, are indented deeper. -/
theorem isLocal_iff : isLocal p k = true ↔
    ∃ j < k, isFunction p j = true ∧ isLocal p j = false ∧ surrounds p j (k + 1) = true := by
  rw [isLocal]
  simp [List.any_eq_true, and_assoc]

/-! ## Pages that agree up to a line -/

section Agreement

variable {q : Page}

/-- Whether a block goes on up to a line depends on the lines before that line. -/
lemma surrounds_congr (h : ∀ i < k, p i = q i) (hj : j < k) :
    surrounds p j k = surrounds q j k := by
  have hdeeper : ∀ i < k, isDeeper p j i = isDeeper q j i := fun i hi => by
    rw [isDeeper, isDeeper, h i hi, h j hj]
  rw [Bool.eq_iff_iff, surrounds_iff, surrounds_iff]
  exact forall₂_congr fun i _ => forall_congr' fun hi => by rw [hdeeper i hi]

/-- Whether a line is local depends on the lines before it.

**Proof sketch.** Strong induction on the line: it is local because of an earlier line, and whether
that one is local is decided by the lines before it in turn. -/
lemma isLocal_congr (h : ∀ i ≤ k, p i = q i) : isLocal p k = isLocal q k := by
  induction k using Nat.strongRecOn with
  | _ k ih =>
    rw [Bool.eq_iff_iff, isLocal_iff, isLocal_iff]
    refine exists_congr fun j => and_congr_right fun hj => ?_
    have hlocal : isLocal p j = isLocal q j :=
      ih j hj fun i hi => h i (Nat.le_trans hi (Nat.le_of_lt hj))
    have hsurrounds : surrounds p j (k + 1) = surrounds q j (k + 1) :=
      surrounds_congr (fun i hi => h i (Nat.le_of_lt_succ hi)) (Nat.lt_succ_of_lt hj)
    rw [hlocal, hsurrounds, isFunction, isFunction, h j (Nat.le_of_lt hj)]

/-- The class that begins on a line is named on the line itself. -/
lemma className?_congr (h : p k = q k) : className? p k = className? q k := by
  rw [className?, className?, h]

/-- The class around a line depends on the page up to the line. -/
lemma parent?_congr (h : ∀ i ≤ k, p i = q i) : parent? p k = parent? q k := by
  refine List.find?_congr fun j hj => ?_
  have hj : j < k := List.mem_range.1 (List.mem_reverse.1 hj)
  have hlocal : isLocal p j = isLocal q j :=
    isLocal_congr fun i hi => h i (Nat.le_trans hi (Nat.le_of_lt hj))
  have hsurrounds : surrounds p j (k + 1) = surrounds q j (k + 1) :=
    surrounds_congr (fun i hi => h i (Nat.le_of_lt_succ hi)) (Nat.lt_succ_of_lt hj)
  rw [hsurrounds, opensClass, opensClass, hlocal, className?_congr (h j (Nat.le_of_lt hj))]

/-- The classes around a line depend on the page up to the line.

**Proof sketch.** Strong induction on the line, along its parents. -/
lemma holders_congr (h : ∀ i ≤ k, p i = q i) : holders p k = holders q k := by
  induction k using Nat.strongRecOn with
  | _ k ih =>
    rw [holders_eq, holders_eq, parent?_congr h]
    cases hparent : parent? q k with
    | none => rfl
    | some j =>
      have hj := parent?_lt hparent
      have houter : holders p j = holders q j :=
        ih j hj fun i hi => h i (Nat.le_trans hi (Nat.le_of_lt hj))
      have htag : classTag p j = classTag q j := by
        rw [classTag, classTag, className?_congr (h j (Nat.le_of_lt hj))]
      simp only [houter, htag]

/-- **What a line declares depends on the page up to the line only.** -/
theorem reported?_congr (h : ∀ i ≤ k, p i = q i) : reported? p k = reported? q k := by
  rw [reported?, reported?, h k (Nat.le_refl k), isLocal_congr h, holders_congr h]

end Agreement

/-! ## Open blocks -/

/-- A block has no lines in between at its beginning. -/
lemma surrounds_self : surrounds p k (k + 1) = true :=
  surrounds_iff.2 fun i hi hk => by omega

/-- A block goes on if the next line is deeper. -/
lemma surrounds_succ (hj : j < k) :
    surrounds p j (k + 1) = true ↔ surrounds p j k = true ∧ isDeeper p j k = true := by
  simp only [surrounds_iff]
  constructor
  · intro h
    exact ⟨fun i hi hk => h i hi (Nat.lt_succ_of_lt hk), h k hj (Nat.lt_succ_self k)⟩
  · rintro ⟨h, hlast⟩ i hi hk
    rcases Nat.lt_succ_iff_lt_or_eq.1 hk with hk | rfl
    · exact h i hi hk
    · exact hlast

/-- A line on which no statement begins ends no block. -/
lemma isDeeper_of_none (h : p k = none) (j : Nat) : isDeeper p j k = true := by
  rw [isDeeper, h]
  rfl

/-- The width of the indentation of a statement line. -/
def indentAt (p : Page) (k : Nat) : Nat := ((p k).map StatementLine.indent).getD 0

/-- Between statement lines the indentations are compared. -/
lemma isDeeper_of_some {s : StatementLine} (hs : p k = some s) (hj : (p j).isSome = true) :
    isDeeper p j k = true ↔ indentAt p j < s.indent := by
  obtain ⟨t, ht⟩ := Option.isSome_iff_exists.1 hj
  simp [isDeeper, indentAt, hs, ht]

/-- A statement line ends the blocks of the lines that are not indented less. -/
lemma surrounds_succ_of_some {s : StatementLine} (hs : p k = some s) (hjk : j < k)
    (hj : (p j).isSome = true) :
    surrounds p j (k + 1) = true ↔ surrounds p j k = true ∧ indentAt p j < s.indent := by
  rw [surrounds_succ hjk, isDeeper_of_some hs hj]

/-- A function begins on a statement line. -/
lemma isSome_of_isFunction (h : isFunction p k = true) : (p k).isSome = true := by
  cases hp : p k with
  | none => simp [isFunction, hp] at h
  | some s => rfl

/-- So does a class. -/
lemma isSome_of_opensClass (h : opensClass p k = true) : (p k).isSome = true := by
  rw [opensClass, Bool.and_eq_true] at h
  cases hp : p k with
  | none => simp [className?, hp] at h
  | some s => rfl

/-- The lines of the classes whose blocks go on up to line `k`, the last one first. -/
def openClasses (p : Page) (k : Nat) : List Nat :=
  (List.range k).reverse.filter fun j => opensClass p j && surrounds p j k

/-- The lines of the classes in whose blocks line `k` stands, the last one first. -/
def enclosing (p : Page) (k : Nat) : List Nat :=
  (List.range k).reverse.filter fun j => opensClass p j && surrounds p j (k + 1)

/-- A class is open if its block has gone on so far. -/
lemma mem_openClasses :
    j ∈ openClasses p k ↔ j < k ∧ opensClass p j = true ∧ surrounds p j k = true := by
  simp [openClasses]

/-- After a line the classes are open in whose blocks it stands, and the one that it opens. -/
lemma openClasses_succ (p : Page) (k : Nat) :
    openClasses p (k + 1) = if opensClass p k then k :: enclosing p k else enclosing p k := by
  rw [openClasses, List.range_succ, List.reverse_append, List.reverse_singleton,
    List.singleton_append, List.filter_cons, surrounds_self, Bool.and_true]
  rfl

/-- Within a line on which no statement begins all classes stay open. -/
lemma enclosing_of_none (h : p k = none) : enclosing p k = openClasses p k := by
  refine List.filter_congr fun j hj => ?_
  have hj : j < k := List.mem_range.1 (List.mem_reverse.1 hj)
  rw [Bool.eq_iff_iff, Bool.and_eq_true, Bool.and_eq_true, surrounds_succ hj]
  simp [isDeeper_of_none h]

/-- The open classes are indented less and less, from the innermost one outward. -/
lemma pairwise_openClasses (p : Page) (k : Nat) :
    (openClasses p k).Pairwise fun j i => indentAt p i < indentAt p j := by
  have hdescending : (openClasses p k).Pairwise fun j i => i < j :=
    (List.pairwise_reverse.2 List.pairwise_lt_range).filter _
  refine hdescending.imp_of_mem fun {j i} hj hi hij => ?_
  obtain ⟨hjk, hopens, -⟩ := mem_openClasses.1 hj
  obtain ⟨-, hopens', hsurrounds⟩ := mem_openClasses.1 hi
  obtain ⟨s, hs⟩ := Option.isSome_iff_exists.1 (isSome_of_opensClass hopens)
  have hdeeper := surrounds_iff.1 hsurrounds j hij hjk
  rw [isDeeper_of_some hs (isSome_of_opensClass hopens')] at hdeeper
  have hindent : indentAt p j = s.indent := by
    rw [indentAt, hs]
    rfl
  rwa [hindent]

/-- A statement line stands in the blocks of the open classes that are indented less. -/
lemma enclosing_of_some {s : StatementLine} (hs : p k = some s) :
    enclosing p k = (openClasses p k).dropWhile fun j => s.indent ≤ indentAt p j := by
  rw [dropWhile_eq_filter (pairwise_openClasses p k), openClasses, List.filter_filter]
  refine List.filter_congr fun j hj => ?_
  have hj : j < k := List.mem_range.1 (List.mem_reverse.1 hj)
  rw [Bool.eq_iff_iff]
  simp only [Bool.and_eq_true, decide_eq_true_eq]
  constructor
  · rintro ⟨hopens, hholds⟩
    obtain ⟨hsurrounds, hless⟩ :=
      (surrounds_succ_of_some hs hj (isSome_of_opensClass hopens)).1 hholds
    exact ⟨hless, hopens, hsurrounds⟩
  · rintro ⟨hless, hopens, hsurrounds⟩
    have hholds := surrounds_succ_of_some hs hj (isSome_of_opensClass hopens)
    exact ⟨hopens, hholds.2 ⟨hsurrounds, hless⟩⟩

/-! ## Holders -/

/-- The tags of classes that stand within each other, given by their lines, the innermost one
first. -/
def chain (p : Page) : List Nat → List Tag
  | [] => []
  | j :: outer => (classTag p j).heldBy (chain p outer) :: chain p outer

/-- Without the innermost classes the tags of the others are left. -/
lemma drop_chain (p : Page) (left outer : List Nat) :
    (chain p (left ++ outer)).drop left.length = chain p outer := by
  induction left with
  | nil => rfl
  | cons j left ih => exact ih

/-- From the last line of a kind on backward, the lines of that kind begin anew. -/
lemma filter_reverse_range {q : Nat → Bool} (h : (List.range k).reverse.find? q = some j) :
    (List.range k).reverse.filter q = j :: (List.range j).reverse.filter q := by
  induction k with
  | zero => simp at h
  | succ k ih =>
    rw [List.range_succ, List.reverse_append, List.reverse_singleton, List.singleton_append] at h ⊢
    cases hq : q k with
    | true =>
      rw [List.find?_cons_of_pos hq] at h
      obtain rfl := Option.some.inj h
      rw [List.filter_cons_of_pos hq]
    | false =>
      rw [List.find?_cons_of_neg (by simp [hq])] at h
      rw [List.filter_cons_of_neg (by simp [hq]), ih h]

/-- The classes around a line are its parent and the classes around that.

**Proof sketch.** A line before the parent surrounds the parent if it surrounds the line. The other
way round, what is deeper than the parent is deeper than all that surrounds the parent. -/
lemma enclosing_of_parent? (h : parent? p k = some j) : enclosing p k = j :: enclosing p j := by
  have hjk := parent?_lt h
  have hparent := List.find?_some h
  obtain ⟨hopens, hsurrounds⟩ := Bool.and_eq_true_iff.1 hparent
  obtain ⟨s, hs⟩ := Option.isSome_iff_exists.1 (isSome_of_opensClass hopens)
  rw [enclosing, filter_reverse_range h, enclosing]
  refine congrArg (j :: ·) (List.filter_congr fun i hi => ?_)
  have hij : i < j := List.mem_range.1 (List.mem_reverse.1 hi)
  rw [Bool.eq_iff_iff, Bool.and_eq_true, Bool.and_eq_true]
  refine and_congr_right fun hopens' => ?_
  have hi := isSome_of_opensClass hopens'
  rw [surrounds_iff, surrounds_iff]
  constructor
  · intro hall m him hmj
    exact hall m him (by omega)
  · intro hall m him hmk
    rcases Nat.lt_or_ge j m with hjm | hmj
    · refine isDeeper_iff.2 fun inner hinner => ?_
      obtain ⟨middle, hmiddle, hless⟩ :=
        isDeeper_iff.1 (surrounds_iff.1 hsurrounds m hjm hmk) inner hinner
      obtain ⟨outer, houter, hless'⟩ :=
        isDeeper_iff.1 (hall j hij (Nat.lt_succ_self j)) middle hmiddle
      exact ⟨outer, houter, Nat.lt_trans hless' hless⟩
    · exact hall m him (by omega)

/-- The holders of a line are the classes in whose blocks it stands. -/
lemma holders_eq_chain (p : Page) (k : Nat) : holders p k = chain p (enclosing p k) := by
  induction k using Nat.strongRecOn with
  | _ k ih =>
    rw [holders]
    split
    · next h =>
      have hnone : enclosing p k = [] := List.filter_eq_nil_iff.2 (List.find?_eq_none.1 h)
      rw [hnone, chain]
    · next j h => rw [enclosing_of_parent? h, chain, ih j (parent?_lt h)]

/-! ## What is carried from line to line -/

/-- The state and the draft before line `k` describe the blocks that go on up to it. -/
structure Describes (p : Page) (k : Nat) (state : State) (d : Draft) : Prop where
  /-- The open classes are known by their indentations. -/
  classes : state.classes = (openClasses p k).map (indentAt p)
  /-- The open function is one that is not local and whose block goes on. -/
  function : ∀ n, state.function = some n ↔ ∃ j < k, isFunction p j = true ∧ isLocal p j = false
    ∧ surrounds p j k = true ∧ indentAt p j = n
  /-- The same classes are open in the draft. -/
  held : holdersOf d.opened = chain p (openClasses p k)
  /-- The draft has the elements of the lines before. -/
  occurrences : d.occurrences.Perm ((List.range k).filterMap (reported? p))

/-- The state and the draft describe the blocks in which line `k` stands. -/
structure DescribesWithin (p : Page) (k : Nat) (state : State) (d : Draft) : Prop where
  /-- The classes around the line are known by their indentations. -/
  classes : state.classes = (enclosing p k).map (indentAt p)
  /-- The open function is one that is not local and in whose block the line stands. -/
  function : ∀ n, state.function = some n ↔ ∃ j < k, isFunction p j = true ∧ isLocal p j = false
    ∧ surrounds p j (k + 1) = true ∧ indentAt p j = n
  /-- The same classes are open in the draft. -/
  held : holdersOf d.opened = holders p k
  /-- The draft has the elements of the lines before. -/
  occurrences : d.occurrences.Perm ((List.range k).filterMap (reported? p))

/-- Where no statement begins, nothing is left. -/
lemma Describes.within_of_none {state : State} {d : Draft} (h : Describes p k state d)
    (hp : p k = none) : DescribesWithin p k state d where
  classes := by rw [enclosing_of_none hp, h.classes]
  function n := by
    rw [h.function]
    refine exists_congr fun j => and_congr_right fun hj => ?_
    rw [surrounds_succ hj]
    simp [isDeeper_of_none hp]
  held := by rw [holders_eq_chain, enclosing_of_none hp, h.held]
  occurrences := h.occurrences

/-- A statement line leaves the blocks that do not hold it.

**Proof sketch.** As the open classes are indented less and less, the ones that are left are the
innermost ones, as far as they are not indented less. What marks they take is known
(`Draft.leave_replicate`), and the function goes on if its block does. -/
lemma Describes.within_settle {state : State} {d : Draft} {s : StatementLine}
    (h : Describes p k state d) (hs : p k = some s) :
    DescribesWithin p k (settle s.indent state).1 (d.marks (settle s.indent state).2) := by
  let left := (openClasses p k).takeWhile fun j => s.indent ≤ indentAt p j
  have hsplit : openClasses p k = left ++ enclosing p k := by
    rw [enclosing_of_some hs]
    exact List.takeWhile_append_dropWhile.symm
  have hleft : (settle s.indent state).2 = List.replicate left.length .leave := by
    rw [settle, h.classes, List.takeWhile_map, List.length_map]
    rfl
  obtain ⟨hholders, hoccurrences⟩ := Draft.leave_replicate left.length d
  constructor
  · rw [settle, h.classes, List.dropWhile_map, enclosing_of_some hs]
    rfl
  · intro n
    rw [settle]
    simp only [Option.filter_eq_some_iff, h.function, decide_eq_true_eq]
    constructor
    · rintro ⟨⟨j, hj, hfunction, hfree, hsurrounds, rfl⟩, hless⟩
      have hholds := surrounds_succ_of_some hs hj (isSome_of_isFunction hfunction)
      exact ⟨j, hj, hfunction, hfree, hholds.2 ⟨hsurrounds, hless⟩, rfl⟩
    · rintro ⟨j, hj, hfunction, hfree, hsurrounds, rfl⟩
      have hholds := surrounds_succ_of_some hs hj (isSome_of_isFunction hfunction)
      obtain ⟨hsurrounds, hless⟩ := hholds.1 hsurrounds
      exact ⟨⟨j, hj, hfunction, hfree, hsurrounds, rfl⟩, hless⟩
  · rw [hleft, hholders, h.held, hsplit, drop_chain, holders_eq_chain]
  · rw [hleft]
    exact hoccurrences.trans h.occurrences

/-- A function is open around a line if and only if the line is local. -/
lemma DescribesWithin.isSome_function {state : State} {d : Draft}
    (h : DescribesWithin p k state d) : state.function.isSome = isLocal p k := by
  rw [Bool.eq_iff_iff, Option.isSome_iff_exists, isLocal_iff]
  constructor
  · rintro ⟨n, hn⟩
    obtain ⟨j, hj, hfunction, hfree, hsurrounds, -⟩ := (h.function n).1 hn
    exact ⟨j, hj, hfunction, hfree, hsurrounds⟩
  · rintro ⟨j, hj, hfunction, hfree, hsurrounds⟩
    exact ⟨indentAt p j, (h.function _).2 ⟨j, hj, hfunction, hfree, hsurrounds, rfl⟩⟩

/-- What the line itself opens and reports is added to what is around it.

**Proof sketch.** The blocks around the line go on after it, and the line opens its own block, if
any. A function that is not local stands in no other function, so at most one is open. -/
lemma DescribesWithin.next {state state' : State} {d d' : Draft} (h : DescribesWithin p k state d)
    (hclasses : state'.classes
      = if opensClass p k then indentAt p k :: state.classes else state.classes)
    (hfunction : state'.function
      = if isFunction p k && !isLocal p k then some (indentAt p k) else state.function)
    (hholders : holdersOf d'.opened
      = if opensClass p k then (classTag p k).heldBy (holders p k) :: holders p k else holders p k)
    (hoccurrences : d'.occurrences.Perm (d.occurrences ++ (reported? p k).toList)) :
    Describes p (k + 1) state' d' := by
  constructor
  · rw [hclasses, h.classes, openClasses_succ]
    split <;> rfl
  · intro n
    rw [hfunction]
    split
    · next hopens =>
      obtain ⟨hbegins, hfree⟩ := Bool.and_eq_true_iff.1 hopens
      rw [Bool.not_eq_true'] at hfree
      rw [Option.some_inj]
      constructor
      · rintro rfl
        exact ⟨k, Nat.lt_succ_self k, hbegins, hfree, surrounds_self, rfl⟩
      · rintro ⟨j, hj, hbegins', hfree', hsurrounds, hindent⟩
        rcases Nat.lt_succ_iff_lt_or_eq.1 hj with hj | rfl
        · have hlocal := isLocal_iff.2 ⟨j, hj, hbegins', hfree', hsurrounds⟩
          rw [hfree] at hlocal
          exact absurd hlocal (by decide)
        · exact hindent
    · next hopens =>
      rw [h.function]
      constructor
      · rintro ⟨j, hj, hrest⟩
        exact ⟨j, Nat.lt_succ_of_lt hj, hrest⟩
      · rintro ⟨j, hj, hbegins, hfree, hrest⟩
        rcases Nat.lt_succ_iff_lt_or_eq.1 hj with hj | rfl
        · exact ⟨j, hj, hbegins, hfree, hrest⟩
        · exact absurd (by rw [hbegins, hfree]; rfl) hopens
  · rw [hholders, openClasses_succ, holders_eq_chain]
    split <;> rfl
  · rw [List.range_succ, List.filterMap_append]
    refine hoccurrences.trans ((h.occurrences.append_right _).trans (List.Perm.of_eq ?_))
    cases hreported : reported? p k <;> simp [hreported]

/-- A line that neither opens a block nor reports anything only lets the blocks around it go on. -/
lemma DescribesWithin.skip {state : State} {d : Draft} (h : DescribesWithin p k state d)
    (hclass : opensClass p k = false) (hfunction : (isFunction p k && !isLocal p k) = false)
    (hreported : reported? p k = none) : Describes p (k + 1) state d := by
  refine h.next ?_ ?_ ?_ ?_
  · rw [hclass]
    rfl
  · rw [hfunction]
    rfl
  · rw [hclass, h.held]
    rfl
  · rw [hreported]
    exact List.Perm.of_eq (List.append_nil _).symm

/-- An element without members that the line reports is filed in the innermost class around it. -/
lemma DescribesWithin.leaf {state state' : State} {d : Draft} {kind : Kind} {name : String}
    (h : DescribesWithin p k state d) (hclass : opensClass p k = false)
    (hclasses : state'.classes = state.classes)
    (hfunction : state'.function
      = if isFunction p k && !isLocal p k then some (indentAt p k) else state.function)
    (hreported : reported? p k
      = some (Report.heldBy (holders p k) ⟨kind, { name := name, line := k, kind := kind }⟩)) :
    Describes p (k + 1) state' (d.mark (.leaf kind name k)) := by
  refine h.next ?_ hfunction ?_ ?_
  · rw [hclass]
    exact hclasses
  · rw [hclass, ← h.held]
    exact Draft.holdersOf_file kind _ d
  · rw [hreported, ← h.held]
    exact Draft.occurrences_file_leafOf kind name k d

/-- A statement outside functions opens its block and is reported, if it declares anything.

**Proof sketch.** Statement by statement, the state and the draft change as `next` asks for. A class
or a function without a name reports nothing; such a function is open all the same, such a class is
not. -/
lemma DescribesWithin.declare {state : State} {d : Draft} {s : StatementLine}
    (h : DescribesWithin p k state d) (hs : p k = some s) (hfree : isLocal p k = false) :
    Describes p (k + 1) (declare s.indent k state s.statement).1
      (d.marks (declare s.indent k state s.statement).2) := by
  obtain ⟨indent, statement⟩ := s
  rcases statement with (_ | name) | (_ | name) | name | _
  -- a class without a name
  · refine h.skip ?_ ?_ ?_
    · simp [opensClass, className?, hs]
    · simp [isFunction, hs]
    · simp [reported?, hs, hfree, Statement.report?]
  -- a class
  · have hclass : opensClass p k = true := by simp [opensClass, className?, hs, hfree]
    refine h.next ?_ ?_ ?_ ?_
    · simp [Python.declare, hclass, indentAt, hs]
    · simp [Python.declare, isFunction, hs]
    · have htag : classTag p k = (classHeader name k).tag := by
        simp [classTag, className?, hs, classHeader]
      rw [hclass, htag, ← h.held]
      rfl
    · refine List.Perm.of_eq ?_
      show (d.mark (.enter (classHeader name k))).occurrences = _
      rw [Draft.occurrences_mark_enter, h.held]
      simp [reported?, hs, hfree, Statement.report?, Statement.report?.report, classHeader]
  -- a function without a name, which is open all the same
  · refine h.next ?_ ?_ ?_ ?_
    · simp [Python.declare, opensClass, className?, hs]
    · simp [Python.declare, isFunction, indentAt, hs, hfree]
    · simp [Python.declare, opensClass, className?, hs, h.held]
    · simp [Python.declare, reported?, hs, hfree, Statement.report?]
  -- a function
  · have hempty : state.classes.isEmpty = (holders p k).isEmpty := by
      rw [h.classes, holders_eq_chain]
      cases enclosing p k <;> rfl
    refine h.leaf ?_ rfl ?_ ?_
    · simp [opensClass, className?, hs]
    · simp [Python.declare, isFunction, indentAt, hs, hfree]
    · simp [reported?, hs, hfree, Statement.report?, Statement.report?.report, hempty]
  -- a variable
  · refine h.leaf ?_ rfl ?_ ?_
    · simp [opensClass, className?, hs]
    · simp [Python.declare, isFunction, hs]
    · simp [reported?, hs, hfree, Statement.report?, Statement.report?.report]
  -- nothing of interest
  · refine h.skip ?_ ?_ ?_
    · simp [opensClass, className?, hs]
    · simp [isFunction, hs]
    · simp [reported?, hs, hfree, Statement.report?]

/-! ## Reading a page -/

/-- What a statement line does keeps the description up to date.

**Proof sketch.** First the blocks are left that do not hold the line (`within_settle`). If a
function is still open, the line is local and says nothing. Otherwise it declares what its statement
says. -/
lemma describes_readStatement {state : State} {d : Draft} {s : StatementLine}
    (h : Describes p k state d) (hs : p k = some s) :
    Describes p (k + 1) (readStatement state k s).1 (d.marks (readStatement state k s).2) := by
  have hwithin := h.within_settle hs
  have hlocal := hwithin.isSome_function
  rw [readStatement]
  dsimp only
  cases hfree : isLocal p k with
  | true =>
    rw [if_pos (hlocal.trans hfree)]
    refine hwithin.skip ?_ ?_ ?_
    · rw [opensClass, hfree, Bool.not_true, Bool.and_false]
    · rw [hfree, Bool.not_true, Bool.and_false]
    · rw [reported?, hs, Option.bind_some, if_pos hfree]
  | false =>
    have hnone : ¬ (settle s.indent state).1.function.isSome = true := by
      rw [hlocal, hfree]
      decide
    rw [if_neg hnone, Draft.marks_append]
    exact hwithin.declare hs hfree

/-- A line on which no statement begins keeps the description up to date. -/
lemma describes_of_none {state : State} {d : Draft} (h : Describes p k state d)
    (hnone : p k = none) : Describes p (k + 1) state d := by
  refine (h.within_of_none hnone).skip ?_ ?_ ?_
  · simp [opensClass, className?, hnone]
  · simp [isFunction, hnone]
  · rw [reported?, hnone, Option.bind_none]

/-- Strings, brackets and continuations do not matter for the blocks. -/
lemma Describes.lexically {state : State} {d : Draft} (h : Describes p k state d)
    (lexical : Lexical) : Describes p k (state.lexically lexical) d :=
  ⟨h.classes, h.function, h.held, h.occurrences⟩

/-- Before the first line nothing is open and nothing is reported. -/
lemma describes_start (p : Page) (legend : Legend) :
    Describes p 0 {} { document := .withLegend legend } where
  classes := rfl
  function n := by simp
  held := rfl
  occurrences := by
    rw [Draft.occurrences, Document.occurrences_withLegend]
    exact List.Perm.refl _

/-- **What is carried to a line describes the blocks that are open there.**

**Proof sketch.** Induction on the lines before. Following a line changes the lexical state only,
and this decides whether a statement stands on the next line of the page. -/
theorem describes_readBefore (legend : Legend) {lines : List (List Char)} (hk : k ≤ lines.length) :
    Describes (readPage lines) k (readBefore lines k).1
      (Draft.marks { document := .withLegend legend } (readBefore lines k).2) := by
  induction k with
  | zero => exact describes_start (readPage lines) legend
  | succ k ih =>
    have hbefore := ih (Nat.le_of_succ_le hk)
    have htext : lines[k]? = some lines[k] := List.getElem?_eq_getElem hk
    have hpage : readPage lines k = statementLine? (readBefore lines k).1.lexical lines[k] := by
      rw [readPage, htext, lexical_readBefore (Nat.le_of_succ_le hk)]
      rfl
    rw [readBefore_succ htext, readLine_eq, Draft.marks_append]
    dsimp only
    split
    · next hnone => exact describes_of_none (hbefore.lexically _) (hpage.trans hnone)
    · next s hs => exact describes_readStatement (hbefore.lexically _) (hpage.trans hs)

/-- What is filed is what the lines of the page declare that the reader makes of the source. -/
lemma occurrences_ofMarks_perm (lines : List (List Char)) :
    (Document.ofMarks legend (marks lines)).occurrences.Perm
      ((List.range lines.length).filterMap (reported? (readPage lines))) := by
  have hread := describes_readBefore legend (Nat.le_refl lines.length)
  rw [readBefore_length] at hread
  exact (Document.occurrences_ofMarks _ _).trans hread.occurrences

/-- What a statement reports stands on its line. -/
lemma Statement.line_of_report? {top : Bool} (s : Statement) {r : Report}
    (h : s.report? top k = some r) : r.tag.line = k := by
  rcases s with (_ | name) | (_ | name) | name | _ <;> cases h <;> rfl

/-- What is reported of a line stands on that line. -/
lemma line_of_reported? {o : Occurrence} (h : reported? p k = some o) : o.tag.line = k := by
  simp only [reported?, Option.bind_eq_some_iff] at h
  obtain ⟨s, -, h⟩ := h
  split at h
  · exact absurd h (by simp)
  · obtain ⟨r, hr, rfl⟩ := Option.map_eq_some_iff.1 h
    exact (Tag.line_heldBy _ r.tag).trans (s.statement.line_of_report? hr)

end Python

/-- An element of a Python document is what the reader takes the line on which it stands to
declare. -/
lemma Language.reported?_of_mem_scan {lines : List String} {o : Occurrence}
    (ho : o ∈ (python.scan lines).occurrences) :
    Python.reported? (Python.readPage (lines.map String.toList)) o.tag.line = some o := by
  have hmem := (Python.occurrences_ofMarks_perm (lines.map String.toList)).subset ho
  obtain ⟨k, -, hk⟩ := List.mem_filterMap.1 hmem
  rwa [Python.line_of_reported? hk]

/-- **The elements of a Python document are those that its lines declare as the reader sees
them.** -/
theorem Language.scan_python_readPage (lines : List String) :
    (python.scan lines).occurrences.Perm
      ((List.range lines.length).filterMap
        (Python.reported? (Python.readPage (lines.map String.toList)))) := by
  have hlength : lines.length = (lines.map String.toList).length := by rw [List.length_map]
  rw [hlength]
  exact Python.occurrences_ofMarks_perm (lines.map String.toList)

end Outliner
