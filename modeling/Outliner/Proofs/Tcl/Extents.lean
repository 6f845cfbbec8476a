import Mathlib.Data.List.Perm.Basic
import Mathlib.Data.Nat.Find
import Outliner.Proofs.Nesting
import Outliner.Proofs.Reading
import Outliner.Proofs.Tcl.Counting

set_option autoImplicit false

/-!
# How long the scopes of a Tcl script last

A name space or a class lasts as long as more braces are open before each line than before the line
on which it begins. This alone decides where the elements of a script are filed: each is held by the
scopes that last up to its line. The reader, which keeps a list of numbers of braces, files them in
the same places.

Within a line the reader does not look. Where the braces of a scope are closed and others are opened
on one line, the count dips and the scope lasts all the same; a scope whose count stays above lasts
without dips.

## Main definitions

* `Outliner.Tcl.scopeAt?` — the scope that begins on a line.
* `Outliner.Tcl.Lasts`, `Outliner.Tcl.StaysAbove`, `Outliner.Tcl.Dips` — how many braces are open
  from a line on: before each line, at each place, and not at some place.
* `Outliner.Tcl.openAt`, `Outliner.Tcl.holders`, `Outliner.Tcl.reported?` — the scopes that last up
  to a line, their tags, and the element that the line declares.

## Main results

* `Outliner.Tcl.staysAbove_iff` — the count stays above if the scope lasts and the count never dips.
* `Outliner.Tcl.Describes.readLine` — the reader keeps the scopes that last.
* `Outliner.Language.scan_tcl_perm` — the elements of a document are those that its lines declare.
* `Outliner.Language.scan_tcl_scopes` — an element is held by the scopes that last up to its line.
-/

namespace Outliner

namespace Tcl

/-! ## The rule -/

section Rule

variable (lines : List (List Char))

/-- The scope that begins on a line. -/
def scopeAt? (j : Nat) : Option Header :=
  match command (trimStart (codeAt lines j)) with
  | .nameSpace name => some (nameSpaceHeader name j)
  | .classOf name => some (classHeader name j)
  | _ => none

/-- Before each line after line `j`, up to line `i`, more braces are open than before line `j`. -/
structure Lasts (j i : Nat) : Prop where
  /-- Line `i` comes after line `j`. -/
  before : j < i
  /-- More braces are open before each line. -/
  above : ∀ m, j < m → m ≤ i → bracesBefore lines j < bracesBefore lines m

instance (j i : Nat) : Decidable (Lasts lines j i) :=
  decidable_of_iff (j < i ∧ ∀ m < i + 1, j < m → bracesBefore lines j < bracesBefore lines m)
    ⟨fun h => ⟨h.1, fun m hj hi => h.2 m (Nat.lt_succ_of_le hi) hj⟩,
      fun h => ⟨h.before, fun m hi hj => h.above m hj (Nat.le_of_lt_succ hi)⟩⟩

/-- From the first brace that line `j` opens beyond those open before it up to the beginning of line
`i`, which is the end of the line before, more braces are open at each place than before line
`j`. -/
structure StaysAbove (j i : Nat) : Prop where
  /-- Line `i` comes after line `j`. -/
  before : j < i
  /-- The brace is opened on line `j`, and the count stays above it there. -/
  opening : ∃ k, (∀ n < k, bracesAt lines j n ≤ bracesBefore lines j)
    ∧ ∀ n, k ≤ n → bracesBefore lines j < bracesAt lines j n
  /-- The count stays above it on the lines between. -/
  between : ∀ m, j < m → m < i → ∀ n, bracesBefore lines j < bracesAt lines m n

/-- At a place of line `m` no more braces are open than before line `j`, and if it is line `j`
itself, more were open before that place. -/
def Dips (j m : Nat) : Prop :=
  ∃ n, bracesAt lines m n ≤ bracesBefore lines j
    ∧ (m = j → ∃ k < n, bracesBefore lines j < bracesAt lines j k)

/-- The scopes that last up to a line, the innermost one first. -/
def openAt (k : Nat) : List Header :=
  (List.range k).reverse.filterMap fun j => (scopeAt? lines j).filter fun _ => Lasts lines j k

/-- The tags of the scopes that hold what is declared on a line, the innermost one first. -/
def holders (k : Nat) : List Tag := nest ((openAt lines k).map Header.tag)

/-- Whether the scope is a class. -/
def isClass (header : Header) : Bool := header.group == .classes

/-- The element that a command declares, where it is known whether it stands in a class. -/
def Command.report? (inClass : Bool) (line : Nat) : Command → Option Report
  | .procedure name => if name.isEmpty then none else some (report .procedures name)
  | .method name => if inClass && !name.isEmpty then some (report .methods name) else none
  | .nameSpace name => some ⟨.namespaces, (nameSpaceHeader name line).tag⟩
  | .classOf name => some ⟨.classes, (classHeader name line).tag⟩
  | .other => none
where
  /-- An element of the given kind and name on the line. -/
  report (kind : Kind) (name : List Char) : Report :=
    ⟨kind, { name := .ofList name, line := line, kind := kind }⟩

/-- What is reported of a line: the element that its command declares, held by the scopes that last
up to it. -/
def reported? (k : Nat) : Option Occurrence :=
  ((command (trimStart (codeAt lines k))).report? ((openAt lines k).head?.any isClass) k).map
    (Report.heldBy (holders lines k))

end Rule

variable {lines : List (List Char)} {i j k : Nat} {header : Header}

/-! ## Lasting and staying above -/

/-- A scope lasts up to the next line if its line opens a brace. -/
lemma lasts_self_succ :
    Lasts lines k (k + 1) ↔ bracesBefore lines k < bracesBefore lines (k + 1) := by
  constructor
  · intro h
    exact h.above (k + 1) (Nat.lt_succ_self k) (Nat.le_refl _)
  · intro h
    refine ⟨Nat.lt_succ_self k, fun m hk hm => ?_⟩
    obtain rfl : m = k + 1 := by omega
    exact h

/-- A scope lasts up to the next line if it lasts up to this one and its braces are not closed. -/
lemma lasts_succ (hj : j < k) : Lasts lines j (k + 1) ↔
    Lasts lines j k ∧ bracesBefore lines j < bracesBefore lines (k + 1) := by
  constructor
  · intro h
    exact ⟨⟨hj, fun m hm hk => h.above m hm (by omega)⟩, h.above (k + 1) (by omega) (Nat.le_refl _)⟩
  · rintro ⟨h, hlast⟩
    refine ⟨by omega, fun m hm hk => ?_⟩
    rcases Nat.le_succ_iff.1 hk with hk | rfl
    · exact h.above m hm hk
    · exact hlast

/-- At the end of a line, as many braces are open as before the next one. -/
lemma exists_bracesAt_eq (lines : List (List Char)) (m k : Nat) :
    ∃ n, k ≤ n ∧ bracesAt lines m n = bracesBefore lines (m + 1) :=
  ⟨max k (codeAt lines m).length, Nat.le_max_left _ _, bracesAt_of_le (Nat.le_max_right _ _)⟩

/-- **The count stays above a scope if the scope lasts and the count never dips.**

**Proof sketch.** A scope whose count stays above is above at the ends of the lines. The other way
round, the first brace that counts is there since the line ends above; behind it, and on the lines
between, a place that is not above is a dip. -/
theorem staysAbove_iff : StaysAbove lines j i ↔
    Lasts lines j i ∧ ∀ m, j ≤ m → m < i → ¬ Dips lines j m := by
  constructor
  · intro h
    -- a scope whose count stays above lasts, and no line dips
    obtain ⟨k, hfirst, hthen⟩ := h.opening
    refine ⟨⟨h.before, fun m hj hi => ?_⟩, ?_⟩
    · obtain ⟨m, rfl⟩ : ∃ n, m = n + 1 := ⟨m - 1, by omega⟩
      obtain ⟨n, hn, hend⟩ := exists_bracesAt_eq lines m k
      rw [← hend]
      rcases Nat.lt_or_ge j m with hjm | hmj
      · exact h.between m hjm (by omega) n
      · obtain rfl : m = j := by omega
        exact hthen n hn
    · rintro m hj hi ⟨n, hn, hopened⟩
      rcases Nat.eq_or_lt_of_le hj with rfl | hj
      · obtain ⟨k', hk', habove⟩ := hopened rfl
        have hn' : n < k := Nat.lt_of_not_le fun hkn => absurd (hthen n hkn) (by omega)
        exact absurd (hfirst k' (by omega)) (by omega)
      · exact absurd (h.between m hj hi n) (by omega)
  · rintro ⟨h, hnever⟩
    refine ⟨h.before, ?_, fun m hj hi n => ?_⟩
    -- the first place above is there because the line ends above
    · have hends : ∃ n, bracesBefore lines j < bracesAt lines j n := by
        obtain ⟨n, -, hend⟩ := exists_bracesAt_eq lines j 0
        exact ⟨n, hend ▸ h.above (j + 1) (Nat.lt_succ_self j) h.before⟩
      refine ⟨Nat.find hends, fun n hn => Nat.le_of_not_lt (Nat.find_min hends hn), ?_⟩
      intro n hn
      by_contra hnot
      have hne : Nat.find hends ≠ n := fun heq => hnot (heq ▸ Nat.find_spec hends)
      exact hnever j (Nat.le_refl j) h.before
        ⟨n, Nat.le_of_not_lt hnot, fun _ => ⟨_, by omega, Nat.find_spec hends⟩⟩
    · by_contra hnot
      exact hnever m (Nat.le_of_lt hj) hi
        ⟨n, Nat.le_of_not_lt hnot, fun heq => absurd heq (by omega)⟩

/-! ## Open scopes -/

/-- The scope that begins on a line names the line. -/
lemma line_of_scopeAt? (h : scopeAt? lines j = some header) : header.tag.line = j := by
  rw [scopeAt?] at h
  split at h <;> cases h <;> rfl

/-- A scope is open at a line if it began before it and lasts up to it. -/
lemma mem_openAt : header ∈ openAt lines k ↔
    scopeAt? lines header.tag.line = some header ∧ Lasts lines header.tag.line k := by
  simp only [openAt, List.mem_filterMap, List.mem_reverse, List.mem_range,
    Option.filter_eq_some_iff, decide_eq_true_eq]
  constructor
  · rintro ⟨j, -, hscope, hlasts⟩
    obtain rfl := line_of_scopeAt? hscope
    exact ⟨hscope, hlasts⟩
  · rintro ⟨hscope, hlasts⟩
    exact ⟨header.tag.line, hlasts.before, hscope, hlasts⟩

/-- The scopes that last up to the next line are those of this line, and the one that begins here,
as far as their braces are not closed.

**Proof sketch.** The scopes that began before this line last up to the next one if they last up to
this one and the brace is not closed on it. What begins here lasts if its brace is open at the end
of the line. -/
lemma openAt_succ (lines : List (List Char)) (k : Nat) :
    openAt lines (k + 1) = ((scopeAt? lines k).toList ++ openAt lines k).filter fun header =>
      bracesBefore lines header.tag.line < bracesBefore lines (k + 1) := by
  have hlast : ((scopeAt? lines k).filter fun _ => Lasts lines k (k + 1))
      = (scopeAt? lines k).filter fun header =>
        bracesBefore lines header.tag.line < bracesBefore lines (k + 1) := by
    cases hscope : scopeAt? lines k with
    | none => rfl
    | some header => simp [Option.filter_some, lasts_self_succ, line_of_scopeAt? hscope]
  have hbefore : ∀ j ∈ (List.range k).reverse,
      ((scopeAt? lines j).filter fun _ => Lasts lines j (k + 1))
        = ((scopeAt? lines j).filter fun _ => Lasts lines j k).filter fun header =>
          bracesBefore lines header.tag.line < bracesBefore lines (k + 1) := by
    intro j hj
    have hj : j < k := List.mem_range.1 (List.mem_reverse.1 hj)
    cases hscope : scopeAt? lines j with
    | none => rfl
    | some header =>
      have hline := line_of_scopeAt? hscope
      by_cases hlasts : Lasts lines j k <;> simp [Option.filter_some, lasts_succ hj, hlasts, hline]
  rw [openAt, List.range_succ, List.reverse_append, List.reverse_singleton,
    List.filterMap_append, List.filter_append, openAt, List.filter_filterMap,
    List.filterMap_congr hbefore]
  congr 1
  rw [List.filterMap_cons, hlast]
  cases scopeAt? lines k with
  | none => rfl
  | some header =>
    by_cases hopen : bracesBefore lines header.tag.line < bracesBefore lines (k + 1) <;>
      simp [Option.filter_some, hopen]

/-- The scopes that last are told apart by the braces before them: fewer and fewer are open, from
the innermost scope outward.

**Proof sketch.** A scope that began further down began while the brace of the other one was open,
so more braces were open before it. -/
lemma pairwise_openAt (lines : List (List Char)) (k : Nat) :
    ((scopeAt? lines k).toList ++ openAt lines k).Pairwise fun inner outer =>
      bracesBefore lines outer.tag.line < bracesBefore lines inner.tag.line := by
  have hdescending : (openAt lines k).Pairwise fun inner outer =>
      outer.tag.line < inner.tag.line := by
    refine List.pairwise_filterMap.2 ((List.pairwise_reverse.2 List.pairwise_lt_range).imp ?_)
    intro j i hij inner hinner outer houter
    rw [line_of_scopeAt? (Option.filter_eq_some_iff.1 hinner).1,
      line_of_scopeAt? (Option.filter_eq_some_iff.1 houter).1]
    exact hij
  refine List.pairwise_append.2 ⟨?_, ?_, ?_⟩
  · cases scopeAt? lines k <;> simp
  · refine hdescending.imp_of_mem fun hinner houter hless => ?_
    exact (mem_openAt.1 houter).2.above _ hless (Nat.le_of_lt (mem_openAt.1 hinner).2.before)
  · intro inner hinner outer houter
    have hlasts := (mem_openAt.1 houter).2
    rw [line_of_scopeAt? (Option.mem_toList.1 hinner)]
    exact hlasts.above k hlasts.before (Nat.le_refl k)

/-! ## What is carried from line to line -/

/-- The frame by which the reader knows a scope. -/
def frameOf (lines : List (List Char)) (header : Header) : Frame :=
  ⟨bracesBefore lines header.tag.line, isClass header⟩

/-- The reader knows the open scopes, and has filed the elements of the first lines. -/
structure Knows (lines : List (List Char)) (opened : List Header) (k : Nat) (state : State)
    (d : Draft) : Prop where
  /-- The scopes are known by their frames. -/
  frames : state.frames = opened.map (frameOf lines)
  /-- The same scopes are open in the draft. -/
  held : holdersOf d.opened = nest (opened.map Header.tag)
  /-- The draft has the elements of the lines before. -/
  occurrences : d.occurrences.Perm ((List.range k).filterMap (reported? lines))

/-- The state and the draft before a line describe the scopes that last up to it. -/
structure Describes (lines : List (List Char)) (k : Nat) (state : State) (d : Draft) : Prop
    extends Knows lines (openAt lines k) k state d where
  /-- The braces are counted. -/
  braces : state.braces = bracesBefore lines k

section Reading

variable {state : State} {d d' : Draft} {opened : List Header} {kind : Kind} {name : String}

/-- What a line reports is added to what was reported before. -/
lemma perm_reported (h : d.occurrences.Perm ((List.range k).filterMap (reported? lines)))
    (hline : d'.occurrences.Perm (d.occurrences ++ (reported? lines k).toList)) :
    d'.occurrences.Perm ((List.range (k + 1)).filterMap (reported? lines)) := by
  rw [List.range_succ, List.filterMap_append]
  refine hline.trans ((h.append_right _).trans (List.Perm.of_eq ?_))
  cases hreported : reported? lines k <;> simp [hreported]

namespace Knows

/-- A line that reports nothing changes nothing. -/
lemma skip (h : Knows lines opened k state d) (hreported : reported? lines k = none) :
    Knows lines opened (k + 1) state d := by
  refine ⟨h.frames, h.held, perm_reported h.occurrences (List.Perm.of_eq ?_)⟩
  rw [hreported, Option.toList_none, List.append_nil]

/-- An element without members that the line reports is filed in the innermost scope. -/
lemma leaf (h : Knows lines (openAt lines k) k state d)
    (hreported : reported? lines k
      = some (Report.heldBy (holders lines k) ⟨kind, { name := name, line := k, kind := kind }⟩)) :
    Knows lines (openAt lines k) (k + 1) state (d.mark (.leaf kind name k)) := by
  refine ⟨h.frames, ?_, perm_reported h.occurrences ?_⟩
  · exact (Draft.holdersOf_file kind _ d).trans h.held
  · rw [hreported, holders, ← h.held]
    exact Draft.occurrences_file_leafOf kind name k d

/-- A scope that begins on the line stands in the innermost one. -/
lemma enter (h : Knows lines (openAt lines k) k state d) (header : Header)
    (hreported : reported? lines k
      = some (Report.heldBy (holders lines k) ⟨header.group, header.tag⟩)) :
    Knows lines (header :: openAt lines k) (k + 1)
      { state with frames := frameOf lines header :: state.frames } (d.mark (.enter header)) := by
  refine ⟨?_, ?_, perm_reported h.occurrences (List.Perm.of_eq ?_)⟩
  · rw [h.frames, List.map_cons]
  · have htag := (Draft.toClass_eq header).1
    show header.toClass.tag.heldBy (holdersOf d.opened) :: holdersOf d.opened = _
    rw [htag, h.held, List.map_cons, nest]
  · rw [Draft.occurrences_mark_enter, hreported, holders, ← h.held, Option.toList_some]

/-- The command of a line declares what the line reports, and opens the scope that begins there.

**Proof sketch.** Command by command. A namespace or a class opens a frame that knows the braces
before the line; a procedure is a leaf, and a method is one if the innermost scope is a class. All
other commands are skipped, and nothing is reported of their lines. -/
lemma declare (h : Knows lines (openAt lines k) k state d)
    (hbraces : state.braces = bracesBefore lines k) :
    let declared := Tcl.declare state k (command (trimStart (codeAt lines k)))
    Knows lines ((scopeAt? lines k).toList ++ openAt lines k) (k + 1) declared.1
      (d.marks declared.2) := by
  have hclass : state.frames.head?.any Frame.isClass = (openAt lines k).head?.any isClass := by
    rw [h.frames, List.head?_map, Option.any_map]
    rfl
  dsimp only
  cases hcommand : command (trimStart (codeAt lines k)) with
  | procedure name =>
    have hscope : scopeAt? lines k = none := by simp [scopeAt?, hcommand]
    rw [hscope, Tcl.declare]
    by_cases hname : name.isEmpty
    · rw [if_pos hname]
      exact h.skip (by simp [reported?, hcommand, Command.report?, hname])
    · rw [if_neg hname]
      exact h.leaf (by simp [reported?, hcommand, Command.report?, Command.report?.report, hname])
  | method name =>
    have hscope : scopeAt? lines k = none := by simp [scopeAt?, hcommand]
    rw [hscope, Tcl.declare, hclass]
    by_cases hname : ((openAt lines k).head?.any isClass && !name.isEmpty) = true
    · rw [if_pos hname]
      refine h.leaf ?_
      rw [reported?, hcommand, Command.report?, if_pos hname]
      rfl
    · rw [if_neg hname]
      refine h.skip ?_
      rw [reported?, hcommand, Command.report?, if_neg hname]
      rfl
  | nameSpace name =>
    have hscope : scopeAt? lines k = some (nameSpaceHeader name k) := by simp [scopeAt?, hcommand]
    have hframe : frameOf lines (nameSpaceHeader name k) = ⟨state.braces, false⟩ := by
      rw [hbraces]
      rfl
    rw [hscope, Tcl.declare, ← hframe]
    refine h.enter (nameSpaceHeader name k) ?_
    simp [reported?, hcommand, Command.report?, nameSpaceHeader]
  | classOf name =>
    have hscope : scopeAt? lines k = some (classHeader name k) := by simp [scopeAt?, hcommand]
    have hframe : frameOf lines (classHeader name k) = ⟨state.braces, true⟩ := by
      rw [hbraces]
      rfl
    rw [hscope, Tcl.declare, ← hframe]
    refine h.enter (classHeader name k) ?_
    simp [reported?, hcommand, Command.report?, classHeader]
  | other =>
    have hscope : scopeAt? lines k = none := by simp [scopeAt?, hcommand]
    rw [hscope]
    exact h.skip (by simp [reported?, hcommand, Command.report?])

/-- What began with as many braces or more is left.

**Proof sketch.** The braces fall from the innermost scope outward, so what is left is a beginning
of what is open, and the rest is what the filter keeps. Each scope that is left is left by one mark.
-/
lemma settle (h : Knows lines opened k state d)
    (hopened : opened.Pairwise fun inner outer =>
      bracesBefore lines outer.tag.line < bracesBefore lines inner.tag.line) (n : Nat) :
    Knows lines (opened.filter fun header => bracesBefore lines header.tag.line < n) k
      (Tcl.settle n state).1 (d.marks (Tcl.settle n state).2) := by
  let left := opened.takeWhile fun header => n ≤ bracesBefore lines header.tag.line
  have hsplit : opened = left ++ opened.dropWhile fun header =>
      n ≤ bracesBefore lines header.tag.line := List.takeWhile_append_dropWhile.symm
  have hleft : (Tcl.settle n state).2 = List.replicate left.length .leave := by
    rw [Tcl.settle, h.frames, List.takeWhile_map, List.length_map]
    rfl
  obtain ⟨hholders, hoccurrences⟩ := Draft.leave_replicate left.length d
  rw [← dropWhile_eq_filter hopened, hleft]
  refine ⟨?_, ?_, hoccurrences.trans h.occurrences⟩
  · rw [Tcl.settle, h.frames, List.dropWhile_map]
    rfl
  · have hlength : left.length = (left.map Header.tag).length := (List.length_map _).symm
    rw [hholders, h.held, congrArg (List.map Header.tag) hsplit, List.map_append, hlength,
      drop_nest]

end Knows

/-- A line without code leaves all as it was.

**Proof sketch.** Nothing counts on such a line and no command stands there, so the braces stay as
they are, all open scopes last, and nothing is reported. -/
lemma Describes.readLine_of_not_isCode {text : List Char} (h : Describes lines k state d)
    (htext : lines[k]? = some text) (hcode : isCode text = false) :
    Describes lines (k + 1) (Tcl.readLine state k text).1
      (d.marks (Tcl.readLine state k text).2) := by
  have hread : Tcl.readLine state k text = (state, []) := by
    rw [isCode, Bool.not_eq_false'] at hcode
    rw [Tcl.readLine, if_pos hcode]
  have hempty := codeAt_of_not_isCode htext hcode
  have hnext : bracesBefore lines (k + 1) = bracesBefore lines k := by
    rw [bracesBefore, hempty]
    rfl
  have hcommand : command (trimStart (codeAt lines k)) = .other := by
    rw [hempty]
    decide
  have hscope : scopeAt? lines k = none := by rw [scopeAt?, hcommand]
  have hopen : openAt lines (k + 1) = openAt lines k := by
    rw [openAt_succ, hscope, hnext]
    refine List.filter_eq_self.2 fun header hheader => decide_eq_true ?_
    have hlasts := (mem_openAt.1 hheader).2
    exact hlasts.above k hlasts.before (Nat.le_refl k)
  have hreported : reported? lines k = none := by
    rw [reported?, hcommand]
    rfl
  rw [hread]
  refine ⟨?_, h.braces.trans hnext.symm⟩
  rw [hopen]
  exact h.toKnows.skip hreported

/-- A line of code opens what its command declares, and then what began with as many braces or more
is left. -/
lemma Describes.readLine_of_isCode {text : List Char} (h : Describes lines k state d)
    (htext : lines[k]? = some text) (hcode : isCode text = true) :
    Describes lines (k + 1) (Tcl.readLine state k text).1
      (d.marks (Tcl.readLine state k text).2) := by
  have hread : Tcl.readLine state k text =
      let declared := Tcl.declare state k (command (trimStart (codeAt lines k)))
      let settled := Tcl.settle (bracesBefore lines (k + 1)) declared.1
      (settled.1, declared.2 ++ settled.2) := by
    have hnot : ¬ ((trimStart text).isEmpty
        || Language.tcl.comments.isLineComment (trimStart text)) = true := by
      rw [isCode, Bool.not_eq_true'] at hcode
      rw [hcode]
      decide
    rw [Tcl.readLine, if_neg hnot]
    simp only [bracesBefore, codeAt_of_isCode htext hcode, bracesAfter_eq, braces_declare, h.braces]
  rw [hread]
  dsimp only
  refine ⟨?_, rfl⟩
  rw [Draft.marks_append, openAt_succ]
  exact (h.toKnows.declare h.braces).settle (pairwise_openAt lines k) _

/-- **The reader keeps the scopes that last.** -/
theorem Describes.readLine {text : List Char} (h : Describes lines k state d)
    (htext : lines[k]? = some text) :
    Describes lines (k + 1) (Tcl.readLine state k text).1
      (d.marks (Tcl.readLine state k text).2) := by
  cases hcode : isCode text with
  | false => exact h.readLine_of_not_isCode htext hcode
  | true => exact h.readLine_of_isCode htext hcode

/-- Before the first line nothing is open and nothing is reported. -/
lemma describes_start (lines : List (List Char)) (legend : Legend) :
    Describes lines 0 {} { document := .withLegend legend } where
  frames := rfl
  held := rfl
  occurrences := by
    rw [Draft.occurrences, Document.occurrences_withLegend]
    exact List.Perm.refl _
  braces := rfl

/-- **What is carried to a line describes the scopes that last up to it.** -/
theorem describes_readLines (legend : Legend) (hk : k ≤ lines.length) :
    let before := readLines Tcl.readLine 0 {} (lines.take k)
    Describes lines k before.1 (Draft.marks { document := .withLegend legend } before.2) := by
  induction k with
  | zero => exact describes_start lines legend
  | succ k ih =>
    have htext : lines[k]? = some lines[k] := List.getElem?_eq_getElem hk
    rw [readLines_take_succ _ _ htext]
    dsimp only
    rw [Draft.marks_append]
    exact (ih (Nat.le_of_succ_le hk)).readLine htext

/-- What is filed is what the lines declare. -/
lemma occurrences_ofMarks_perm (lines : List (List Char)) :
    (Document.ofMarks legend (marks lines)).occurrences.Perm
      ((List.range lines.length).filterMap (reported? lines)) := by
  have hread := (describes_readLines legend (Nat.le_refl lines.length)).occurrences
  rw [List.take_length] at hread
  exact (Document.occurrences_ofMarks _ _).trans hread

/-- What a command reports is on its line. -/
lemma Command.line_of_report? {inClass : Bool} {command : Command} {r : Report}
    (h : command.report? inClass k = some r) : r.tag.line = k := by
  cases command <;> simp only [report?, Option.ite_none_left_eq_some,
    Option.ite_none_right_eq_some] at h
  case procedure => exact Option.some.inj h.2 ▸ rfl
  case method => exact Option.some.inj h.2 ▸ rfl
  case nameSpace => exact Option.some.inj h ▸ rfl
  case classOf => exact Option.some.inj h ▸ rfl
  case other => cases h

/-- What is reported of a line stands on that line, held by the scopes that last up to it. -/
lemma of_reported? {o : Occurrence} (h : reported? lines k = some o) :
    o.tag.line = k ∧ o.holders = holders lines k := by
  obtain ⟨r, hr, rfl⟩ := Option.map_eq_some_iff.1 h
  exact ⟨(Tag.line_heldBy _ r.tag).trans (Command.line_of_report? hr), rfl⟩

end Reading

/-- A scope holds what is declared on a line if it lasts up to that line. -/
lemma exists_mem_holders : (∃ holder ∈ holders lines i, holder.line = j) ↔
    (scopeAt? lines j).isSome = true ∧ Lasts lines j i := by
  have hlines : (∃ holder ∈ holders lines i, holder.line = j)
      ↔ j ∈ (holders lines i).map Tag.line := List.mem_map.symm
  rw [hlines, holders, map_line_nest, List.map_map, List.mem_map, Option.isSome_iff_exists]
  constructor
  · rintro ⟨header, hheader, rfl⟩
    obtain ⟨hscope, hlasts⟩ := mem_openAt.1 hheader
    exact ⟨⟨header, hscope⟩, hlasts⟩
  · rintro ⟨⟨header, hscope⟩, hlasts⟩
    obtain rfl := line_of_scopeAt? hscope
    exact ⟨header, mem_openAt.2 ⟨hscope, hlasts⟩, rfl⟩

end Tcl

namespace Language

/-- **The elements of a Tcl document are those that its lines declare.** Each line declares its
element once, held by the scopes that last up to it; a method is declared if the innermost of these
is a class. -/
theorem scan_tcl_perm (lines : List String) :
    (tcl.scan lines).occurrences.Perm
      ((List.range lines.length).filterMap (Tcl.reported? (lines.map String.toList))) := by
  have hlength : lines.length = (lines.map String.toList).length := by rw [List.length_map]
  rw [hlength]
  exact Tcl.occurrences_ofMarks_perm (lines.map String.toList)

/-- **An element is held by the scopes that last up to its line**: those before each of whose later
lines, up to that of the element, more braces are open than before the scope. Where the count of
braces never dips to what it was before the scope, and only there, this means that it stays above
it from the opening brace of the scope to the line of the element. -/
theorem scan_tcl_scopes {lines : List String} {o : Occurrence}
    (ho : o ∈ (tcl.scan lines).occurrences) (j : Nat) :
    let texts := lines.map String.toList
    ((∃ holder ∈ o.holders, holder.line = j) ↔
        (Tcl.scopeAt? texts j).isSome = true ∧ Tcl.Lasts texts j o.tag.line)
      ∧ (Tcl.StaysAbove texts j o.tag.line ↔
        Tcl.Lasts texts j o.tag.line ∧ ∀ m, j ≤ m → m < o.tag.line → ¬ Tcl.Dips texts j m) := by
  intro texts
  obtain ⟨k, -, hk⟩ := List.mem_filterMap.1 ((scan_tcl_perm lines).subset ho)
  obtain ⟨hline, hholders⟩ := Tcl.of_reported? hk
  rw [hholders, hline]
  exact ⟨Tcl.exists_mem_holders, Tcl.staysAbove_iff⟩

/-- A method of a class in a name space, behind braces in a literal and behind a backslash.

**Proof sketch.** The method is found in the document of the script, which is computed, and so are
the braces before each line. -/
theorem scan_tcl_scopes_method :
    let lines := ["namespace eval a \x7b", "oo::class create C \x7b", "set x \"\x7d\" \\\x7d",
      "method m \x7b\x7d \x7b\x7d", "\x7d", "\x7d"]
    ∃ o ∈ (tcl.scan lines).occurrences, o.tag.name = "m" ∧ o.tag.line = 3
      ∧ (∃ holder ∈ o.holders, holder.line = 0) ∧ Tcl.Lasts (lines.map String.toList) 1 3
      ∧ (Tcl.StaysAbove (lines.map String.toList) 0 3 ↔
        ∀ m, 0 ≤ m → m < 3 → ¬ Tcl.Dips (lines.map String.toList) 0 m) := by
  intro lines
  have ho : (⟨⟨"m", 3, .methods, some "C"⟩, .methods,
      [⟨"C", 1, .classes, some "a"⟩, ⟨"a", 0, .namespaces, none⟩]⟩ : Occurrence)
        ∈ (tcl.scan lines).occurrences := by
    decide +kernel
  obtain ⟨houter, hstays⟩ := scan_tcl_scopes ho 0
  obtain ⟨hinner, -⟩ := scan_tcl_scopes ho 1
  have hlasts : Tcl.Lasts (lines.map String.toList) 0 3 := by decide +kernel
  refine ⟨_, ho, rfl, rfl, houter.2 ⟨by decide +kernel, hlasts⟩,
    (hinner.1 ⟨_, List.mem_cons_self, rfl⟩).2, ?_⟩
  rw [hstays]
  exact and_iff_right hlasts

/-- A name space holds a procedure although its braces were closed, on a line that opens others. -/
theorem scan_tcl_dip :
    let lines := ["namespace eval a \x7b", "\x7d ; if \x7b$debug\x7d \x7b",
      "proc p \x7b\x7d \x7b\x7d", "\x7d"]
    ∃ o ∈ (tcl.scan lines).occurrences, o.tag.name = "p" ∧ o.tag.line = 2
      ∧ (∃ holder ∈ o.holders, holder.name = "a" ∧ holder.line = 0)
      ∧ ¬ Tcl.StaysAbove (lines.map String.toList) 0 2 := by
  intro lines
  have ho : (⟨⟨"p", 2, .procedures, some "a"⟩, .procedures, [⟨"a", 0, .namespaces, none⟩]⟩
      : Occurrence) ∈ (tcl.scan lines).occurrences := by
    decide +kernel
  refine ⟨_, ho, rfl, rfl, ⟨_, List.mem_cons_self, rfl, rfl⟩, fun hstays => ?_⟩
  have hdips : Tcl.Dips (lines.map String.toList) 0 1 :=
    ⟨1, by decide +kernel, fun h => absurd h (by decide)⟩
  exact (Tcl.staysAbove_iff.1 hstays).2 1 (by decide) (by decide) hdips

end Language

end Outliner
