import Mathlib.Data.List.Forall2
import Mathlib.Tactic.Lemma
import Outliner.Proofs.Forest
import Outliner.Proofs.Order.Marks

set_option autoImplicit false

/-!
# Sources in sections

In some languages a source is a list of sections. A header begins a section, and what the lines
behind it declare belongs to the section, up to the next header or to a line that ends the section.
So a line belongs to the section of the nearest header before it, unless the section was ended in
between.

## Main definitions

* `Outliner.Clause` — what a line says.
* `Outliner.Clause.ownerAt` — the section to which a line belongs.
* `Outliner.Clause.held` — what is declared in a section.
* `Outliner.Clause.IsSection` — an element that is made from a section.
* `Outliner.Clause.marks` — the marks of a source in sections.
* `Outliner.Clause.ReadAs` — a line that is read as what it says.

## Main results

* `Outliner.Clause.marksFrom_readLines` — when lines are read as a source in sections.
* `Outliner.Clause.ownerAt_eq_some_iff` — the nearest header decides.
* `Outliner.Clause.forgetLastClass_ofMarks` — a source in sections makes a forest of sections.
* `Outliner.Clause.get_ofMarks`, `Outliner.Clause.forall₂_isSection` — each section holds what is
  declared in it, and the top holds what is declared in none.
-/

namespace Outliner

namespace Construct

/-- What is filed in a class one after the other. -/
lemma fill_append (body : Class) (forest further : List Construct) :
    fill body (forest ++ further) = fill (fill body forest) further := by
  induction forest generalizing body with
  | nil => rw [fill, List.nil_append]
  | cons c forest ih => rw [List.cons_append, fill, fill, ih]

/-- Members do not change what is known of the class itself. -/
lemma tag_fill (body : Class) (forest : List Construct) : (fill body forest).tag = body.tag := by
  induction forest generalizing body with
  | nil => rw [fill]
  | cons c forest ih => exact ih (body.add c.group c.element)

end Construct

/-- What a line says where a source is a list of sections. -/
inductive Clause where
  /-- It is the header of a section. -/
  | opens (header : Header)
  /-- It ends the section to which it belongs. -/
  | closes
  /-- It declares elements without members: under the kind `owned` if it belongs to a section, and
  under the kind `free` if it belongs to none. -/
  | declares (owned free : Kind) (names : List String)

namespace Clause

/-- The line says nothing. -/
def silent : Clause := declares .vars .vars []

/-- The names of the kind that a line declares, which belongs to a section or to none. -/
def names (inside : Bool) (kind : Kind) : Clause → List String
  | declares owned free names => if (if inside then owned else free) = kind then names else []
  | _ => []

/-- What a line declares that belongs to a section or to none. -/
def declared (inside : Bool) (line : Nat) : Clause → List Construct
  | declares owned free names =>
    Construct.leaves (if inside then owned else free) (names.map fun name => (name, line))
  | _ => []

/-- The header to whose section the line belongs, given by its line: it is the nearest header before
the line, unless the section was ended in between. -/
def ownerAt (clauses : List Clause) : Nat → Option Nat
  | 0 => none
  | line + 1 =>
    match clauses[line]? with
    | some (opens _) => some line
    | some closes => none
    | _ => ownerAt clauses line

/-- The names of a kind with their lines, in the order of the source, that are declared on the lines
of one section or, where `owner` is none, of no section. -/
def held (clauses : List Clause) (owner : Option Nat) (kind : Kind) : List (String × Nat) :=
  clauses.zipIdx.flatMap fun (clause, line) =>
    if ownerAt clauses line = owner then
      (clause.names owner.isSome kind).map fun name => (name, line)
    else []

/-- The headers with their lines, in the order of the source. -/
def headers (clauses : List Clause) : List (Header × Nat) :=
  clauses.zipIdx.filterMap fun (clause, line) =>
    match clause with
    | opens header => some (header, line)
    | _ => none

/-- The element is made from the section of the header on the line: it holds what is declared in the
section and nothing else. -/
def IsSection (clauses : List Clause) (e : Element) (header : Header × Nat) : Prop :=
  ∃ c : Class, e.class? = some c ∧ c.tag = header.1.tag ∧
    ∀ kind, c.members.get kind = (held clauses (some header.2) kind).map fun entry =>
      (Draft.leafOf kind entry.1 entry.2).withinScope header.1.tag.name

/-- The marks of lines that follow each other, where the first one has the number `line` and belongs
to a section or to none. -/
def marksFrom (inside : Bool) (line : Nat) : List Clause → List Mark
  | [] => []
  | opens header :: clauses => .leave :: .enter header :: marksFrom true (line + 1) clauses
  | closes :: clauses => .leave :: .forget :: marksFrom false (line + 1) clauses
  | declares owned free names :: clauses =>
    Construct.marksOf ((declares owned free names).declared inside line)
      ++ marksFrom inside (line + 1) clauses

/-- The marks of a source in sections. -/
def marks (clauses : List Clause) : List Mark := marksFrom false 0 clauses

/-- What a line declares is marked on the line, under the kind for its place. -/
lemma marksFrom_declares (inside : Bool) (line : Nat) (owned free : Kind) (names : List String)
    (clauses : List Clause) :
    marksFrom inside line (declares owned free names :: clauses)
      = names.map (fun name => .leaf (if inside then owned else free) name line)
        ++ marksFrom inside (line + 1) clauses := by
  rw [marksFrom, declared, Construct.marksOf_leaves, List.map_map]
  rfl

/-- Lines that follow each other are read with numbers that follow each other. -/
lemma mapIdx_cons_from (read : Nat → List Char → Clause) (first : Nat) (text : List Char)
    (lines : List (List Char)) :
    (text :: lines).mapIdx (fun i => read (i + first))
      = read first text :: lines.mapIdx fun i => read (i + (first + 1)) := by
  rw [List.mapIdx_cons, Nat.zero_add]
  simp only [Nat.add_assoc, Nat.add_comm 1 first]

section Read

variable {σ : Type} {read : σ → Nat → List Char → σ × List Mark} {clause : Nat → List Char → Clause}
  {state : Bool → σ}

/-- The text is read as what it says, wherever it stands. The state of the reader is no more than
whether a section is open. -/
def ReadAs (read : σ → Nat → List Char → σ × List Mark) (clause : Nat → List Char → Clause)
    (state : Bool → σ) (text : List Char) : Prop :=
  ∀ inside line rest, ∃ inside', (read (state inside) line text).1 = state inside'
    ∧ marksFrom inside line (clause line text :: rest)
      = (read (state inside) line text).2 ++ marksFrom inside' (line + 1) rest

/-- **Lines are read as a source in sections** if each of them is read as what it says. -/
theorem marksFrom_readLines {lines : List (List Char)}
    (h : ∀ text ∈ lines, ReadAs read clause state text) (inside : Bool) (first : Nat) :
    (readLines read first (state inside) lines).2
      = marksFrom inside first (lines.mapIdx fun i => clause (i + first)) := by
  induction lines generalizing inside first with
  | nil => rfl
  | cons text lines ih =>
    obtain ⟨htext, hlines⟩ := List.forall_mem_cons.1 h
    rw [mapIdx_cons_from]
    obtain ⟨inside', hstate, hmarks⟩ := htext inside first
      (lines.mapIdx fun i => clause (i + (first + 1)))
    rw [hmarks, readLines, hstate, ih hlines]

end Read

/-! ## The nearest header -/

section Owner

variable {clauses : List Clause} {line n k : Nat}

/-- The line begins a section, or ends one. -/
def IsBoundary : Clause → Prop
  | declares .. => False
  | _ => True

/-- **A line belongs to the section of the nearest header before it**, if no section was begun or
ended in between.

**Proof sketch.** Induction on the line. If the line before it begins a section, that is the nearest
header. If it ends one, no header counts. Else the line belongs to what the line before it belongs
to, as that line is no boundary. -/
theorem ownerAt_eq_some_iff :
    ownerAt clauses line = some n ↔ n < line ∧ (∃ header, clauses[n]? = some (opens header))
      ∧ ∀ k, n < k → k < line → ∀ c, clauses[k]? = some c → ¬ c.IsBoundary := by
  induction line with
  | zero => simp [ownerAt]
  | succ line ih =>
    have hlast : ∀ c, clauses[line]? = some c → c.IsBoundary →
        (∀ k, n < k → k < line + 1 → ∀ c, clauses[k]? = some c → ¬ c.IsBoundary) → line ≤ n := by
      intro c hc hboundary hnone
      by_contra hless
      exact hnone line (by omega) line.lt_succ_self c hc hboundary
    rw [ownerAt]
    split
    -- the line before begins a section
    · next header hc =>
      constructor
      · rintro h
        obtain rfl : line = n := Option.some.inj h
        exact ⟨line.lt_succ_self, ⟨header, hc⟩, fun k hk hline => by omega⟩
      · rintro ⟨hn, -, hnone⟩
        have hle := hlast _ hc trivial hnone
        rw [show line = n by omega]
    -- it ends one
    · next hc =>
      refine iff_of_false (by simp) ?_
      rintro ⟨hn, ⟨header, hheader⟩, hnone⟩
      have hle := hlast _ hc trivial hnone
      obtain rfl : n = line := by omega
      rw [hc] at hheader
      cases hheader
    -- it is no boundary
    · next hopens hcloses =>
      have hother : ∀ c, clauses[line]? = some c → ¬ c.IsBoundary := by
        intro c hc
        cases c with
        | opens header => exact absurd hc (hopens header)
        | closes => exact absurd hc hcloses
        | declares => exact not_false
      rw [ih]
      constructor
      · rintro ⟨hn, hheader, hnone⟩
        refine ⟨hn.trans line.lt_succ_self, hheader, fun k hk hline => ?_⟩
        obtain rfl | hless : k = line ∨ k < line := by omega
        · exact hother
        · exact hnone k hk hless
      · rintro ⟨hn, ⟨header, hheader⟩, hnone⟩
        have hne : n ≠ line := by
          rintro rfl
          exact hother _ hheader trivial
        exact ⟨by omega, ⟨header, hheader⟩, fun k hk hline => hnone k hk (by omega)⟩

/-- A line belongs to a section whose header stands before it. -/
lemma lt_of_ownerAt (h : ownerAt clauses line = some n) : n < line := (ownerAt_eq_some_iff.1 h).1

/-- Behind the end of a section no line belongs to it. -/
lemma ownerAt_ne {c : Clause} (hk : clauses[k]? = some c) (hboundary : c.IsBoundary) (hn : n < k)
    (hline : k < line) : ownerAt clauses line ≠ some n :=
  fun h => (ownerAt_eq_some_iff.1 h).2.2 k hn hline c hk hboundary

end Owner

/-! ## Lines that follow each other -/

/-- What is declared in a section, or in none, on lines that follow each other. -/
def heldFrom (clauses : List Clause) (owner : Option Nat) (line : Nat) (rest : List Clause) :
    List Construct :=
  (rest.zipIdx line).flatMap fun (clause, line) =>
    if ownerAt clauses line = owner then clause.declared owner.isSome line else []

/-- What lines that follow each other declare at the top. A header declares its section. -/
def forestFrom (clauses : List Clause) (line : Nat) (rest : List Clause) : List Construct :=
  (rest.zipIdx line).flatMap fun (clause, line) =>
    match clause with
    | opens header => [.branch header (heldFrom clauses (some line) 0 clauses)]
    | clause => if ownerAt clauses line = none then clause.declared false line else []

/-- What a source in sections declares. -/
def forest (clauses : List Clause) : List Construct := forestFrom clauses 0 clauses

section Lines

variable {clauses rest : List Clause} {line : Nat} {c : Clause} {owner : Option Nat}

/-- What a line declares is held if the line belongs to the owner, and what follows is held as well.
-/
lemma heldFrom_cons (clauses : List Clause) (owner : Option Nat) (line : Nat) (c : Clause)
    (rest : List Clause) :
    heldFrom clauses owner line (c :: rest)
      = (if ownerAt clauses line = owner then c.declared owner.isSome line else [])
        ++ heldFrom clauses owner (line + 1) rest := by
  rw [heldFrom, List.zipIdx_cons, List.flatMap_cons]
  rfl

/-- A header holds what belongs to it, and what follows is filed behind it. -/
lemma forestFrom_opens (clauses : List Clause) (line : Nat) (header : Header)
    (rest : List Clause) :
    forestFrom clauses line (opens header :: rest)
      = .branch header (heldFrom clauses (some line) 0 clauses)
        :: forestFrom clauses (line + 1) rest := by
  rw [forestFrom, List.zipIdx_cons, List.flatMap_cons]
  rfl

/-- The end of a section files nothing. -/
lemma forestFrom_closes (clauses : List Clause) (line : Nat) (rest : List Clause) :
    forestFrom clauses line (closes :: rest) = forestFrom clauses (line + 1) rest := by
  rw [forestFrom, List.zipIdx_cons, List.flatMap_cons]
  simp [declared, forestFrom]

/-- What a line declares is filed at the top if it belongs to no section. -/
lemma forestFrom_declares (clauses : List Clause) (line : Nat) (owned free : Kind)
    (names : List String) (rest : List Clause) :
    forestFrom clauses line (declares owned free names :: rest)
      = (if ownerAt clauses line = none then (declares owned free names).declared false line
          else [])
        ++ forestFrom clauses (line + 1) rest := by
  rw [forestFrom, List.zipIdx_cons, List.flatMap_cons]
  rfl

/-- Lines of other sections declare nothing in this one. -/
lemma heldFrom_eq_nil (h : ∀ line', line ≤ line' → ownerAt clauses line' ≠ owner) :
    heldFrom clauses owner line rest = [] := by
  induction rest generalizing line with
  | nil => rfl
  | cons c rest ih =>
    rw [heldFrom_cons, if_neg (h line le_rfl), List.nil_append]
    exact ih fun line' hline => h line' (Nat.le_of_succ_le hline)

/-- What is declared in a section is declared behind its header.

**Proof sketch.** Induction on the line. A line in front of the header or with it belongs to no
section that begins at the header. -/
lemma heldFrom_behind {n : Nat} (hline : line ≤ n + 1) :
    heldFrom clauses (some n) line (clauses.drop line) = heldFrom clauses (some n) 0 clauses := by
  induction line with
  | zero => rfl
  | succ line ih =>
    rw [← ih (Nat.le_of_succ_le hline)]
    cases hrest : clauses.drop line with
    | nil =>
      have hnil : clauses.drop (line + 1) = [] := by
        rw [← List.tail_drop, hrest, List.tail_nil]
      rw [hnil]
      rfl
    | cons c rest =>
      have hother : ownerAt clauses line ≠ some n := fun h => by
        have := lt_of_ownerAt h
        omega
      rw [heldFrom_cons, if_neg hother, List.nil_append, ← List.tail_drop, hrest, List.tail_cons]

end Lines

/-! ## The document of a source in sections -/

/-- What was the last class makes no difference to what is filed later. -/
lemma foldl_forgetLastClass (forest : List Construct) (document : Document) :
    (forest.foldl .addConstruct document.forgetLastClass).forgetLastClass
      = (forest.foldl .addConstruct document).forgetLastClass := by
  induction forest generalizing document with
  | nil => rfl
  | cons c forest ih =>
    rw [List.foldl_cons, List.foldl_cons, ← ih, document.addConstruct_forgetLastClass, ih]

section Document

variable {clauses : List Clause}

/-- The draft in which the section of the header is open, and what `filed` says is filed in it. -/
def within (document : Document) (header : Header) (filed : List Construct) : Draft :=
  ⟨document, [⟨header.group, Construct.fill header.toClass filed⟩]⟩

/-- Leaving a section files it. -/
lemma leave_within (document : Document) (header : Header) (filed : List Construct) :
    (within document header filed).leave = ⟨document.addConstruct (.branch header filed), []⟩ :=
  Draft.leave_eq_fileConstruct ⟨document, []⟩ header filed

/-- The marks of lines that follow each other file what the lines declare: first what belongs to the
section that is open, and then, one after the other, what they declare at the top. -/
structure Files (clauses : List Clause) (line : Nat) (rest : List Clause) : Prop where
  /-- Where no section is open. -/
  top : ownerAt clauses line = none → ∀ document : Document,
    (Draft.marks ⟨document, []⟩ (marksFrom false line rest)).finish.forgetLastClass
      = ((forestFrom clauses line rest).foldl .addConstruct document).forgetLastClass
  /-- Where the section of line `n` is open. -/
  inside : ∀ n, ownerAt clauses line = some n → ∀ (document : Document) (header : Header)
    (filed : List Construct),
    ((within document header filed).marks (marksFrom true line rest)).finish.forgetLastClass
      = ((.branch header (filed ++ heldFrom clauses (some n) line rest)
          :: forestFrom clauses line rest).foldl .addConstruct document).forgetLastClass

variable {rest : List Clause} {line : Nat}

/-- At the end of the source the open section is filed. -/
lemma files_nil : Files clauses line [] where
  top _ document := rfl
  inside n _ document header filed := by
    show (within document header filed).leave.document.forgetLastClass = _
    rw [leave_within]
    simp [heldFrom, forestFrom]

/-- Behind the end of a section nothing is declared in it. -/
lemma heldFrom_boundary {c : Clause} (hc : clauses[line]? = some c) (hboundary : c.IsBoundary)
    {n : Nat} (hn : ownerAt clauses line = some n) :
    heldFrom clauses (some n) line (c :: rest) = [] := by
  have hlater : heldFrom clauses (some n) (line + 1) rest = [] :=
    heldFrom_eq_nil fun line' hline => ownerAt_ne hc hboundary (lt_of_ownerAt hn) hline
  rw [heldFrom_cons, hlater]
  cases c with
  | declares => exact hboundary.elim
  | _ => simp [declared]

/-- A header files the section that is open and opens its own, to which what is declared behind it
belongs.

**Proof sketch.** The header leaves the section before it, if one is open, and files it. What
follows is read within the new section, which holds just what is declared behind its header
(`heldFrom_behind`). -/
lemma Files.opens {header : Header} (hdrop : clauses.drop line = opens header :: rest)
    (hc : clauses[line]? = some (.opens header)) (h : Files clauses (line + 1) rest) :
    Files clauses line (.opens header :: rest) := by
  have howner : ownerAt clauses (line + 1) = some line := by
    rw [ownerAt, hc]
  have hheld : heldFrom clauses (some line) (line + 1) rest
      = heldFrom clauses (some line) 0 clauses := by
    have hrest : clauses.drop (line + 1) = rest := by
      rw [← List.tail_drop, hdrop, List.tail_cons]
    rw [← hrest, heldFrom_behind le_rfl]
  have hopens : ∀ document : Document,
      ((within document header []).marks (marksFrom true (line + 1) rest)).finish.forgetLastClass
        = ((forestFrom clauses line (.opens header :: rest)).foldl .addConstruct
            document).forgetLastClass := by
    intro document
    rw [h.inside line howner, forestFrom_opens, List.nil_append, hheld]
  refine ⟨fun _ document => hopens document, fun n hn document outer filed => ?_⟩
  have hleave : (within document outer filed).marks (marksFrom true line (.opens header :: rest))
      = (within (document.addConstruct (.branch outer filed)) header []).marks
          (marksFrom true (line + 1) rest) := by
    rw [marksFrom, Draft.marks_cons, Draft.mark, leave_within, Draft.marks_cons]
    rfl
  rw [hleave, hopens, heldFrom_boundary hc trivial hn, List.append_nil, List.foldl_cons]

/-- The end of a section files it.

**Proof sketch.** The section that is open is left and filed, and what follows is read at the top,
where no section is open. -/
lemma Files.closes (hc : clauses[line]? = some .closes) (h : Files clauses (line + 1) rest) :
    Files clauses line (.closes :: rest) := by
  have howner : ownerAt clauses (line + 1) = none := by
    rw [ownerAt, hc]
  have hcloses : ∀ document : Document,
      (Draft.marks ⟨document.forgetLastClass, []⟩
          (marksFrom false (line + 1) rest)).finish.forgetLastClass
        = ((forestFrom clauses line (.closes :: rest)).foldl .addConstruct
            document).forgetLastClass := by
    intro document
    rw [h.top howner, forestFrom_closes, foldl_forgetLastClass]
  refine ⟨fun _ document => hcloses document, fun n hn document header filed => ?_⟩
  have hleave : (within document header filed).marks (marksFrom true line (.closes :: rest))
      = Draft.marks ⟨(document.addConstruct (.branch header filed)).forgetLastClass, []⟩
          (marksFrom false (line + 1) rest) := by
    rw [marksFrom, Draft.marks_cons, Draft.mark, leave_within, Draft.marks_cons]
    rfl
  rw [hleave, hcloses, heldFrom_boundary hc trivial hn, List.append_nil, List.foldl_cons]

/-- What a line declares is filed in the open section, or else at the top.

**Proof sketch.** At the top the names are filed at once, in front of what follows. In a section
they are added to what it holds, and what follows adds to that. -/
lemma Files.declares {owned free : Kind} {names : List String}
    (hc : clauses[line]? = some (.declares owned free names)) (h : Files clauses (line + 1) rest) :
    Files clauses line (.declares owned free names :: rest) := by
  have howner : ownerAt clauses (line + 1) = ownerAt clauses line := by
    rw [ownerAt, hc]
  constructor
  case top =>
    intro hnone document
    rw [marksFrom, Draft.marks_append, Draft.marks_marksOf, Draft.foldl_fileConstruct_top,
      h.top (howner.trans hnone), forestFrom_declares, if_pos hnone, List.foldl_append]
  case inside =>
    intro n hn document header filed
    have hfile : (within document header filed).marks
          (Construct.marksOf ((Clause.declares owned free names).declared true line))
        = within document header
            (filed ++ (Clause.declares owned free names).declared true line) := by
      rw [Draft.marks_marksOf, within, Draft.foldl_fileConstruct_opened, within,
        Construct.fill_append]
    rw [marksFrom, Draft.marks_append, hfile, h.inside n (howner.trans hn), forestFrom_declares,
      heldFrom_cons, if_pos hn, hn, if_neg (by simp), List.append_assoc]
    rfl

/-- **Lines that follow each other file what they declare.**

**Proof sketch.** Induction on the lines that are left, by what the first of them does. -/
lemma files_of_drop : ∀ rest line, clauses.drop line = rest → Files clauses line rest := by
  intro rest
  induction rest with
  | nil => exact fun line _ => files_nil
  | cons c rest ih =>
    intro line hdrop
    have hc : clauses[line]? = some c := by
      rw [← List.head?_drop, hdrop]
      rfl
    have hrest : Files clauses (line + 1) rest := by
      refine ih (line + 1) ?_
      rw [← List.tail_drop, hdrop, List.tail_cons]
    cases c with
    | opens header => exact hrest.opens hdrop hc
    | closes => exact hrest.closes hc
    | declares owned free names => exact hrest.declares hc

/-- **A source in sections makes a forest of sections**, up to which class was the last one.

**Proof sketch.** Induction on the lines that are left, with a lemma for each kind of line: outside
sections a header only opens its section, and in a section it files that section first. Behind the
header the lines that belong to its section are those that declare in it, and behind the next one
there are none. -/
theorem forgetLastClass_ofMarks (legend : Legend) (clauses : List Clause) :
    (Document.ofMarks legend (marks clauses)).forgetLastClass
      = (Document.ofForest legend (forest clauses)).forgetLastClass := by
  have hfiles : Files clauses 0 clauses := files_of_drop clauses 0 rfl
  exact hfiles.top rfl (.withLegend legend)

/-! ## Groups of a source in sections -/

variable {kind : Kind}

/-- Each group is that of the forest. -/
lemma get_ofMarks_forest (legend : Legend) (clauses : List Clause) (kind : Kind) :
    (Document.ofMarks legend (marks clauses)).get kind
      = ((forest clauses).filter (·.group = kind)).map Construct.element := by
  have hscope := congrArg Document.scope (forgetLastClass_ofMarks legend clauses)
  rw [← Document.get_ofForest legend]
  exact congrArg (fun scope : Scope Element => scope.get kind) hscope

/-- What a line declares of a kind. -/
lemma filter_declared (inside : Bool) (line : Nat) (c : Clause) (kind : Kind) :
    (c.declared inside line).filter (·.group = kind)
      = Construct.leaves kind ((c.names inside kind).map fun name => (name, line)) := by
  cases c with
  | declares owned free names =>
    rw [declared, Clause.names]
    generalize (if inside then owned else free) = kind'
    by_cases hkind : kind' = kind
    · simp [hkind, Construct.leaves, Construct.group, List.filter_map, Function.comp_def]
    · simp [hkind, Construct.leaves, Construct.group, List.filter_map, Function.comp_def]
  | _ => rfl

/-- What a line declares of a kind, if it belongs to the section. -/
lemma filter_ite_declared (p : Prop) [Decidable p] (inside : Bool) (line : Nat) (c : Clause)
    (kind : Kind) :
    (if p then c.declared inside line else []).filter (·.group = kind)
      = Construct.leaves kind
          (if p then (c.names inside kind).map fun name => (name, line) else []) := by
  split
  · exact filter_declared inside line c kind
  · rfl

/-- What is declared of a kind in a section. -/
lemma filter_heldFrom (clauses : List Clause) (owner : Option Nat) (kind : Kind) :
    (heldFrom clauses owner 0 clauses).filter (·.group = kind)
      = Construct.leaves kind (held clauses owner kind) := by
  rw [heldFrom, held, Construct.leaves, List.filter_flatMap, List.map_flatMap]
  refine List.flatMap_congr ?_
  rintro ⟨c, line⟩ -
  exact filter_ite_declared _ owner.isSome line c kind

/-- What is declared of a kind at the top, if it is no kind of sections. -/
lemma filter_forest (hheaders : ∀ header, opens header ∈ clauses → header.group ≠ kind) :
    (forest clauses).filter (·.group = kind) = Construct.leaves kind (held clauses none kind) := by
  rw [forest, forestFrom, held, Construct.leaves, List.filter_flatMap, List.map_flatMap]
  refine List.flatMap_congr ?_
  rintro ⟨c, line⟩ hmem
  cases c with
  | opens header =>
    have hgroup : header.group ≠ kind := hheaders header (List.fst_mem_of_mem_zipIdx hmem)
    simp [Construct.group, hgroup, Clause.names]
  | closes => exact filter_ite_declared _ false line .closes kind
  | declares owned free names =>
    exact filter_ite_declared _ false line (.declares owned free names) kind

/-- The sections, if nothing else is of their kind.

**Proof sketch.** Clause by clause: a header is such a section, the end of a section is nothing, and
what a line declares is of another kind. -/
lemma filter_forest_headers (hheaders : ∀ header, opens header ∈ clauses → header.group = kind)
    (hdeclares : ∀ owned free names, declares owned free names ∈ clauses → free ≠ kind) :
    (forest clauses).filter (·.group = kind)
      = (headers clauses).map fun header =>
          .branch header.1 (heldFrom clauses (some header.2) 0 clauses) := by
  rw [forest, forestFrom, headers, List.filter_flatMap, List.filterMap_eq_flatMap_toList,
    List.map_flatMap]
  refine List.flatMap_congr ?_
  rintro ⟨c, line⟩ hmem
  cases c with
  | opens header =>
    have hgroup : header.group = kind := hheaders header (List.fst_mem_of_mem_zipIdx hmem)
    simp [Construct.group, hgroup]
  | closes => simp [declared]
  | declares owned free names =>
    have hfree : free ≠ kind := hdeclares owned free names (List.fst_mem_of_mem_zipIdx hmem)
    show (if ownerAt clauses line = none then (declares owned free names).declared false line
      else []).filter (·.group = kind) = []
    rw [filter_ite_declared]
    simp [Clause.names, hfree, Construct.leaves]

/-- The elements made from names are leaves. -/
lemma map_element_leaves (kind : Kind) (entries : List (String × Nat)) :
    (Construct.leaves kind entries).map Construct.element
      = entries.map fun entry => Draft.leafOf kind entry.1 entry.2 := by
  rw [Construct.leaves, List.map_map]
  refine List.map_congr_left fun entry _ => ?_
  rw [Function.comp_apply, Construct.element]

/-- **The top holds what is declared in no section.** -/
theorem get_ofMarks (legend : Legend)
    (hheaders : ∀ header, opens header ∈ clauses → header.group ≠ kind) :
    (Document.ofMarks legend (marks clauses)).get kind
      = (held clauses none kind).map fun entry => Draft.leafOf kind entry.1 entry.2 := by
  rw [get_ofMarks_forest, filter_forest hheaders, map_element_leaves]

/-- What is made from a section holds what is declared in it.

**Proof sketch.** The element is the class of the header, filled with what belongs to it. Its
members of a kind are the names of this kind that belong to the header, within the scope of its
name. -/
lemma isSection_branch (header : Header) (n : Nat) :
    IsSection clauses (Construct.branch header (heldFrom clauses (some n) 0 clauses)).element
      (header, n) := by
  have hempty := Draft.toClass_eq header
  refine ⟨Construct.fill header.toClass (heldFrom clauses (some n) 0 clauses), ?_, ?_,
    fun kind => ?_⟩
  · rw [Construct.element, Element.class?_ofClass]
  · rw [Construct.tag_fill, hempty.1]
  · have hmembers : header.toClass.members.get kind = [] := by
      rw [Scope.get, Scope.group?, Draft.groups_toClass]
      rfl
    have hname : header.toClass.name = header.tag.name := congrArg Tag.name hempty.1
    have hleaves := map_element_leaves kind (held clauses (some n) kind)
    rw [Construct.get_fill, hmembers, List.nil_append, filter_heldFrom, hname]
    simpa [Function.comp_def] using
      congrArg (List.map (Element.withinScope header.tag.name)) hleaves

/-- **Each section holds what is declared in it**, and the sections stand in the order of their
headers. -/
theorem forall₂_isSection (legend : Legend)
    (hheaders : ∀ header, opens header ∈ clauses → header.group = kind)
    (hdeclares : ∀ owned free names, declares owned free names ∈ clauses → free ≠ kind) :
    List.Forall₂ (IsSection clauses) ((Document.ofMarks legend (marks clauses)).get kind)
      (headers clauses) := by
  rw [get_ofMarks_forest, filter_forest_headers hheaders hdeclares, List.map_map,
    List.forall₂_map_left_iff, List.forall₂_same]
  exact fun header _ => isSection_branch header.1 header.2

end Document

end Clause

end Outliner
