import Mathlib.Tactic.Lemma
import Outliner.Scan
import Outliner.Proofs.Checked.ByCharacter
import Outliner.Proofs.LastClass
import Outliner.Proofs.Php.Lexing

set_option autoImplicit false

/-!
# The open class of a PHP source

A class of a PHP source is filed as soon as its brace is opened, and it stays the last class until
this brace is closed. What is recognised in its body is recorded in the last class; if there were
none, it would be lost. Here is the reading of a source moment by moment, where the document is
known at each moment and each open brace is known with the class that it began.

## Main definitions

* `Outliner.Php.fileNow` — what a mark does to the document at once.
* `Outliner.Php.Moment`, `Outliner.Php.Reached` — the moments of reading a source.
* `Outliner.Php.Effect` — what one step can do.
* `Outliner.Php.Moment.Outside`, `Outliner.Php.Moment.Inside` — no class is open, or one is.

## Main results

* `Outliner.Document.modifyLastClass_addClass` — to change the class just added is to add the
  changed one.
* `Outliner.Php.step_effect` — a step has one of these effects.
* `Outliner.Php.Reached.steady` — at every moment either no class is open or one is.
* `Outliner.Php.Reached.open_class` — the last class is the class of the brace that began it, and
  what is recognised in its body is recorded there.
-/

namespace Outliner

/-! ## The class just added -/

/-- To change the item just filed is to file the changed one. -/
lemma Group.revise_file {α : Type} (kind : Kind) (item : α) (change : α → α)
    (groups : List (Group α)) :
    Group.revise kind
        (List.modify · (((groups.find? (·.kind == kind)).map Group.items).getD []).length change)
        (Group.file kind item groups)
      = Group.file kind (change item) groups := by
  induction groups with
  | nil => simp [Group.file, Group.revise]
  | cons group groups ih =>
    by_cases hkind : group.kind = kind
    · simp [Group.file, Group.revise, hkind, List.modify_eq_take_drop]
    · simpa [Group.file, Group.revise, hkind] using ih

/-- To change the item just added is to add the changed one. -/
lemma Scope.modifyAt_add {α : Type} (kind : Kind) (item : α) (change : α → α) (s : Scope α) :
    (s.add kind item).modifyAt kind (s.get kind).length change = s.add kind (change item) := by
  rw [modifyAt, modify, add, add, get, group?]
  dsimp only
  rw [Group.revise_file]

/-- To change the class just added is to add the changed one. -/
lemma Document.modifyLastClass_addClass (change : Class → Class) (c : Class) (d : Document) :
    (d.addClass c).modifyLastClass change = d.addClass (change c) := by
  rw [modifyLastClass, addClass]
  dsimp only
  rw [modifyClassAt]
  dsimp only
  rw [Scope.modifyAt_add]
  rfl

namespace Php

/-! ## Moments -/

/-- What a mark does to the document at once. A member is recorded in the last class, and nowhere if
there is none. -/
def fileNow (d : Document) : Mark → Document
  | .leaf kind name line =>
    if kind = .methods ∨ kind = .vars then
      d.modifyLastClass (·.add kind (Draft.leafOf kind name line))
    else d.add kind (Draft.leafOf kind name line)
  | .enter header => d.addClass header.toClass
  | .forget => d.forgetLastClass
  | _ => d

/-- A class that a brace began. -/
structure Opening where
  /-- The header of the class. -/
  header : Header
  /-- The place of the class among the classes of the document. -/
  place : Nat

/-- A moment in the reading of a source. -/
structure Moment where
  /-- What is carried along. -/
  state : State := {}
  /-- The marks found so far. -/
  found : List Mark := []
  /-- The open braces, the innermost first, each with the class that it began, if it began one. -/
  braces : List (Option Opening) := []

namespace Moment

/-- The document at the moment. -/
def document (m : Moment) : Document := m.found.foldl fileNow (.withLegend legend)

/-- The class that begins where the marks are found. -/
def opening? (m : Moment) (found : List Mark) : Option Opening :=
  found.findSome? fun
    | .enter header => some ⟨header, (m.document.get .classes).length⟩
    | _ => none

/-- The moment after a step to a state, with what the step found. Where more braces are open than
before, one was opened, and where fewer are, the innermost was closed. -/
def next (m : Moment) (state : State) (found : List Mark) : Moment where
  state := state
  found := m.found ++ found
  braces :=
    if m.state.braces < state.braces then m.opening? found :: m.braces
    else if state.braces < m.state.braces then m.braces.tail
    else m.braces

end Moment

/-- The moment is reached in reading the lines: in front of the line of the number, or on it at a
cursor. -/
inductive Reached (lines : List (List Char)) : Nat → Option Cursor → Moment → Prop
  /-- The source is read from its beginning on. -/
  | start : Reached lines 0 none {}
  /-- A line may declare a property before it is walked along. -/
  | line {i : Nat} {m : Moment} {text : List Char} (h : Reached lines i none m)
      (htext : lines[i]? = some text) :
      Reached lines i (some (.start text)) (m.next m.state (propertyMarks m.state i text))
  /-- A step is made at the next character. -/
  | step {i : Nat} {c : Cursor} {ch : Char} {m : Moment} (h : Reached lines i (some c) m)
      (hch : c.peek? = some ch) :
      Reached lines i (some (step i m.state c ch).cursor)
        (m.next (step i m.state c ch).state (step i m.state c ch).found)
  /-- At its end a line is left. -/
  | next {i : Nat} {c : Cursor} {m : Moment} (h : Reached lines i (some c) m)
      (hend : c.peek? = none) : Reached lines (i + 1) none m

/-! ## What a step can do -/

/-- What one step can do: the state after it, and what it found. -/
inductive Effect (s : State) : State → List Mark → Prop
  /-- Nothing that counts. -/
  | silent {s' : State} (hbraces : s'.braces = s.braces)
      (hclass : s'.classBraces = s.classBraces) : Effect s s' []
  /-- A function or a name space where no class is open. -/
  | top {kind : Kind} (name : String) (line : Nat) (hkind : kind ≠ .methods ∧ kind ≠ .vars)
      (houtside : s.classBraces = none ∨ s.braces = 0) : Effect s s [.leaf kind name line]
  /-- A method or a property directly in the body of a class. -/
  | member {kind : Kind} (name : String) (line : Nat) (hkind : kind = .methods ∨ kind = .vars)
      (hlevel : s.atMemberLevel = true) : Effect s s [.leaf kind name line]
  /-- A brace that begins no class. -/
  | opens {s' : State} (hbraces : s'.braces = s.braces + 1)
      (hclass : s'.classBraces = s.classBraces) : Effect s s' []
  /-- A brace that begins a class. -/
  | begins {s' : State} (name : List Char) (line : Nat) (houtside : s.classBraces = none)
      (hbraces : s'.braces = s.braces + 1) (hclass : s'.classBraces = some s.braces) :
      Effect s s' [.enter (classHeader name line)]
  /-- A closing brace that ends no class. -/
  | closes {s' : State} (hbraces : s'.braces = s.braces - 1)
      (hclass : s'.classBraces = s.classBraces) (hother : s.classBraces ≠ some s'.braces) :
      Effect s s' []
  /-- A closing brace that ends the class. -/
  | ends {s' : State} (hbraces : s'.braces = s.braces - 1)
      (hinside : s.classBraces = some s'.braces) (hclass : s'.classBraces = none) :
      Effect s s' [.leave, .forget]

/-- A step may do nothing. -/
lemma Effect.refl (s : State) : Effect s s [] := .silent rfl rfl

/-- Marking a function is a member of the open class, or stands outside classes. -/
lemma functionMarks_effect (s : State) (name : List Char) (line : Nat) :
    Effect s s (functionMarks s name line) := by
  rw [functionMarks]
  split
  · split
    · next hlevel => exact .member _ _ (.inl rfl) hlevel
    · exact .refl s
  · next houtside =>
    exact .top _ _ ⟨by decide, by decide⟩ (.inl (by simpa using houtside))

/-- A step at a word has one of the effects. -/
lemma wordStep_effect (line : Nat) (s : State) (c : Cursor) :
    Effect s (wordStep line s c).state (wordStep line s c).found := by
  simp only [wordStep]
  split_ifs with _ _ _ hspace _
  · exact .refl s
  · split
    · exact .silent rfl rfl
    · exact .refl s
  · split
    · exact functionMarks_effect s _ line
    · exact .refl s
  · exact .refl s
  · exact .top _ _ ⟨by decide, by decide⟩ (.inr hspace.2)
  · exact .refl s

/-- An opening brace has one of the effects. -/
lemma openBrace_effect (s : State) : Effect s (openBrace s).1 (openBrace s).2 := by
  rw [openBrace]
  split
  · next houtside => exact .begins _ _ houtside rfl rfl
  · exact .opens rfl rfl

/-- A closing brace has one of the effects. -/
lemma closeBrace_effect (s : State) : Effect s (closeBrace s).1 (closeBrace s).2 := by
  simp only [closeBrace]
  split
  · next hinside => exact .ends rfl hinside rfl
  · next hother => exact .closes rfl rfl hother

/-- A step in code has one of the effects. -/
lemma codeStep_effect (line : Nat) (s : State) (c : Cursor) (ch : Char) :
    Effect s (codeStep line s c ch).state (codeStep line s c ch).found := by
  simp only [codeStep]
  split_ifs
  · exact .silent rfl rfl
  · exact .silent rfl rfl
  · exact .refl s
  · exact .refl s
  · exact .silent rfl rfl
  · exact openBrace_effect s
  · exact closeBrace_effect s
  · exact .silent rfl rfl
  · exact wordStep_effect line s c
  · exact .refl s

/-- **A step has one of the effects.** -/
theorem step_effect (line : Nat) (s : State) (c : Cursor) (ch : Char) :
    Effect s (step line s c ch).state (step line s c ch).found := by
  simp only [step]
  split
  · split
    · exact .silent rfl rfl
    · exact .refl s
  · split
    · exact .silent rfl rfl
    · exact .refl s
  · split
    · exact .silent rfl rfl
    · exact .refl s
  · exact codeStep_effect line s c ch

/-- Marking the properties of a line has one of the effects. -/
lemma propertyMarks_effect (s : State) (line : Nat) (text : List Char) :
    Effect s s (propertyMarks s line text) := by
  rw [propertyMarks]
  split
  · next h =>
    cases propertyName? text with
    | none => exact .refl s
    | some name => exact .member _ _ (.inr rfl) h.2
  · exact .refl s

/-! ## Outside and inside a class -/

namespace Moment

/-- What the marks found so far make. -/
def draft (m : Moment) : Draft := Draft.marks { document := .withLegend legend } m.found

/-- No class is open. -/
structure Outside (m : Moment) : Prop where
  /-- None is in the state. -/
  state : m.state.classBraces = none
  /-- No open brace began one. -/
  braces : m.braces = List.replicate m.state.braces none
  /-- Nothing but the document was made. -/
  draft : m.draft = ⟨m.document, []⟩
  /-- No class is the last one. -/
  forgotten : m.document.lastClassIndex = none

/-- A class is open. It began where `outer` braces were open, it holds the members met so far, and
`filed` is the document without it. -/
structure Inside (m : Moment) (opening : Opening) (inner outer : Nat) (c : Class)
    (filed : Document) : Prop where
  /-- The braces around the class are in the state. -/
  state : m.state.classBraces = some outer
  /-- So are all braces. -/
  count : m.state.braces = inner + 1 + outer
  /-- One open brace began the class, and no other one began any. -/
  braces : m.braces = List.replicate inner none ++ some opening :: List.replicate outer none
  /-- The class is all that is open. -/
  draft : m.draft = ⟨filed, [⟨.classes, c⟩]⟩
  /-- It is the class added last. -/
  document : m.document = filed.addClass c
  /-- It stands behind all other classes. -/
  place : opening.place = (filed.get .classes).length
  /-- It is known as its header says. -/
  tag : c.tag = opening.header.tag

/-- No class is open, or one is. -/
def Steady (m : Moment) : Prop :=
  m.Outside ∨ ∃ opening inner outer c filed, m.Inside opening inner outer c filed

variable {m : Moment} {opening : Opening} {inner outer : Nat} {c : Class} {filed : Document}
  {s' : State} {found : List Mark}

/-- The document goes on with what is found. -/
lemma document_next (m : Moment) (state : State) (found : List Mark) :
    (m.next state found).document = found.foldl fileNow m.document := by
  rw [document, next, List.foldl_append]
  rfl

/-- The draft goes on with what is found. -/
lemma draft_next (m : Moment) (state : State) (found : List Mark) :
    (m.next state found).draft = m.draft.marks found := by
  rw [draft, next, Draft.marks_append]
  rfl

/-- The open braces stay if their number does. -/
lemma braces_next_same (h : s'.braces = m.state.braces) : (m.next s' found).braces = m.braces := by
  rw [next, h, if_neg (Nat.lt_irrefl _), if_neg (Nat.lt_irrefl _)]

/-- A brace is open behind the opening brace. -/
lemma braces_next_open (h : s'.braces = m.state.braces + 1) :
    (m.next s' found).braces = m.opening? found :: m.braces := by
  rw [next, h, if_pos (Nat.lt_succ_self _)]

/-- Where no brace is open, none can be closed. -/
lemma braces_next_close (hlength : m.braces.length = m.state.braces)
    (h : s'.braces = m.state.braces - 1) : (m.next s' found).braces = m.braces.tail := by
  rw [next, h, if_neg (by omega)]
  by_cases hpos : m.state.braces - 1 < m.state.braces
  · rw [if_pos hpos]
  · have hnil : m.braces = [] := List.eq_nil_of_length_eq_zero (by omega)
    rw [if_neg hpos, hnil]
    rfl

/-- Where no class is open, the open braces are as many as the state says. -/
lemma Outside.length (h : m.Outside) : m.braces.length = m.state.braces := by
  rw [h.braces, List.length_replicate]

/-- Where a class is open, the open braces are as many as the state says. -/
lemma Inside.length (h : m.Inside opening inner outer c filed) :
    m.braces.length = m.state.braces := by
  rw [h.braces, h.count, List.length_append, List.length_cons, List.length_replicate,
    List.length_replicate]
  omega

/-- The open braces are as many as the state says. -/
lemma Steady.length (h : m.Steady) : m.braces.length = m.state.braces := by
  rcases h with h | ⟨_, _, _, _, _, h⟩
  · exact h.length
  · exact h.length

/-- A step that finds nothing and changes no brace. -/
lemma Steady.silent (h : m.Steady) (hbraces : s'.braces = m.state.braces)
    (hclass : s'.classBraces = m.state.classBraces) : (m.next s' []).Steady := by
  have hdocument : (m.next s' []).document = m.document := m.document_next s' []
  have hdraft : (m.next s' []).draft = m.draft := m.draft_next s' []
  have hstack : (m.next s' []).braces = m.braces := braces_next_same hbraces
  rcases h with h | ⟨opening, inner, outer, c, filed, h⟩
  · refine .inl ⟨hclass.trans h.state, ?_, ?_, ?_⟩
    · rw [hstack, h.braces, ← hbraces]
      rfl
    · rw [hdraft, hdocument, h.draft]
    · rw [hdocument, h.forgotten]
  · exact .inr ⟨opening, inner, outer, c, filed, hclass.trans h.state, hbraces.trans h.count,
      hstack.trans h.braces, hdraft.trans h.draft, hdocument.trans h.document, h.place, h.tag⟩

/-- What is found outside classes is filed at the top. -/
lemma Outside.top (h : m.Outside) {kind : Kind} (hkind : kind ≠ .methods ∧ kind ≠ .vars)
    (name : String) (line : Nat) : (m.next m.state [.leaf kind name line]).Outside where
  state := h.state
  braces := (braces_next_same rfl).trans h.braces
  draft := by
    rw [draft_next, document_next, h.draft]
    show Draft.mk _ _ = ⟨fileNow m.document (.leaf kind name line), []⟩
    rw [fileNow, if_neg (by simp [hkind])]
  forgotten := by
    rw [document_next]
    show (fileNow m.document (.leaf kind name line)).lastClassIndex = none
    rw [fileNow, if_neg (by simp [hkind])]
    exact h.forgotten

/-- What is found in the body of a class is recorded in the class.

**Proof sketch.** No brace changes, and the leaf is added to the open class of the draft. In the
document the class is the one added last, so recording the member there is adding the class with the
member. -/
lemma Inside.member (h : m.Inside opening inner outer c filed) {kind : Kind}
    (hkind : kind = .methods ∨ kind = .vars) (name : String) (line : Nat) :
    (m.next m.state [.leaf kind name line]).Inside opening inner outer
      (c.add kind (Draft.leafOf kind name line)) filed where
  state := h.state
  count := h.count
  braces := (braces_next_same rfl).trans h.braces
  draft := by
    rw [draft_next, h.draft]
    rfl
  document := by
    rw [document_next, h.document]
    show fileNow (filed.addClass c) (.leaf kind name line) = _
    rw [fileNow, if_pos hkind, Document.modifyLastClass_addClass]
  place := h.place
  tag := h.tag

/-- Another brace is opened.

**Proof sketch.** One more brace is open that began no class, outside a class or within its body.
The document and the draft stay. -/
lemma Steady.opens (h : m.Steady) (hbraces : s'.braces = m.state.braces + 1)
    (hclass : s'.classBraces = m.state.classBraces) : (m.next s' []).Steady := by
  have hdocument : (m.next s' []).document = m.document := m.document_next s' []
  have hdraft : (m.next s' []).draft = m.draft := m.draft_next s' []
  have hstack : (m.next s' []).braces = none :: m.braces := braces_next_open hbraces
  rcases h with h | ⟨opening, inner, outer, c, filed, h⟩
  · refine .inl ⟨hclass.trans h.state, ?_, ?_, ?_⟩
    · show _ = List.replicate s'.braces none
      rw [hstack, h.braces, hbraces, List.replicate_succ]
    · rw [hdraft, hdocument, h.draft]
    · rw [hdocument, h.forgotten]
  · refine .inr ⟨opening, inner + 1, outer, c, filed, hclass.trans h.state, ?_, ?_,
      hdraft.trans h.draft, hdocument.trans h.document, h.place, h.tag⟩
    · show s'.braces = _
      have hcount := h.count
      omega
    · rw [hstack, h.braces, List.replicate_succ, List.cons_append]

/-- A brace begins a class.

**Proof sketch.** The braces that are open count from now on as those around the class. The class is
open in the draft and added to the document. -/
lemma Outside.begins (h : m.Outside) (name : List Char) (line : Nat)
    (hbraces : s'.braces = m.state.braces + 1) (hclass : s'.classBraces = some m.state.braces) :
    (m.next s' [.enter (classHeader name line)]).Inside
      ⟨classHeader name line, (m.document.get .classes).length⟩ 0 m.state.braces
      (classHeader name line).toClass m.document where
  state := hclass
  count := by
    show s'.braces = _
    omega
  braces := by
    rw [braces_next_open hbraces, h.braces]
    rfl
  draft := by
    rw [draft_next, h.draft]
    rfl
  document := m.document_next s' _
  place := rfl
  tag := rfl

/-- A brace is closed that did not begin the class.

**Proof sketch.** Outside a class one of the braces is gone. Inside a class, the count of the braces
tells that the one that is closed was opened in its body, as it is not the one that began the class.
-/
lemma Steady.closes (h : m.Steady) (hbraces : s'.braces = m.state.braces - 1)
    (hclass : s'.classBraces = m.state.classBraces)
    (hother : m.state.classBraces ≠ some s'.braces) : (m.next s' []).Steady := by
  have hdocument : (m.next s' []).document = m.document := m.document_next s' []
  have hdraft : (m.next s' []).draft = m.draft := m.draft_next s' []
  have hstack : (m.next s' []).braces = m.braces.tail := braces_next_close h.length hbraces
  rcases h with h | ⟨opening, inner, outer, c, filed, h⟩
  · refine .inl ⟨hclass.trans h.state, ?_, ?_, ?_⟩
    · show _ = List.replicate s'.braces none
      rw [hstack, h.braces, hbraces, List.tail_replicate]
    · rw [hdraft, hdocument, h.draft]
    · rw [hdocument, h.forgotten]
  · have hcount := h.count
    have hne : outer ≠ s'.braces := by
      rintro rfl
      exact hother h.state
    cases inner with
    | zero => omega
    | succ inner =>
      refine .inr ⟨opening, inner, outer, c, filed, hclass.trans h.state, ?_, ?_,
        hdraft.trans h.draft, hdocument.trans h.document, h.place, h.tag⟩
      · show s'.braces = _
        omega
      · rw [hstack, h.braces]
        rfl

/-- The brace is closed that began the class.

**Proof sketch.** The count of the braces tells that no brace is open in the body. The draft files
the class, which is then where the document has it. -/
lemma Inside.ends (h : m.Inside opening inner outer c filed)
    (hbraces : s'.braces = m.state.braces - 1) (hinside : m.state.classBraces = some s'.braces)
    (hclass : s'.classBraces = none) : (m.next s' [.leave, .forget]).Outside where
  state := hclass
  braces := by
    have houter : outer = s'.braces := Option.some.inj (h.state.symm.trans hinside)
    have hinner : inner = 0 := by
      have hcount := h.count
      omega
    rw [braces_next_close h.length hbraces, h.braces, hinner, houter]
    rfl
  draft := by
    rw [draft_next, document_next, h.draft, h.document]
    rfl
  forgotten := by
    rw [document_next]
    rfl

/-- **Whatever a step does, no class is open after it, or one is.** -/
theorem Steady.effect (h : m.Steady) (heffect : Effect m.state s' found) :
    (m.next s' found).Steady := by
  cases heffect with
  | silent hbraces hclass => exact h.silent hbraces hclass
  | top name line hkind houtside =>
    rcases h with h | ⟨opening, inner, outer, c, filed, h⟩
    · exact .inl (h.top hkind name line)
    · -- a class is not open outside braces
      rcases houtside with houtside | houtside
      · rw [h.state] at houtside
        exact absurd houtside (by simp)
      · have hcount := h.count
        omega
  | member name line hkind hlevel =>
    rcases h with h | ⟨opening, inner, outer, c, filed, h⟩
    · rw [State.atMemberLevel, h.state] at hlevel
      exact absurd hlevel (by simp)
    · exact .inr ⟨_, _, _, _, _, h.member hkind name line⟩
  | opens hbraces hclass => exact h.opens hbraces hclass
  | begins name line houtside hbraces hclass =>
    rcases h with h | ⟨opening, inner, outer, c, filed, h⟩
    · exact .inr ⟨_, _, _, _, _, h.begins name line hbraces hclass⟩
    · rw [h.state] at houtside
      exact absurd houtside (by simp)
  | closes hbraces hclass hother => exact h.closes hbraces hclass hother
  | ends hbraces hinside hclass =>
    rcases h with h | ⟨opening, inner, outer, c, filed, h⟩
    · rw [h.state] at hinside
      exact absurd hinside (by simp)
    · exact .inl (h.ends hbraces hinside hclass)

end Moment

/-! ## The moments of a source -/

variable {lines : List (List Char)} {i : Nat} {place : Option Cursor} {m : Moment}

/-- **At every moment either no class is open or one is.** -/
theorem Reached.steady (h : Reached lines i place m) : m.Steady := by
  induction h with
  | start =>
    have hlast : (Document.withLegend legend).lastClassIndex = none := by decide
    exact .inl ⟨rfl, rfl, rfl, hlast⟩
  | line h htext ih => exact ih.effect (propertyMarks_effect _ _ _)
  | step h hch ih => exact ih.effect (step_effect _ _ _ _)
  | next h hend ih => exact ih

/-- What the rest of the reading of a line makes of the moment. -/
def Moment.afterLine (m : Moment) (line : Nat) : Option Cursor → State × List Mark
  | none => (m.state, m.found)
  | some c =>
    let walked := Cursor.walk (step line) m.state c
    (walked.1, m.found ++ walked.2)

/-- The number of lines of which something is read. -/
def linesRead (i : Nat) : Option Cursor → Nat
  | none => i
  | some _ => i + 1

/-- The moments of a source are those of reading it line by line.

**Proof sketch.** Induction along the moments. At the beginning of a line what the line declares is
found, and by each step the rest of the walk becomes shorter by that step, since a step moves on. -/
theorem Reached.reads (h : Reached lines i place m) :
    linesRead i place ≤ lines.length
      ∧ m.afterLine i place = readLines readLine 0 {} (lines.take (linesRead i place)) := by
  induction h with
  | start => exact ⟨Nat.zero_le _, rfl⟩
  | @line i m text h htext ih =>
    have hreads : (m.state, m.found) = readLines readLine 0 {} (lines.take i) := ih.2
    obtain ⟨hi, -⟩ := List.getElem?_eq_some_iff.1 htext
    have hlength : (lines.take i).length = i := List.length_take_of_le (Nat.le_of_lt hi)
    have htake : lines.take (i + 1) = lines.take i ++ [text] := by
      rw [List.take_add_one, htext]
      rfl
    refine ⟨hi, ?_⟩
    rw [linesRead, htake, readLines_append, hlength, Nat.zero_add, ← hreads]
    simp [Moment.afterLine, Moment.next, readLines, readLine]
  | @step i c ch m h hch ih =>
    obtain ⟨hi, hreads⟩ := ih
    refine ⟨hi, ?_⟩
    obtain ⟨rest, hafter⟩ := List.head?_eq_some_iff.1 hch
    have hmoves := Cursor.length_after_of_advances hch (step_runs i m.state hch).advances
    rw [linesRead] at hreads ⊢
    rw [← hreads]
    simp only [Moment.afterLine, Moment.next]
    rw [Cursor.walk_step _ _ hafter hmoves, List.append_assoc]
  | @next i c m h hend ih =>
    obtain ⟨hi, hreads⟩ := ih
    have hafter : c.after = [] := List.head?_eq_none_iff.1 hend
    refine ⟨hi, Eq.trans ?_ hreads⟩
    simp only [Moment.afterLine]
    rw [Cursor.walk_end _ _ hafter, List.append_nil]

/-- A line that is being read is read to its end. -/
lemma Reached.exists_next {c : Cursor} (h : Reached lines i (some c) m) :
    ∃ m', Reached lines (i + 1) none m' := by
  induction hn : c.after.length using Nat.strong_induction_on generalizing c m with
  | _ n ih =>
    cases hch : c.peek? with
    | none => exact ⟨m, h.next hch⟩
    | some ch =>
      have hmoves := Cursor.length_after_of_advances hch (step_runs i m.state hch).advances
      exact ih _ (hn ▸ hmoves) (h.step hch) rfl

/-- Every line of a source is reached. -/
lemma exists_reached (hi : i ≤ lines.length) : ∃ m, Reached lines i none m := by
  induction i with
  | zero => exact ⟨{}, .start⟩
  | succ i ih =>
    obtain ⟨m, hm⟩ := ih (Nat.le_of_succ_le hi)
    exact (hm.line (List.getElem?_eq_getElem hi)).exists_next

/-- At the end of the source the document is that of the source. -/
lemma Reached.document_eq (h : Reached lines lines.length none m) :
    m.document = Document.ofMarks legend (marks lines) := by
  obtain ⟨-, hreads⟩ := h.reads
  have hfound : m.found = marks lines := by
    rw [linesRead, List.take_length] at hreads
    exact congrArg Prod.snd hreads
  have hfinish : m.draft.finish = m.document := by
    rcases h.steady with h | ⟨opening, inner, outer, c, filed, h⟩
    · rw [h.draft]
      rfl
    · rw [h.draft, h.document]
      rfl
  rw [← hfinish, Moment.draft, hfound]
  rfl

/-! ## What is recognised in the body of a class -/

/-- The function that is declared at the cursor: the word there is the keyword, it is no access to a
member, a blank follows it, and then a name, perhaps with an ampersand in front. -/
def functionName? (c : Cursor) : Option (List Char) :=
  let (word, after) := c.identifier
  let isMember := c.previous?.any fun before => before == '$' || before == ':' || before == '>'
  if word = "function".toList ∧ isMember = false ∧ after.peek?.any isBlank = true then
    (identifierAt (after.skipBlanks.eat ['&'])).1
  else none

/-- In code a function that is declared at the beginning of a word is found.

**Proof sketch.** At the beginning of a word the step is that of the word. The word is `function`
and a blank follows it, so the name behind it is marked. -/
lemma step_function {s : State} {c : Cursor} {ch : Char} {name : List Char}
    (hmode : s.mode = .code) (hch : c.peek? = some ch) (hstart : c.isAtWordStart = true)
    (hname : functionName? c = some name) (line : Nat) :
    (step line s c ch).found = functionMarks s name line := by
  simp only [functionName?] at hname
  split at hname
  · next hword =>
    obtain ⟨hword, hmember, hblank⟩ := hword
    obtain ⟨rest, hafter⟩ := List.head?_eq_some_iff.1 hch
    have hletters : (ch :: rest).takeWhile isIdentifierChar = "function".toList := hafter ▸ hword
    have hletter : isIdentifierChar ch = true := by
      by_contra hletter
      rw [List.takeWhile_cons_of_neg hletter] at hletters
      exact absurd hletters (by decide)
    rw [step_word hmode hafter hletter hstart, wordStep]
    rcases hname' : identifierAt (c.identifier.2.skipBlanks.eat ['&']) with ⟨found, after⟩
    obtain rfl : found = some name := by rw [← hname, hname']
    simp [hword, hmember, hblank, hname', classKeywords]
  · exact absurd hname (by simp)

/-- The element is recorded in the last class, and nothing else changes in the document. -/
def Moment.Records (m m' : Moment) (kind : Kind) (name : List Char) (line : Nat) : Prop :=
  ∃ place c, m.document.lastClassIndex = some place
    ∧ m.document.DiffersAt place c (c.add kind (Draft.leafOf kind (.ofList name) line)) m'.document

/-- A member found in the body of a class is recorded there.

**Proof sketch.** The class is the last one of the document, at the place behind all classes filed
before. Filing the member changes the class at this place and no other. -/
lemma Moment.Inside.records {opening : Opening} {inner outer : Nat} {c : Class} {filed : Document}
    (h : m.Inside opening inner outer c filed) {kind : Kind}
    (hkind : kind = .methods ∨ kind = .vars) (state : State) (name : List Char) (line : Nat) :
    m.Records (m.next state [.leaf kind (.ofList name) line]) kind name line := by
  have hindex : m.document.lastClassIndex = some (filed.get .classes).length := by
    rw [h.document]
    rfl
  have hplace : (m.document.get .classes)[(filed.get .classes).length]? = some (.ofClass c) := by
    simp [h.document, Document.get, Document.addClass, Scope.get_add]
  have hnext : (m.next state [.leaf kind (.ofList name) line]).document
      = m.document.modifyClassAt (filed.get .classes).length
        (·.add kind (Draft.leafOf kind (.ofList name) line)) := by
    rw [document_next]
    show fileNow m.document (.leaf kind (.ofList name) line) = _
    rw [fileNow, if_pos hkind, Document.modifyLastClass, hindex]
  refine ⟨_, c, hindex, ?_⟩
  rw [hnext]
  exact Document.differsAt_modifyClassAt hplace _

/-- At the level of the members of a class a class is open. -/
lemma Moment.Steady.inside (h : m.Steady) (hlevel : m.state.atMemberLevel = true) :
    ∃ opening inner outer c filed, m.Inside opening inner outer c filed := by
  rcases h with h | h
  · rw [State.atMemberLevel, h.state] at hlevel
    exact absurd hlevel (by simp)
  · exact h

/-- **The last class is the class that is open.** At every moment of reading a source there is a
last class if and only if a class is open in the state. Then more braces are open than there were
before the brace of this class, and the last class is the one that this brace began; no other open
brace began any, so that no two classes are open at once. A function or a property recognised
directly in the body of the class is recorded in this class. At the end of the source the document
is that of the source.

**Proof sketch.** By `step_effect` a step changes the braces, the class and the document in one of a
few ways, and each of them leaves a moment outside of all classes or inside one
(`Moment.Steady.effect`). -/
theorem Reached.open_class (h : Reached lines i place m) :
    (m.document.lastClass?.isSome ↔ m.state.classBraces.isSome)
    ∧ m.braces.length = m.state.braces
    ∧ (∀ outer, m.state.classBraces = some outer → outer < m.state.braces
        ∧ ∃ opening c, m.braces.reverse[outer]? = some (some opening)
          ∧ m.document.lastClassIndex = some opening.place
          ∧ m.document.lastClass? = some c ∧ c.tag = opening.header.tag)
    ∧ m.braces.countP Option.isSome = (if m.state.classBraces.isSome then 1 else 0)
    ∧ (∀ c ch name, place = some c → c.peek? = some ch → m.state.mode = .code →
        m.state.atMemberLevel = true → c.isAtWordStart = true → functionName? c = some name →
        m.Records (m.next (Php.step i m.state c ch).state (Php.step i m.state c ch).found)
          .methods name i)
    ∧ (∀ text name, place = none → lines[i]? = some text → m.state.mode = .code →
        m.state.atMemberLevel = true → propertyName? text = some name →
        m.Records (m.next m.state (propertyMarks m.state i text)) .vars name i)
    ∧ (place = none → i = lines.length →
        m.document = Language.php.scan (lines.map String.ofList)) := by
  have hsteady := h.steady
  refine ⟨?_, hsteady.length, ?_, ?_, ?_, ?_, ?_⟩
  -- whether there is a last class
  · rcases hsteady with h | ⟨opening, inner, outer, c, filed, h⟩
    · rw [h.state, Document.lastClass?, h.forgotten]
      rfl
    · rw [h.state, h.document, Document.lastClass?_addClass]
      rfl
  -- which class is the last one
  · intro outer houter
    rcases hsteady with h | ⟨opening, inner, around, c, filed, h⟩
    · rw [h.state] at houter
      exact absurd houter (by simp)
    · obtain rfl : around = outer := Option.some.inj (h.state.symm.trans houter)
      have hcount := h.count
      refine ⟨by omega, opening, c, ?_, ?_, ?_, h.tag⟩
      · rw [h.braces]
        simp
      · rw [h.document, h.place]
        rfl
      · rw [h.document, Document.lastClass?_addClass]
  -- one class is open at most
  · rcases hsteady with h | ⟨opening, inner, outer, c, filed, h⟩
    · rw [h.state, h.braces]
      simp [List.countP_replicate]
    · rw [h.state, h.braces]
      simp [List.countP_append, List.countP_replicate]
  -- a function in the body of the class
  · intro c ch name _ hch hmode hlevel hstart hname
    obtain ⟨opening, inner, outer, body, filed, h⟩ := hsteady.inside hlevel
    have hfound : (Php.step i m.state c ch).found = [.leaf .methods (.ofList name) i] := by
      rw [step_function hmode hch hstart hname, functionMarks, h.state, hlevel]
      rfl
    rw [hfound]
    exact h.records (.inl rfl) _ name i
  -- a property there
  · intro text name _ _ hmode hlevel hname
    obtain ⟨opening, inner, outer, body, filed, h⟩ := hsteady.inside hlevel
    have hfound : propertyMarks m.state i text = [.leaf .vars (.ofList name) i] := by
      rw [propertyMarks, if_pos ⟨hmode, hlevel⟩, hname]
      rfl
    rw [hfound]
    exact h.records (.inr rfl) _ name i
  · rintro rfl rfl
    have hlines : (lines.map String.ofList).map String.toList = lines := by
      simp [Function.comp_def]
    rw [h.document_eq]
    show _ = Document.ofMarks legend (marks _)
    rw [hlines]

/-- In front of its property the class is open, and the property is recorded in it. -/
theorem Reached.open_class_property :
    let lines := ["<?php class A \x7b".toList, "public $x;".toList]
    ∃ m, Reached lines 1 none m ∧ m.state.classBraces = some 0 ∧ m.document.lastClass?.isSome
      ∧ m.Records (m.next m.state (propertyMarks m.state 1 "public $x;".toList)) .vars "x".toList
        1 := by
  intro lines
  obtain ⟨m, hm⟩ : ∃ m, Reached lines 1 none m := exists_reached (by decide)
  have hstate : m.state = ⟨.code, 1, some 0, none⟩ := by
    have hreads : m.state = (readLines readLine 0 {} (lines.take 1)).1 :=
      congrArg Prod.fst hm.reads.2
    rw [hreads]
    decide +kernel
  obtain ⟨hlast, -, -, -, -, hproperty, -⟩ := hm.open_class
  refine ⟨m, hm, by rw [hstate], hlast.2 (by rw [hstate]; rfl), ?_⟩
  exact hproperty _ _ rfl rfl (by rw [hstate]) (by rw [hstate]; rfl) (by decide +kernel)

end Php

end Outliner
