import Mathlib.Tactic.Lemma
import Outliner.Proofs.Scan
import Outliner.Proofs.Verilog.Bodies

set_option autoImplicit false

/-!
# Text substitutions of Verilog sources

A directive that begins with `define` begins the header of a text substitution, outside the bodies
of tasks and functions. The first word behind it is its name. The header does not go on at the end
of the line, nor behind a sign at which headers end, and words between braces do not count. So each
substitution that is reported was begun by such a directive on its line, and each that was begun in
this way is reported.

The directive is told by its first letters. Where more letters follow directly, the rest of its
identifier is passed over, and the substitution is reported all the same.

## Main definitions

* `Outliner.Verilog.Moment.Awaits` — the header of a substitution was begun, and its name is still
  to come.
* `Outliner.Verilog.Substitution`, `Outliner.Verilog.Substitution.Declared` — a substitution, and
  that a source declares it.

## Main results

* `Outliner.Verilog.Moment.Awaits.defines`, `Outliner.Verilog.Reached.awaits` — the header of a
  substitution is being read from its directive on, and nowhere else.
* `Outliner.Verilog.act_macros` — where a token reports a substitution.
* `Outliner.Language.scan_verilog_macros` — the substitutions of a document are those that its
  source declares.
-/

namespace Outliner

namespace Verilog

open Relation (ReflTransGen)

/-! ## Headers of substitutions -/

/-- Whether the token neither names a substitution nor ends its header nor begins another one. -/
def Token.isPassedOver : Token → Bool
  | .word _ | .sign _ | .definition => false
  | _ => true

/-- The header of a substitution that began on the line is being read, outside bodies, and its name
is still to come. -/
structure State.Defines (s : State) (line : Nat) : Prop where
  /-- No body is passed over. -/
  body : s.body = none
  /-- The header is being read, and it has no words. -/
  header : ∃ owner, s.header = some ⟨.definition, line, [], owner⟩

/-- The header of a substitution is being read. -/
def State.IsDefining (s : State) : Prop :=
  ∃ header, s.header = some header ∧ header.declared = .definition

section Headers

variable {s : State} {line n : Nat} {token : Token}

/-- Without a header no substitution is being read. -/
lemma State.not_isDefining_of_none (h : s.header = none) : ¬ s.IsDefining := by
  rintro ⟨header, hheader, -⟩
  cases h.symm.trans hheader

/-- A header that declares something else is not one of a substitution. -/
lemma State.not_isDefining_of_some {header : PartialHeader} (h : s.header = some header)
    (hdeclared : header.declared ≠ .definition) : ¬ s.IsDefining := by
  rintro ⟨other, hother, hdefinition⟩
  obtain rfl := Option.some.inj (h.symm.trans hother)
  exact hdeclared hdefinition

/-- The header goes on behind a token that is passed over.

**Proof sketch.** By the token. A word is passed over only between braces, where it does nothing.
The double colon forgets the owner, and all other tokens that are passed over leave the header
alone. -/
lemma State.Defines.act (h : s.Defines n)
    (htoken : (token.counted s.braces).all Token.isPassedOver = true) (line : Nat) :
    (Verilog.act line s token).1.Defines n := by
  obtain ⟨owner, hheader⟩ := h.header
  cases token with
  | word text =>
    have hbraces : s.braces > 0 := by
      by_contra hnot
      rw [Token.counted, if_neg hnot] at htoken
      cases htoken
    have hskips : Verilog.act line s (.word text) = (s, []) := by
      rw [Verilog.act, word, h.body]
      exact if_pos hbraces
    rw [hskips]
    exact h
  | colons =>
    refine ⟨h.body, none, ?_⟩
    show s.header.map _ = _
    rw [hheader]
    rfl
  | sign ch => cases htoken
  | definition => cases htoken
  | _ => exact ⟨h.body, owner, hheader⟩

/-- A word outside headers begins no substitution. -/
lemma not_isDefining_freeWord (hnone : s.header = none) (line : Nat) (text : String) :
    ¬ (freeWord s line text).1.IsDefining := by
  obtain ⟨declared, h, hdeclared, -⟩ | ⟨outer, h⟩ | h := freeWord_cases s line text
  · rw [h]
    exact State.not_isDefining_of_some rfl hdeclared
  · rw [h]
    exact State.not_isDefining_of_none hnone
  · rw [h]
    exact State.not_isDefining_of_none hnone

/-- A word of a header leaves no header of a substitution. -/
lemma not_isDefining_headerWord (s : State) (header : PartialHeader) (text : String) :
    ¬ (headerWord s header text).1.IsDefining := by
  obtain ⟨next, h, -, hnext⟩ | ⟨next, h, -⟩ := headerWord_cases s header text
  · rw [h]
    exact State.not_isDefining_of_some rfl hnext
  · rw [h]
    exact State.not_isDefining_of_none (header_endHeader _)

/-- **The header of a substitution that is being read behind a token** was begun by the token, a
directive outside bodies, or it was being read before and the token is passed over.

**Proof sketch.** By the token. A word ends the header or goes on with it, outside braces, and
begins none of this kind. A sign ends the header, and a directive begins one unless a body is passed
over. All others leave the header alone. -/
theorem act_isDefining (hsealed : s.Sealed) (h : (act line s token).1.IsDefining) :
    (token = .definition ∧ s.body = none)
      ∨ (s.IsDefining ∧ (token.counted s.braces).all Token.isPassedOver = true) := by
  cases token with
  | word text =>
    rw [act, word] at h
    cases hbody : s.body with
    | some routine =>
      -- in a body no header is being read
      have hnone := hsealed (Option.isSome_iff_exists.2 ⟨routine, hbody⟩)
      obtain ⟨header, hheader, -⟩ := h
      rw [hbody] at hheader
      dsimp only at hheader
      split_ifs at hheader <;> (rw [hnone] at hheader; cases hheader)
    | none =>
      rw [hbody] at h
      dsimp only at h
      split_ifs at h with hbraces
      · rw [Token.counted, if_pos hbraces]
        exact .inr ⟨h, rfl⟩
      · split at h
        · exact absurd h (not_isDefining_headerWord s _ text)
        · next hheader => exact absurd h (not_isDefining_freeWord hheader line text)
  | colons =>
    obtain ⟨header, hheader, hdeclared⟩ := h
    obtain ⟨before, hbefore, rfl⟩ := Option.map_eq_some_iff.1 hheader
    exact .inr ⟨⟨before, hbefore, hdeclared⟩, rfl⟩
  | sign ch =>
    obtain ⟨header, hheader, -⟩ := h
    rw [act] at hheader
    split_ifs at hheader <;> (rw [header_endHeader] at hheader; cases hheader)
  | definition =>
    cases hbody : s.body with
    | none => exact .inl ⟨rfl, rfl⟩
    | some routine =>
      have hnone := hsealed (Option.isSome_iff_exists.2 ⟨routine, hbody⟩)
      obtain ⟨header, hheader, -⟩ := h
      rw [act, hbody] at hheader
      cases hnone.symm.trans hheader
  | _ => exact .inr ⟨h, rfl⟩

/-! ## Where substitutions are reported -/

/-- The end of a header that declares something else reports no substitution.

**Proof sketch.** By what the header declares: a design unit is entered under a kind of its own, and
a routine is a leaf or a method of another kind. -/
lemma endHeader_macros (h : ¬ s.IsDefining) :
    ∀ mark ∈ (endHeader s).2, mark.All fun r => r.group ≠ .macros := by
  intro mark hmark
  unfold endHeader at hmark
  cases hheader : s.header with
  | none =>
    rw [hheader] at hmark
    cases hmark
  | some header =>
    rw [hheader] at hmark
    obtain ⟨declared, line, _ | ⟨name, words⟩, owner⟩ := header
    · cases hmark
    · cases declared with
      | definition => exact absurd ⟨_, hheader, rfl⟩ h
      | designUnit kind =>
        rw [List.mem_singleton.1 hmark]
        cases kind <;> simp [unitHeader, DesignUnit.kind]
      | routine kind isPrototype isExternal =>
        dsimp only at hmark
        split_ifs at hmark
        · cases hmark
        · rw [List.mem_singleton.1 hmark]
          have hkind : ∀ inClass, kind.kind inClass ≠ .macros := by
            cases kind <;> intro inClass <;> cases inClass <;> simp [Routine.kind]
          cases owner <;> simp [routineMark, hkind]

/-- A header without words reports nothing at its end. -/
lemma State.Defines.endHeader (h : s.Defines n) : (Verilog.endHeader s).2 = [] := by
  obtain ⟨owner, hheader⟩ := h.header
  rw [Verilog.endHeader, hheader]

/-- A word of a header that declares something else reports no substitution. -/
lemma headerWord_macros {header : PartialHeader} (hother : header.declared ≠ .definition)
    (text : String) :
    ∀ mark ∈ (headerWord s header text).2, mark.All fun r => r.group ≠ .macros := by
  obtain ⟨next, h, -⟩ | ⟨next, h, hdeclared, -⟩ := headerWord_cases s header text
  · rw [h]
    exact List.forall_mem_nil _
  · rw [h]
    exact endHeader_macros (State.not_isDefining_of_some rfl (hdeclared ▸ hother))

/-- A word outside headers reports no substitution. -/
lemma freeWord_macros (s : State) (line : Nat) (text : String) :
    ∀ mark ∈ (freeWord s line text).2, mark.All fun r => r.group ≠ .macros := by
  obtain ⟨declared, h, -⟩ | ⟨outer, h⟩ | h := freeWord_cases s line text
  · rw [h]
    exact List.forall_mem_nil _
  · rw [h]
    exact List.forall_mem_singleton.2 Mark.all_leave
  · rw [h]
    exact List.forall_mem_nil _

/-- **A token reports no substitution, or it is the name of one.**

**Proof sketch.** Only words and signs report anything. A word outside bodies and braces is the name
of the substitution that is being read, or else it goes on with a header of another kind or begins
one. A sign ends a header of another kind, as one of a substitution has no name yet. -/
theorem act_macros (h : s.IsDefining → s.Defines n) (line : Nat) (token : Token) :
    (∀ mark ∈ (act line s token).2, mark.All fun r => r.group ≠ .macros)
      ∨ ∃ text, s.IsDefining ∧ token.counted s.braces = [.word text]
        ∧ (act line s token).2 = [.atTop .macros text n] := by
  cases token with
  | word text =>
    rw [act, word]
    split
    · exact .inl (List.forall_mem_nil _)
    split_ifs with hbraces
    · exact .inl (List.forall_mem_nil _)
    split
    · next header hheader =>
      by_cases hdefinition : header.declared = .definition
      · have hdefining : s.IsDefining := ⟨header, hheader, hdefinition⟩
        obtain ⟨owner, hpending⟩ := (h hdefining).header
        obtain rfl := Option.some.inj (hheader.symm.trans hpending)
        exact .inr ⟨text, hdefining, by rw [Token.counted, if_neg hbraces], rfl⟩
      · exact .inl (headerWord_macros hdefinition text)
    · exact .inl (freeWord_macros s line text)
  | sign ch =>
    refine .inl ?_
    by_cases hdefining : s.IsDefining
    · rw [act, (h hdefining).endHeader]
      exact List.forall_mem_nil _
    · exact endHeader_macros hdefining
  | _ => exact .inl (List.forall_mem_nil _)

end Headers

/-! ## Moments at which a name is to come -/

/-- From one moment to another only tokens that are passed over are read, on one line. -/
structure Moment.Passes (lines : List (List Char)) (m m' : Moment) : Prop where
  /-- The one moment comes after the other. -/
  later : ReflTransGen (Moment.Next lines) m m'
  /-- They are on the same line. -/
  line : m'.line = m.line
  /-- The tokens between are passed over. -/
  tokens : ∃ skipped, m'.tokens = m.tokens ++ skipped ∧ skipped.all Token.isPassedOver = true

/-- Outside bodies, a directive comes next with which a substitution begins. -/
structure Moment.Begins (m : Moment) (directive : List Char) (c : Cursor) (ch : Char) : Prop where
  /-- No body is passed over. -/
  body : m.state.body = none
  /-- The directive stands at the cursor. -/
  cursor : m.cursor = some c
  /-- Its first character comes next. -/
  peek : c.peek? = some ch
  /-- It begins a substitution. -/
  token : tokensAt m.state c ch = [.definition]
  /-- The directive is the whole identifier behind this character. -/
  identifier : (c.next.span isNameChar).1 = directive

/-- On the line of the moment a directive was read with which a substitution begins, and its name is
still to come. -/
def Moment.Awaits (lines : List (List Char)) (m : Moment) (directive : List Char) : Prop :=
  ∃ before c ch, Reached lines before ∧ before.Begins directive c ch
    ∧ (before.step c ch).Passes lines m

/-- A text substitution. -/
structure Substitution where
  /-- The identifier of the directive with which it begins. -/
  directive : List Char
  /-- Its name. -/
  name : String
  /-- The line on which it stands. -/
  line : Nat

/-- The source declares the substitution: on its line its name is the first word behind its
directive, where words between braces do not count, and no sign at which headers end stands between
them. -/
def Substitution.Declared (lines : List (List Char)) (a : Substitution) : Prop :=
  ∃ (m : Moment) (c : Cursor) (ch : Char), m.Awaits lines a.directive ∧ m.line = a.line
    ∧ m.cursor = some c ∧ c.peek? = some ch ∧ tokensAt m.state c ch = [.word a.name]

section Moments

variable {lines : List (List Char)} {m m' m'' : Moment} {directive : List Char} {c : Cursor}
  {ch : Char} {braces : Nat} {token : Token}

/-- A token that counts as the beginning of a substitution is one. -/
lemma eq_definition_of_counted (h : token.counted braces = [.definition]) :
    token = .definition := by
  cases token with
  | word text =>
    rw [Token.counted] at h
    split at h <;> cases h
  | definition => rfl
  | _ => cases h

/-- A token that counts as a word is a word outside braces. -/
lemma eq_word_of_counted {text : String} (h : token.counted braces = [.word text]) :
    token = .word text ∧ ¬ braces > 0 := by
  cases token with
  | word other =>
    rw [Token.counted] at h
    split at h
    · cases h
    · next hbraces =>
      cases h
      exact ⟨rfl, hbraces⟩
  | _ => cases h

/-- Staying at a moment passes over nothing. -/
lemma Moment.Passes.refl (lines : List (List Char)) (m : Moment) : m.Passes lines m :=
  ⟨.refl, rfl, [], (List.append_nil _).symm, rfl⟩

/-- One more token that is passed over. -/
lemma Moment.Passes.tail (h : m.Passes lines m') (hnext : m'.Next lines m'')
    (hline : m''.line = m'.line) {further : List Token}
    (hfurther : m''.tokens = m'.tokens ++ further)
    (hall : further.all Token.isPassedOver = true) : m.Passes lines m'' := by
  obtain ⟨skipped, hskipped, hpassed⟩ := h.tokens
  refine ⟨h.later.tail hnext, hline.trans h.line, skipped ++ further, ?_, ?_⟩
  · rw [hfurther, hskipped, List.append_assoc]
  · rw [List.all_append, hpassed, hall]
    rfl

/-- **While tokens are passed over, the header of the substitution goes on.**

**Proof sketch.** Induction on the moments between. They are on the same line, and their tokens are
among those that are passed over. -/
lemma Moment.Passes.defines (h : m.Passes lines m') {n : Nat} (hdefines : m.state.Defines n) :
    m'.state.Defines n := by
  obtain ⟨hlater, hline, skipped, hskipped, hpassed⟩ := h
  induction hlater generalizing skipped with
  | refl => exact hdefines
  | @tail m₁ m₂ hlater hnext ih =>
    have hgrows := Moment.grows_of_later hlater
    have hnextGrows := hnext.grows
    have hsame : m₁.line = m.line := by
      have hfirst := hgrows.line
      have hlast := hnextGrows.line
      omega
    obtain ⟨front, hfront⟩ := hgrows.tokens
    obtain ⟨further, hfurther⟩ := hnextGrows.tokens
    obtain rfl : front ++ further = skipped := by
      rw [← hfurther, ← hfront, List.append_assoc] at hskipped
      exact List.append_cancel_left hskipped
    rw [List.all_append, Bool.and_eq_true] at hpassed
    have hbefore := ih hsame front hfront.symm hpassed.1
    cases hnext with
    | line hcursor htext => exact hbefore
    | @step c ch hcursor hch =>
      have htokens : further = tokensAt m₁.state c ch :=
        List.append_cancel_left (hfurther.trans (rfl : (m₁.step c ch).tokens = _))
      show (Verilog.step m₁.line m₁.state c ch).state.Defines n
      obtain ⟨⟨commented, hstate⟩, -⟩ | ⟨hstate, -, hcounted, -⟩ :=
        step_cases m₁.line m₁.state hch
      · rw [hstate]
        exact ⟨hbefore.body, hbefore.header⟩
      · rw [hstate]
        exact hbefore.act (hcounted ▸ htokens ▸ hpassed.2) m₁.line
    | leave hcursor hend =>
      have hleft : m₁.line + 1 = m.line := hline
      omega

/-- Behind its directive the header of a substitution is being read. -/
lemma Moment.Begins.defines (h : m.Begins directive c ch) :
    (m.step c ch).state.Defines m.line := by
  obtain ⟨-, -, hnone⟩ | ⟨hstate, -, hcounted, -⟩ := step_cases m.line m.state h.peek
  · cases hnone.symm.trans h.token
  · have htoken := eq_definition_of_counted (hcounted.symm.trans h.token)
    show (Verilog.step m.line m.state c ch).state.Defines m.line
    rw [hstate, htoken, act, if_pos (by rw [h.body]; rfl)]
    exact ⟨h.body, none, rfl⟩

/-- **Where its name is still to come, the header of a substitution is being read.** -/
theorem Moment.Awaits.defines (h : m.Awaits lines directive) : m.state.Defines m.line := by
  obtain ⟨before, c, ch, -, hbegins, hpasses⟩ := h
  rw [hpasses.line]
  exact hpasses.defines hbegins.defines

/-- A moment that awaits the name of a substitution is reached. -/
lemma Moment.Awaits.reached (h : m.Awaits lines directive) : Reached lines m := by
  obtain ⟨before, c, ch, hbefore, hbegins, hpasses⟩ := h
  exact (hbefore.tail (.step hbegins.cursor hbegins.peek)).trans hpasses.later

/-- At the end of a line no header of a substitution is left. -/
lemma not_isDefining_endLine (s : State) : ¬ (endLine s).1.IsDefining := by
  rintro ⟨header, hheader, hdeclared⟩
  unfold endLine at hheader
  split_ifs at hheader with hdefinition
  · rw [header_endHeader] at hheader
    cases hheader
  · have hsame : s.header = some header := hheader
    simp [hsame, hdeclared] at hdefinition

/-- **The header of a substitution that is being read was begun by a directive**, on the same line,
and its name is still to come.

**Proof sketch.** Induction on the moments. A step begins the header or passes over a token
(`act_isDefining`), comments pass over nothing, and at the end of a line no such header is left. -/
theorem Reached.awaits (h : Reached lines m) (hdefining : m.state.IsDefining) :
    ∃ directive, m.Awaits lines directive := by
  induction h with
  | refl => exact absurd hdefining (State.not_isDefining_of_none rfl)
  | @tail m m' h hnext ih =>
    cases hnext with
    | @line text hcursor htext =>
      obtain ⟨directive, before, c, ch, hbefore, hbegins, hpasses⟩ := ih hdefining
      exact ⟨directive, before, c, ch, hbefore, hbegins,
        hpasses.tail (.line hcursor htext) rfl (List.append_nil _).symm rfl⟩
    | @step c ch hcursor hch =>
      have hstep : (Verilog.step m.line m.state c ch).state.IsDefining := hdefining
      have htokens : (m.step c ch).tokens = m.tokens ++ tokensAt m.state c ch := rfl
      obtain ⟨⟨commented, hstate⟩, -, hnone⟩ | ⟨hstate, -, hcounted, -⟩ :=
        step_cases m.line m.state hch
      · rw [hstate] at hstep
        obtain ⟨directive, before, c', ch', hbefore, hbegins, hpasses⟩ := ih hstep
        refine ⟨directive, before, c', ch', hbefore, hbegins,
          hpasses.tail (.step hcursor hch) rfl htokens ?_⟩
        rw [hnone]
        rfl
      · rw [hstate] at hstep
        obtain ⟨htoken, hbody⟩ | ⟨hbefore, hpassed⟩ := act_isDefining (Reached.sealed h) hstep
        · refine ⟨_, m, c, ch, h, ⟨hbody, hcursor, hch, ?_, rfl⟩, .refl lines _⟩
          rw [hcounted, htoken]
          rfl
        · obtain ⟨directive, before, c', ch', hreached, hbegins, hpasses⟩ := ih hbefore
          exact ⟨directive, before, c', ch', hreached, hbegins,
            hpasses.tail (.step hcursor hch) rfl htokens (hcounted ▸ hpassed)⟩
    | leave hcursor hend => exact absurd hdefining (not_isDefining_endLine m.state)

/-! ## What is reported -/

/-- Where the header of a substitution is being read, it has no words. -/
lemma Reached.defines (h : Reached lines m) (hdefining : m.state.IsDefining) :
    m.state.Defines m.line := by
  obtain ⟨directive, hawaits⟩ := h.awaits hdefining
  exact hawaits.defines

/-- The end of a line reports no substitution. -/
lemma Reached.endLine_macros (h : Reached lines m) : (endLine m.state).2 = [] := by
  unfold endLine
  split_ifs with hdefinition
  · obtain ⟨header, hheader, hdeclared⟩ := (Option.any_eq_true _ _).1 hdefinition
    exact (h.defines ⟨header, hheader, eq_of_beq hdeclared⟩).endHeader
  · rfl

/-- The source declares a substitution of the name on the line of the element. -/
def Report.IsSubstitution (lines : List (List Char)) (r : Report) : Prop :=
  ∃ a : Substitution, a.Declared lines ∧ a.name = r.tag.name ∧ a.line = r.tag.line

/-- **What is reported as a substitution is declared as one**, at every moment.

**Proof sketch.** Induction on the moments. A step adds what its token reports, which is a
substitution only if the header of one is being read and the token is its name; so the moment awaits
the name (`Reached.awaits`). The end of a line reports none. -/
theorem Reached.declared (h : Reached lines m) :
    ∀ mark ∈ m.found, mark.All fun r => r.group = .macros → Report.IsSubstitution lines r := by
  induction h with
  | refl => exact List.forall_mem_nil _
  | @tail m m' h hnext ih =>
    cases hnext with
    | line hcursor htext => exact ih
    | leave hcursor hend =>
      show ∀ mark ∈ m.found ++ (endLine m.state).2, _
      rw [Reached.endLine_macros h, List.append_nil]
      exact ih
    | @step c ch hcursor hch =>
      refine List.forall_mem_append.2 ⟨ih, ?_⟩
      obtain ⟨-, hfound, -⟩ | ⟨-, hfound, hcounted, -⟩ := step_cases m.line m.state hch
      · rw [hfound]
        exact List.forall_mem_nil _
      rw [hfound]
      obtain hother | ⟨text, hdefining, hword, hreports⟩ :=
        act_macros (Reached.defines h) m.line (tokenAt c ch)
      · exact fun mark hmark => (hother mark hmark).imp fun r hr hmacros => absurd hmacros hr
      · rw [hreports]
        obtain ⟨directive, hawaits⟩ := Reached.awaits h hdefining
        refine List.forall_mem_singleton.2 (Mark.all_atTop.2 fun _ => ?_)
        exact ⟨⟨directive, text, m.line⟩, ⟨m, c, ch, hawaits, rfl, hcursor, hch,
          hcounted.trans hword⟩, rfl, rfl⟩

/-- **A substitution that is declared is reported.**

**Proof sketch.** The name is a word outside bodies and braces, and the header of the substitution
is being read, so the step reports it. What is found at a reached moment is among the marks of the
source. -/
theorem Substitution.Declared.mem_marks {a : Substitution} (h : a.Declared lines) :
    Mark.atTop .macros a.name a.line ∈ marks lines := by
  obtain ⟨m, c, ch, hawaits, hline, hcursor, hch, hword⟩ := h
  obtain ⟨owner, hheader⟩ := hawaits.defines.header
  have hfound : (m.step c ch).found = m.found ++ [.atTop .macros a.name m.line] := by
    obtain ⟨-, -, hnone⟩ | ⟨-, hfound, hcounted, -⟩ := step_cases m.line m.state hch
    · cases hnone.symm.trans hword
    · obtain ⟨htoken, hbraces⟩ := eq_word_of_counted (hcounted.symm.trans hword)
      have hbody := hawaits.defines.body
      have hact : (act m.line m.state (.word a.name)).2 = [.atTop .macros a.name m.line] := by
        rw [act, word, hbody]
        simp only [if_neg hbraces, hheader]
        rfl
      show m.found ++ (Verilog.step m.line m.state c ch).found = _
      rw [hfound, htoken, hact]
  have hreached : Reached lines (m.step c ch) := hawaits.reached.tail (.step hcursor hch)
  have hmem : Mark.atTop .macros a.name m.line ∈ (m.step c ch).found := by
    rw [hfound]
    exact List.mem_append_right _ (List.mem_singleton.2 rfl)
  exact hline ▸ hreached.found_isPrefix.subset hmem

/-- The identifier of a directive with which a substitution begins has `define` in front. -/
lemma Moment.Begins.isPrefix (h : m.Begins directive c ch) : "define".toList <+: directive := by
  obtain ⟨-, -, hnone⟩ | ⟨-, -, hcounted, -⟩ := step_cases m.line m.state h.peek
  · cases hnone.symm.trans h.token
  have htoken := eq_definition_of_counted (hcounted.symm.trans h.token)
  have hstarts : startsWith "define".toList c.next.after = true := by
    unfold tokenAt at htoken
    split_ifs at htoken with _ _ _ _ hstarts
    exact hstarts
  obtain ⟨rest, hrest⟩ := startsWith_iff.1 hstarts
  have hletters : "define".toList.all isNameChar = true := by decide
  rw [← h.identifier, Cursor.span, hrest,
    List.takeWhile_append_of_pos (List.all_eq_true.1 hletters)]
  exact List.prefix_append _ _

/-- The directive with which a substitution begins has `define` in front. -/
lemma Substitution.Declared.isPrefix {a : Substitution} (h : a.Declared lines) :
    "define".toList <+: a.directive := by
  obtain ⟨m, c, ch, ⟨before, c', ch', -, hbegins, -⟩, -⟩ := h
  exact hbegins.isPrefix

end Moments

end Verilog

namespace Language

open Verilog (Substitution)

/-- **The substitutions of a document are those that its source declares.** A substitution of a name
is reported on a line if and only if its name is the first word there behind a directive of which
the identifier begins with `define`, outside the bodies of tasks and functions. Words between braces
do not count, and no sign at which headers end stands between the directive and the name.

**Proof sketch.** From its directive on the header of a substitution is being read, up to its name,
and nowhere else (`Verilog.Moment.Awaits.defines` and `Verilog.Reached.awaits`). So a token reports
a substitution just if it is its name (`Verilog.act_macros`). -/
theorem scan_verilog_macros {language : Language}
    (hlanguage : language = verilog ∨ language = systemVerilog) {lines : List (List Char)}
    (name : String) (line : Nat) :
    ((∃ o ∈ (language.scan (lines.map String.ofList)).occurrences,
        o.group = .macros ∧ o.tag.name = name ∧ o.tag.line = line)
      ↔ ∃ a : Substitution, a.Declared lines ∧ a.name = name ∧ a.line = line)
    ∧ ∀ a : Substitution, a.Declared lines → "define".toList <+: a.directive := by
  have hmarks : language.marks ((lines.map String.ofList).map String.toList)
      = Verilog.marks lines := by
    rw [map_toList_ofList]
    obtain rfl | rfl := hlanguage <;> rfl
  refine ⟨⟨?_, ?_⟩, fun a ha => ha.isPrefix⟩
  · rintro ⟨o, ho, hgroup, rfl, rfl⟩
    have hstart : Verilog.Reached lines {} := .refl
    obtain ⟨last, hlast, hend⟩ := hstart.exists_end
    have hall := Verilog.Reached.declared hlast
    rw [Verilog.Reached.found_of_atEnd hlast hend, ← hmarks] at hall
    obtain ⟨r, hr, hof⟩ := exists_report hall ho
    obtain ⟨a, ha, hname, hline⟩ := hr (hof.group ▸ hgroup)
    refine ⟨a, ha, ?_, ?_⟩
    · rw [hname, hof.tag, Tag.name_heldBy]
    · rw [hline, hof.tag, Tag.line_heldBy]
  · rintro ⟨a, ha, rfl, rfl⟩
    obtain ⟨o, ho, hof⟩ := Document.exists_occurrence_of_atTop (hmarks ▸ ha.mem_marks)
      language.legend
    rw [← occurrences_scan] at ho
    refine ⟨o, ho, hof.group, ?_, ?_⟩
    · rw [hof.tag, Tag.name_heldBy]
    · rw [hof.tag, Tag.line_heldBy]

/-- A substitution stands behind a word between braces and a literal, and other directives do not
count.

**Proof sketch.** Both names are looked up in the document of the script, which is computed, and the
equivalence is read in either direction. -/
theorem scan_verilog_macros_braces :
    let lines := ["`ifdef A", "`define \x7b B \x7d \"C\" D 1", "`endif"]
    (∃ a : Substitution, a.Declared (lines.map String.toList) ∧ a.name = "D" ∧ a.line = 1)
      ∧ (¬ ∃ a : Substitution, a.Declared (lines.map String.toList) ∧ a.name = "A" ∧ a.line = 0)
      ∧ ∀ a : Substitution, a.Declared (lines.map String.toList) →
        "define".toList <+: a.directive := by
  intro lines
  have hlines : (lines.map String.toList).map String.ofList = lines := by decide
  obtain ⟨hiff, hprefix⟩ :=
    @scan_verilog_macros verilog (.inl rfl) (lines.map String.toList) "D" 1
  obtain ⟨hiff', -⟩ := @scan_verilog_macros verilog (.inl rfl) (lines.map String.toList) "A" 0
  rw [hlines] at hiff hiff'
  refine ⟨hiff.1 (by decide +kernel), fun h => ?_, hprefix⟩
  have hnone : ¬ ∃ o ∈ (verilog.scan lines).occurrences,
      o.group = .macros ∧ o.tag.name = "A" ∧ o.tag.line = 0 := by
    decide +kernel
  exact hnone (hiff'.2 h)

/-- A directive of which the name merely begins with `define` makes the word behind it a
substitution.

**Proof sketch.** What is reported is computed. The only directive stands at the beginning of the
line, and its identifier is longer than `define`. -/
theorem scan_verilog_defined :
    let text := "`defined_by_tool foo"
    (∃ o ∈ (verilog.scan [text]).occurrences,
        o.group = .macros ∧ o.tag.name = "foo" ∧ o.tag.line = 0)
      ∧ ∀ front ch rest, text.toList = front ++ ch :: rest → ch.toNat = 0x60 →
        rest.takeWhile Verilog.isNameChar ≠ "define".toList := by
  intro text
  have htail : text.toList = Char.ofNat 0x60 :: "defined_by_tool foo".toList := by decide
  refine ⟨by decide +kernel, fun front ch rest htext hch => ?_⟩
  rw [htail] at htext
  cases front with
  | nil =>
    obtain ⟨-, rfl⟩ := List.cons_eq_cons.1 htext
    decide
  | cons first front =>
    obtain ⟨-, hrest⟩ := List.cons_eq_cons.1 htext
    have hmem : ch ∈ "defined_by_tool foo".toList := by
      rw [hrest]
      exact List.mem_append_right _ List.mem_cons_self
    have hnone : ∀ other ∈ "defined_by_tool foo".toList, other.toNat ≠ 0x60 := by simp
    exact absurd hch (hnone ch hmem)

end Language

end Outliner
