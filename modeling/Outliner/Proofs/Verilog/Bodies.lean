import Mathlib.Tactic.Lemma
import Outliner.Proofs.Verilog.Moments

set_option autoImplicit false

/-!
# The bodies of tasks and functions

While the body of a task or function is passed over, no header is being read. Headers are begun and
ended at words, directives, signs and ends of lines; that none of these does so within a body is an
invariant of all of them. So a body is left by its end keyword alone, and whatever else is read
leaves the units, the body and the document as they are.

## Main definitions

* `Outliner.Verilog.WordInCode`, `Outliner.Verilog.WordAhead` — a word stands in code, on the rest
  of a line or also on the lines behind it.
* `Outliner.Verilog.readOn` — reading the rest of a line and the lines behind it.
* `Outliner.Verilog.State.Sealed` — no header is being read in a body.
* `Outliner.Verilog.State.Kept` — what is known of units, bodies and headers has not changed.

## Main results

* `Outliner.Verilog.act_sealed`, `Outliner.Verilog.act_kept` — what a token does in a body.
* `Outliner.Verilog.readOn_kept` — what a text does in a body.
* `Outliner.Verilog.Reached.body_sealed` — bodies are sealed, at every moment of reading a source.
-/

namespace Outliner.Verilog

/-! ## Words in code -/

/-- Behind the place, on the rest of the line, the word stands in code: neither in a comment nor in
a literal. It begins where a word may begin, and goes as far as the characters of words go. -/
def WordInCode (word : String) (p : Lexicon.Place) (c : Cursor) : Prop :=
  ∃ n < c.after.length, ((c.after.take n).foldl lexicon.next p).isCode = true
    ∧ (c.forward n).isAtWordStart = true
    ∧ String.ofList ((c.forward n).span isNameChar).1 = word

instance (word : String) (p : Lexicon.Place) (c : Cursor) : Decidable (WordInCode word p c) :=
  inferInstanceAs (Decidable (∃ n < c.after.length, _))

/-- The word stands in code on the rest of the line or on a line behind it, where a block comment is
open at the cursor or none is. -/
def WordAhead (word : String) (commented : Bool) (c : Cursor) : List (List Char) → Prop
  | [] => WordInCode word (.start commented) c
  | line :: further => WordInCode word (.start commented) c
      ∨ WordAhead word (lexicon.commentBehind commented c.after) (.start line) further

instance decidableWordAhead (word : String) :
    ∀ (commented : Bool) (c : Cursor) (further : List (List Char)),
      Decidable (WordAhead word commented c further)
  | commented, c, [] => inferInstanceAs (Decidable (WordInCode word (.start commented) c))
  | commented, c, line :: further =>
    have := decidableWordAhead word (lexicon.commentBehind commented c.after) (.start line) further
    inferInstanceAs (Decidable (WordInCode word (.start commented) c
      ∨ WordAhead word (lexicon.commentBehind commented c.after) (.start line) further))

/-- The state after the rest of a line and the lines behind it, and the marks found there. -/
def readOn (line : Nat) (s : State) (c : Cursor) (further : List (List Char)) :
    State × List Mark :=
  let (walked, found) := Cursor.walk (step line) s c
  let (ended, last) := endLine walked
  let (reached, later) := readLines readLine (line + 1) ended further
  (reached, found ++ last ++ later)

section Words

variable {word : String} {p : Lexicon.Place} {c : Cursor} {ch : Char} {commented : Bool}

/-- Behind a part of the line the word stands where it stands on the line. -/
lemma WordInCode.of_forward {n : Nat}
    (h : WordInCode word ((c.after.take n).foldl lexicon.next p) (c.forward n)) :
    WordInCode word p c := by
  obtain ⟨k, hk, hcode, hstart, hword⟩ := h
  rw [Cursor.length_after_forward] at hk
  rw [Cursor.after_forward, ← List.foldl_append, ← List.take_add] at hcode
  rw [Cursor.forward_forward] at hstart hword
  exact ⟨n + k, by omega, hcode, hstart, hword⟩

/-- A reader that knows whether a comment is open knows where the word stands. -/
lemma WordInCode.of_settles (hsettles : lexicon.Settles p c.after commented)
    (h : WordInCode word (.start commented) c) : WordInCode word p c := by
  obtain ⟨n, hn, hcode, hstart, hword⟩ := h
  refine ⟨n, hn, ?_, hstart, hword⟩
  cases n with
  | zero =>
    have hmore : c.after ≠ [] := List.length_pos_iff.1 hn
    rw [List.take_zero, List.foldl_nil, Lexicon.isCode_start] at hcode
    rw [List.take_zero, List.foldl_nil, hsettles.code hmore, hcode]
  | succ n =>
    have hsome : c.after.take (n + 1) ≠ [] := by
      rw [← List.length_pos_iff, List.length_take]
      omega
    rw [hsettles.later _ hsome (List.take_prefix _ _)]
    exact hcode

/-- A word that is read stands at the cursor. -/
lemma tokenAt_eq_word {text : String} (h : tokenAt c ch = .word text) :
    c.isAtWordStart = true ∧ String.ofList (c.span isNameChar).1 = text := by
  unfold tokenAt at h
  split_ifs at h with _ _ _ _ _ _ _ hword _
  exact ⟨(Bool.and_eq_true_iff.1 hword).2, Token.word.inj h⟩

end Words

/-! ## What a token does in a body -/

/-- No header is being read in a body. -/
def State.Sealed (s : State) : Prop := s.body.isSome = true → s.header = none

/-- What is known of units, bodies and headers has not changed. -/
structure State.Kept (s s' : State) : Prop where
  /-- The same units are open. -/
  units : s'.units = s.units
  /-- The same body is passed over. -/
  body : s'.body = s.body
  /-- The same header is being read, or none. -/
  header : s'.header = s.header

section Bodies

variable {s s' s'' : State} {routine : Routine} {line : Nat} {c : Cursor} {ch : Char}

/-- Changing nothing keeps the state as far as it counts. -/
lemma State.Kept.refl (s : State) : s.Kept s := ⟨rfl, rfl, rfl⟩

/-- What is kept twice is kept. -/
lemma State.Kept.trans (h : s.Kept s') (h' : s'.Kept s'') : s.Kept s'' :=
  ⟨h'.units.trans h.units, h'.body.trans h.body, h'.header.trans h.header⟩

/-- Outside bodies there is nothing to keep apart. -/
lemma State.sealed_of_body (h : s.body = none) : s.Sealed := by
  intro hbody
  rw [h] at hbody
  cases hbody

/-- Nor is there where no header is being read. -/
lemma State.sealed_of_header (h : s.header = none) : s.Sealed := fun _ => h

/-- When a header is at its end, none is being read. -/
lemma header_endHeader (s : State) : (endHeader s).1.header = none := by
  unfold endHeader
  cases hheader : s.header with
  | none => exact hheader
  | some header =>
    obtain ⟨declared, line, _ | ⟨name, words⟩, owner⟩ := header <;> cases declared <;> rfl

/-- A word of a header ends it, or begins no body. -/
lemma headerWord_sealed (hbody : s.body = none) (header : PartialHeader) (word : String) :
    (headerWord s header word).1.Sealed := by
  obtain ⟨next, h, -⟩ | ⟨next, h, -⟩ := headerWord_cases s header word
  · rw [h]
    exact State.sealed_of_body hbody
  · rw [h]
    exact State.sealed_of_header (header_endHeader _)

/-- A word outside headers and bodies begins no body. -/
lemma body_freeWord (s : State) (line : Nat) (word : String) :
    (freeWord s line word).1.body = s.body := by
  obtain ⟨declared, h, -⟩ | ⟨outer, h⟩ | h := freeWord_cases s line word <;> rw [h]

/-- **After each token no header is being read in a body**, if none was before.

**Proof sketch.** A word begins a body or a header only where neither is open, and a sign ends the
header. All other tokens leave the body and the header alone. -/
theorem act_sealed (h : s.Sealed) (line : Nat) (token : Token) :
    (act line s token).1.Sealed := by
  cases token with
  | word text =>
    rw [act, word]
    split
    · next routine hbody =>
      dsimp only
      split_ifs
      · exact State.sealed_of_body rfl
      · exact h
    · next hbody =>
      split_ifs
      · exact h
      · split
        · exact headerWord_sealed hbody _ _
        · exact State.sealed_of_body ((body_freeWord s line text).trans hbody)
  | colons =>
    intro hbody
    show s.header.map _ = none
    rw [h hbody]
    rfl
  | sign ch =>
    rw [act]
    split_ifs <;> exact State.sealed_of_header (header_endHeader s)
  | definition =>
    rw [act]
    split_ifs with hbody
    · exact State.sealed_of_body (Option.isNone_iff_eq_none.1 hbody)
    · exact h
  | _ => exact h

/-- **In a body each token but the end keyword changes nothing that counts.**

**Proof sketch.** In a body a word other than the end keyword is passed over, colons have no header
to qualify, and a sign has none to end. Nothing else is looked at. -/
theorem act_kept (hbody : s.body = some routine) (hheader : s.header = none) {token : Token}
    (hend : token ≠ .word routine.endWord) (line : Nat) :
    s.Kept (act line s token).1 ∧ (act line s token).2 = [] := by
  cases token with
  | word text =>
    have hother : text ≠ routine.endWord := fun h => hend (congrArg Token.word h)
    rw [act, word, hbody]
    dsimp only
    rw [if_neg hother]
    exact ⟨.refl s, rfl⟩
  | colons =>
    have hqualified : (qualify s).header = s.header := by
      rw [qualify, hheader]
      rfl
    exact ⟨⟨rfl, rfl, hqualified⟩, rfl⟩
  | sign ch =>
    have hnothing : endHeader s = (s, []) := by rw [endHeader, hheader]
    rw [act, hnothing]
    split_ifs
    · exact ⟨⟨rfl, rfl, rfl⟩, rfl⟩
    · exact ⟨.refl s, rfl⟩
  | definition =>
    rw [act, hbody]
    exact ⟨.refl s, rfl⟩
  | _ => exact ⟨⟨rfl, rfl, rfl⟩, rfl⟩

/-! ## What a text does in a body -/

/-- The lines behind a line are read from the beginning of the first of them on. -/
lemma readOn_cons (line : Nat) (s : State) (c : Cursor) (text : List Char)
    (further : List (List Char)) : readOn line s c (text :: further)
      = ((readOn (line + 1) (readOn line s c []).1 (.start text) further).1,
        (readOn line s c []).2
          ++ (readOn (line + 1) (readOn line s c []).1 (.start text) further).2) := by
  simp [readOn, readLines, readLine]

/-- A step in a body at which its end keyword does not stand in code.

**Proof sketch.** Either the step passes over a part of a comment, or it is what its token does
(`step_cases`). The token is not the end keyword, which would stand at the cursor in code. -/
lemma step_kept (line : Nat) (hch : c.peek? = some ch) (hbody : s.body = some routine)
    (hheader : s.header = none)
    (hword : ¬ WordInCode routine.endWord (.start s.inComment) c) :
    s.Kept (step line s c ch).state ∧ (step line s c ch).found = [] := by
  obtain ⟨⟨commented, hstate⟩, hfound, -⟩ | ⟨hstate, hfound, -, hcode⟩ := step_cases line s hch
  · rw [hstate]
    exact ⟨⟨rfl, rfl, rfl⟩, hfound⟩
  · have hend : tokenAt c ch ≠ .word routine.endWord := by
      intro htoken
      obtain ⟨hstart, hletters⟩ := tokenAt_eq_word htoken
      refine hword ⟨0, ?_, ?_, hstart, hletters⟩
      · obtain ⟨text, hafter⟩ := List.head?_eq_some_iff.1 hch
        simp [hafter]
      · rw [hcode]
        rfl
    rw [hstate, hfound]
    exact act_kept hbody hheader hend line

/-- The rest of a line in a body.

**Proof sketch.** Induction on the number of characters that are left. Behind each step the state
tells the place, so that the end keyword does not stand in code behind it either. -/
lemma walk_kept (line : Nat) (hbody : s.body = some routine) (hheader : s.header = none)
    (hword : ¬ WordInCode routine.endWord (.start s.inComment) c) :
    s.Kept (Cursor.walk (step line) s c).1 ∧ (Cursor.walk (step line) s c).2 = [] := by
  induction hn : c.after.length using Nat.strong_induction_on generalizing s c with
  | _ n ih =>
    cases hch : c.peek? with
    | none =>
      rw [Cursor.walk_end _ _ (List.head?_eq_none_iff.1 hch)]
      exact ⟨.refl s, rfl⟩
    | some ch =>
      obtain ⟨hkept, hfound⟩ := step_kept line hch hbody hheader hword
      obtain ⟨k, hk, hcursor, hsettles⟩ := commentReader.step_settles line s hch
      have hbehind : ¬ WordInCode routine.endWord
          (.start (step line s c ch).state.inComment) (c.forward k) := by
        intro hbehind
        exact hword (WordInCode.of_forward (hbehind.of_settles hsettles))
      have hwalk := CommentReader.walk_eq (R := commentReader) line s hch
      rw [commentReader_step] at hwalk hcursor
      rw [hcursor] at hwalk
      have hshorter : (c.forward k).after.length < c.after.length :=
        Cursor.length_after_of_advances hch (Cursor.advances_forward hk c)
      obtain ⟨hlater, hnothing⟩ := ih _ (hn ▸ hshorter) (hkept.body.trans hbody)
        (hkept.header.trans hheader) hbehind rfl
      rw [hwalk, hfound, hnothing]
      exact ⟨hkept.trans hlater, rfl⟩

/-- The rest of a line in a body, and its end: no header ends there, since none is being read. -/
lemma readOn_nil_kept (line : Nat) (hbody : s.body = some routine) (hheader : s.header = none)
    (hword : ¬ WordInCode routine.endWord (.start s.inComment) c) :
    s.Kept (readOn line s c []).1 ∧ (readOn line s c []).2 = []
      ∧ (readOn line s c []).1.inComment = lexicon.commentBehind s.inComment c.after := by
  obtain ⟨hkept, hfound⟩ := walk_kept line hbody hheader hword
  have hend : endLine (Cursor.walk (step line) s c).1
      = ((Cursor.walk (step line) s c).1, []) := by
    rw [endLine, hkept.header, hheader]
    rfl
  have hread : readOn line s c [] = ((Cursor.walk (step line) s c).1, []) := by
    simp only [readOn, readLines, hend, hfound, List.append_nil]
  rw [hread]
  exact ⟨hkept, rfl, CommentReader.inComment_walk (R := commentReader) line s c⟩

/-- **In a body a text in which its end keyword does not stand changes nothing that counts.**

**Proof sketch.** Induction on the lines behind the first one. At the end of a line it is known
whether a comment is open, so that the end keyword does not stand on the next one either. -/
theorem readOn_kept (line : Nat) {further : List (List Char)} (hbody : s.body = some routine)
    (hheader : s.header = none) (hword : ¬ WordAhead routine.endWord s.inComment c further) :
    s.Kept (readOn line s c further).1 ∧ (readOn line s c further).2 = [] := by
  induction further generalizing line s c with
  | nil =>
    obtain ⟨hkept, hfound, -⟩ := readOn_nil_kept line hbody hheader hword
    exact ⟨hkept, hfound⟩
  | cons text further ih =>
    rw [WordAhead, not_or] at hword
    obtain ⟨hkept, hfound, hcomment⟩ := readOn_nil_kept line hbody hheader hword.1
    rw [← hcomment] at hword
    obtain ⟨hlater, hnothing⟩ := ih (line + 1) (hkept.body.trans hbody)
      (hkept.header.trans hheader) hword.2
    rw [readOn_cons, hfound, hnothing]
    exact ⟨hkept.trans hlater, rfl⟩

end Bodies

/-! ## At every moment -/

section Moments

variable {lines : List (List Char)} {m m' : Moment} {routine : Routine}

/-- What comes next keeps bodies and headers apart.

**Proof sketch.** A step is what its token does (`act_sealed`), if it is not part of a comment. At
the end of a line a header may be ended, which leaves none. -/
lemma Moment.Next.sealed (h : m.Next lines m') (hsealed : m.state.Sealed) : m'.state.Sealed := by
  cases h with
  | line hcursor htext => exact hsealed
  | @step c ch hcursor hch =>
    obtain ⟨⟨commented, hstate⟩, -⟩ | ⟨hstate, -⟩ := step_cases m.line m.state hch
    · show (Verilog.step m.line m.state c ch).state.Sealed
      rw [hstate]
      exact hsealed
    · show (Verilog.step m.line m.state c ch).state.Sealed
      rw [hstate]
      exact act_sealed hsealed m.line _
  | leave hcursor hend =>
    show (endLine m.state).1.Sealed
    rw [endLine]
    split
    · exact State.sealed_of_header (header_endHeader m.state)
    · exact hsealed

/-- At every moment no header is being read in a body. -/
lemma Reached.sealed (h : Reached lines m) : m.state.Sealed := by
  induction h with
  | refl => exact State.sealed_of_body rfl
  | tail _ hnext ih => exact hnext.sealed ih

/-- **The bodies of routines are sealed.** At every moment of reading a source, while a body is
passed over no header is being read. From there on, any rest of the line and any lines behind it in
which the end keyword of the routine does not stand in code, whatever else they say, leave the open
units, the body and the document as they are, and find nothing.

**Proof sketch.** That no header is being read in a body is kept by each token (`act_sealed`). Then
a step within the body changes nothing that counts (`act_kept`), and so does a walk to the end of
the line and the reading of further lines (`readOn_kept`). -/
theorem Reached.body_sealed (h : Reached lines m) (hbody : m.state.body = some routine) :
    m.state.header = none
      ∧ ∀ (c : Cursor) (further : List (List Char)),
        ¬ WordAhead routine.endWord m.state.inComment c further →
        (readOn m.line m.state c further).2 = []
          ∧ m.draft.marks (readOn m.line m.state c further).2 = m.draft
          ∧ (readOn m.line m.state c further).1.units = m.state.units
          ∧ (readOn m.line m.state c further).1.body = some routine
          ∧ (readOn m.line m.state c further).1.header = none := by
  have hheader : m.state.header = none := h.sealed (Option.isSome_iff_exists.2 ⟨routine, hbody⟩)
  refine ⟨hheader, fun c further hword => ?_⟩
  obtain ⟨hkept, hfound⟩ := readOn_kept m.line hbody hheader hword
  exact ⟨hfound, by rw [hfound]; rfl, hkept.units, hkept.body.trans hbody,
    hkept.header.trans hheader⟩

end Moments

/-- In the body of a task other declarations may begin and end, and its end keyword may stand in
comments, in literals and as a part of other words.

**Proof sketch.** The state in front of the second line is computed, and so are the places at which
the end keyword stands: none of them is in code and alone. -/
theorem Reached.body_sealed_task :
    let lines := ["task t;".toList]
    let c := Cursor.start "module endtasks; \x7d // endtask".toList
    let further := ["x = \"endtask\" /* endtask".toList, "*/ class a; #(".toList]
    ∃ m, Reached lines m ∧ m.state.body = some .task
      ∧ ¬ WordAhead Routine.task.endWord m.state.inComment c further
      ∧ m.state.header = none ∧ (readOn m.line m.state c further).2 = [] := by
  intro lines c further
  obtain ⟨m, hm, hfront, hline⟩ : ∃ m, Reached lines m ∧ m.cursor = none ∧ m.line = 1 :=
    exists_reached (by decide)
  have hstate : m.state = { body := some .task } := by
    have hreads := congrArg Prod.fst (hm.eq_readLines hfront)
    rw [hline] at hreads
    refine hreads.trans ?_
    decide +kernel
  have hbody : m.state.body = some .task := by rw [hstate]
  have hword : ¬ WordAhead Routine.task.endWord m.state.inComment c further := by
    rw [hstate]
    decide +kernel
  obtain ⟨hheader, hsealed⟩ := hm.body_sealed hbody
  exact ⟨m, hm, hbody, hword, hheader, (hsealed c further hword).1⟩

end Outliner.Verilog
