import Mathlib.Tactic.Lemma
import Outliner.ByCharacter.StyleSheet
import Outliner.Proofs.Comments.Reader

set_option autoImplicit false

/-!
# Comments in style sheets

In a style sheet literals stand between quotes of either kind, and the only comments are block
comments. Reading a sheet passes over them, among rules and at-rules as in the blocks that hold no
rules.

## Main definitions

* `Outliner.StyleSheet.lexicon` — what comments and literals look like.
* `Outliner.StyleSheet.codeStep` — one step in code.
* `Outliner.StyleSheet.commentReader` — reading a sheet, as a reader that passes over comments.

## Main results

* `Outliner.StyleSheet.selectors_comment` — what a comment says makes no difference to the
  selectors.
-/

namespace Outliner.StyleSheet

/-- What comments and literals look like. -/
def lexicon : Lexicon where
  quotes := ['"', '\'']
  hasRemarks := false
  unslashed := by decide

/-- One step in code. -/
def codeStep (line : Nat) (s : State) (c : Cursor) (ch : Char) : Cursor.Step State Selector :=
  match s.block, s.atRule with
  | .rules, some nests => atRuleStep nests s c ch
  | .rules, none => ruleStep line s c ch
  | _, _ => blockStep s c ch

section Steps

variable {line : Nat} {s : State} {c : Cursor} {ch : Char}

/-- Style sheets have two quotes. -/
lemma mem_quotes : ch ∈ lexicon.quotes ↔ ch = '"' ∨ ch = '\'' := by
  simp [lexicon]

/-- A literal is passed over wherever it stands, and belongs to a selector among rules. -/
lemma codeStep_quoted (hquote : ch ∈ lexicon.quotes) (c : Cursor) : codeStep line s c ch
    = { state := if s.block = .rules ∧ s.atRule = none then
          s.extend line (c.after.take (c.after.length - (c.overQuoted ch).2.after.length))
        else s
        cursor := (c.overQuoted ch).2 } := by
  have hquote := mem_quotes.1 hquote
  have hsigns : ch ≠ '@' ∧ ch ≠ '\x7b' ∧ ch ≠ '\x7d' ∧ ch ≠ ';' ∧ ch ≠ ',' := by
    obtain rfl | rfl := hquote <;> decide
  unfold codeStep
  split
  · next hblock hatRule => simp [atRuleStep, hquote, hsigns, hatRule]
  · next hblock hatRule => simp [ruleStep, hquote, hsigns, hblock, hatRule]
  · next hnests hrules =>
    have hnot : ¬ (s.block = .rules ∧ s.atRule = none) := fun h => hrules h.1 h.2
    rw [if_neg hnot, blockStep, if_pos hquote]

/-- A step at a character that is no quote looks at this character only, or at the name of an
at-rule behind it.

**Proof sketch.** A sign that begins the name of an at-rule is followed by the name, whatever it is.
In every other case the state after the step and what is found are decided by the character, so they
are the same at any cursor. -/
lemma codeStep_unquoted (hquote : ch ∉ lexicon.quotes) (line : Nat) (s : State) :
    (∃ state found, ∀ c, codeStep line s c ch
        = { state := state, cursor := c.next, found := found })
      ∨ ∃ named : List Char → State, ∀ c, codeStep line s c ch
        = { state := named (c.next.span isRuleNameChar).1
            cursor := (c.next.span isRuleNameChar).2 } := by
  have hquote : ¬ (ch = '"' ∨ ch = '\'') := fun h => hquote (mem_quotes.2 h)
  by_cases hrule : (s.block = .rules ∧ s.atRule = none) ∧ ch = '@' ∧ s.piece = none ∧ s.list = []
  · refine .inr ⟨fun name =>
      { s with atRule := some (groupRules.contains (.ofList (name.map Char.toLower))) },
      fun c => ?_⟩
    rw [codeStep, hrule.1.1, hrule.1.2]
    exact if_pos hrule.2
  · refine .inl ⟨(codeStep line s ⟨[], []⟩ ch).state, (codeStep line s ⟨[], []⟩ ch).found,
      fun c => ?_⟩
    unfold codeStep
    split
    · unfold atRuleStep
      split_ifs <;> rfl
    · next hblock hatRule =>
      have hname : ¬ (ch = '@' ∧ s.piece = none ∧ s.list = []) :=
        fun h => hrule ⟨⟨hblock, hatRule⟩, h⟩
      rw [ruleStep, ruleStep, if_neg hname, if_neg hname, if_neg hquote, if_neg hquote]
      split_ifs <;> rfl
    · rw [blockStep, blockStep, if_neg hquote, if_neg hquote]
      split_ifs <;> rfl

/-- The name of an at-rule holds no slash and no quote. -/
lemma isPlain_of_isRuleNameChar (h : isRuleNameChar ch = true) : lexicon.IsPlain ch := by
  have hsigns : ['/', '"', '\''].any isRuleNameChar = false := by decide
  have hnot : ch ∉ ['/', '"', '\''] := fun hmem => List.any_eq_false.1 hsigns ch hmem h
  simp only [List.mem_cons, not_or] at hnot
  exact ⟨hnot.1, fun hquote => (mem_quotes.1 hquote).elim hnot.2.1 hnot.2.2.1⟩

/-- A step at a character that is no quote moves behind it, and behind the name of an at-rule. -/
lemma cursor_unquoted (hquote : ch ∉ lexicon.quotes) (c : Cursor) :
    ∃ n, (codeStep line s c ch).cursor = c.next.forward n
      ∧ ∀ d ∈ c.next.after.take n, lexicon.IsPlain d := by
  obtain ⟨state, found, hstep⟩ | ⟨named, hstep⟩ := codeStep_unquoted hquote line s
  · refine ⟨0, ?_, List.forall_mem_nil _⟩
    rw [hstep]
    rfl
  · refine ⟨_, congrArg Cursor.Step.cursor (hstep c), fun d hd => ?_⟩
    rw [← List.prefix_iff_eq_take.1 (List.takeWhile_prefix _)] at hd
    exact isPlain_of_isRuleNameChar (List.mem_takeWhile_imp hd)

/-- No comment is begun or ended in code. -/
lemma inComment_codeStep : (codeStep line s c ch).state.inComment = s.inComment := by
  unfold codeStep
  split
  · unfold atRuleStep
    split_ifs <;> rfl
  · unfold ruleStep
    split_ifs <;> rfl
  · unfold blockStep
    split_ifs <;> rfl

/-- A step looks at the next character, and at a literal or the name of an at-rule there.

**Proof sketch.** A literal is passed over alike (`Cursor.overQuoted_alike`), and so is the name of
an at-rule, because no name goes on at a stop. Any other character is taken alone. -/
lemma codeStep_alike {before before' text rest rest' : List Char} (hrest : IsStop rest)
    (hrest' : IsStop rest')
    (hquote : ch ∈ lexicon.quotes → rest = rest' ∨ (Cursor.quotedLength? ch text).isSome) :
    Cursor.Step.Alike ⟨before, ch :: text ++ rest⟩ ⟨before', ch :: text ++ rest'⟩
      (codeStep line s ⟨before, ch :: text ++ rest⟩ ch)
      (codeStep line s ⟨before', ch :: text ++ rest'⟩ ch) := by
  by_cases hch : ch ∈ lexicon.quotes
  · obtain ⟨n, hfirst, hsecond, hle, hle', htake⟩ :=
      Cursor.overQuoted_alike before before' (hquote hch)
    rw [codeStep_quoted hch, codeStep_quoted hch, hfirst, hsecond]
    refine ⟨?_, rfl, n, rfl, rfl⟩
    simp only [Cursor.length_after_forward, Nat.sub_sub_self hle, Nat.sub_sub_self hle', htake]
  · obtain ⟨state, found, hstep⟩ | ⟨named, hstep⟩ := codeStep_unquoted hch line s
    · rw [hstep, hstep]
      exact ⟨rfl, rfl, 1, rfl, rfl⟩
    · obtain ⟨hname, n, hfirst, hsecond⟩ := Cursor.span_alike (p := isRuleNameChar)
        (ch :: before) (ch :: before') text (by decide) hrest hrest'
      rw [hstep, hstep]
      refine ⟨congrArg named hname, rfl, n + 1, ?_, ?_⟩
      · exact hfirst.trans (Cursor.forward_succ n ⟨before, ch :: text ++ rest⟩).symm
      · exact hsecond.trans (Cursor.forward_succ n ⟨before', ch :: text ++ rest'⟩).symm

end Steps

/-! ## Reading -/

/-- Reading a sheet passes over comments. -/
def commentReader : CommentReader State Selector where
  lexicon := lexicon
  inComment := State.inComment
  setComment commented s := { s with inComment := commented }
  codeStep := codeStep
  endLine s := ({ s with piece := s.piece.map (·.append [' ']) }, [])
  inComment_setComment _ _ := rfl
  setComment_inComment _ := rfl
  inComment_endLine _ := rfl
  inComment_codeStep _ h := inComment_codeStep.trans h
  cursor_literal hquote := congrArg Cursor.Step.cursor (codeStep_quoted hquote _)
  cursor_plain _ _ _ _ _ hquote := cursor_unquoted hquote _
  codeStep_alike hch hbefore hrest hrest' hquote := by
    obtain ⟨tail, rfl⟩ := List.head?_eq_some_iff.1 hch
    exact codeStep_alike hrest hrest' hquote

/-- The reader of comments does what reading a sheet does. -/
lemma commentReader_step : commentReader.step = step := by
  funext line s c ch
  rfl

/-- Style sheets are read by a reader that passes over block comments. -/
lemma commentReader_readLine : commentReader.readLine = readLine := by
  funext s line text
  rw [CommentReader.readLine, CommentReader.restOfLine, commentReader_step, readLine]
  exact Prod.ext rfl (List.append_nil _)

/-- **What a comment says makes no difference to the selectors.** -/
theorem selectors_comment {lines interior interior' rest : List (List Char)} {text : List Char}
    (hopens : lexicon.OpensComment lines text) (hlength : interior.length = interior'.length)
    (hinterior : ∀ text ∈ interior, ¬ "*/".toList <:+: text)
    (hinterior' : ∀ text ∈ interior', ¬ "*/".toList <:+: text)
    (hrest : CommentReader.ClosesComment rest) :
    selectors (lines ++ spliceLines [text ++ "/*".toList] (spliceLines interior rest))
      = selectors (lines ++ spliceLines [text ++ "/*".toList] (spliceLines interior' rest)) := by
  rw [selectors, selectors, ← commentReader_readLine]
  exact congrArg Prod.snd
    (commentReader.readLines_comment rfl hopens hlength hinterior hinterior' hrest)

end Outliner.StyleSheet
