import Mathlib.Tactic.Lemma
import Outliner.ByCharacter.Verilog
import Outliner.Proofs.Checked.ByCharacter
import Outliner.Proofs.Comments.Reader

set_option autoImplicit false

/-!
# Tokens and comments of Verilog sources

In code a Verilog source is read token by token. Which token stands at a place, and how far it goes,
depends on the characters there; what it does depends on the state. Comments of both kinds and
literals are passed over, so that what stands in them makes no difference.

## Main definitions

* `Outliner.Verilog.Token`, `Outliner.Verilog.tokenAt` — the tokens, and which one stands at a
  place.
* `Outliner.Verilog.act` — what a token does.
* `Outliner.Verilog.lexicon` — what comments and literals look like.
* `Outliner.Verilog.commentReader` — reading a source, as a reader that passes over comments.

## Main results

* `Outliner.Verilog.codeStep_eq`, `Outliner.Verilog.codeStep_literal` — a step in code is what its
  token does.
* `Outliner.Verilog.marks_comment` — what a block comment says makes no difference to the marks.
-/

namespace Outliner.Verilog

/-! ## Tokens -/

/-- A token of a source. -/
inductive Token where
  /-- A word. -/
  | word (text : String)
  /-- A pair of colons. -/
  | colons
  /-- A sign at which a header ends. -/
  | sign (ch : Char)
  /-- The directive with which a text substitution begins. -/
  | definition
  /-- An opening brace. -/
  | opening
  /-- A closing brace. -/
  | closing
  /-- A literal, a number, another directive or another character. -/
  | other
  /-- A blank. -/
  | blank
deriving DecidableEq, Repr

/-- The token at a place in code. -/
def tokenAt (c : Cursor) (ch : Char) : Token :=
  if ch = '"' then .other
  else if ch = '\x7b' then .opening
  else if ch = '\x7d' then .closing
  else if ch.toNat = 0x60 then
    if c.next.startsWith "define".toList then .definition else .other
  else if ch = ';' ∨ ch = '(' ∨ ch = '#' then .sign ch
  else if ch = ':' ∧ c.peekAt? 1 = some ':' then .colons
  else if beginsWord ch && c.isAtWordStart then .word (.ofList (c.span isNameChar).1)
  else if isBlank ch then .blank
  else .other

/-- What a token does. -/
def act (line : Nat) (s : State) : Token → State × List Mark
  | .word text => word s line text
  | .colons => (qualify s, [])
  | .sign ch =>
    (if ch = ';' then { (endHeader s).1 with qualifiers := [] } else (endHeader s).1,
      (endHeader s).2)
  | .definition =>
    (if s.body.isNone then { s with header := some { declared := .definition, line := line } }
      else s, [])
  | .opening => ({ s with braces := s.braces + 1 }, [])
  | .closing => ({ s with braces := s.braces - 1 }, [])
  | .other | .blank => (s, [])

/-- How many characters belong to the token behind its first one, where it is no literal. Only the
name of a directive may depend on whether it is read in the body of a routine. -/
def width (outside : Bool) (c : Cursor) (ch : Char) : Nat :=
  if ch = '\x7b' ∨ ch = '\x7d' then 0
  else if ch.toNat = 0x60 then
    if c.next.startsWith "define".toList && outside then "define".toList.length
    else (c.next.after.takeWhile isIdentifierChar).length
  else if ch = ';' ∨ ch = '(' ∨ ch = '#' then 0
  else if ch = ':' ∧ c.peekAt? 1 = some ':' then 1
  else if beginsWord ch && c.isAtWordStart then (c.next.after.takeWhile isNameChar).length
  else if ch.isDigit then (c.next.after.takeWhile isNumberChar).length
  else 0

section Tokens

variable {line : Nat} {s : State} {c : Cursor} {ch : Char}

/-- The characters of a class at the cursor, one of which comes next. -/
lemma span_eq {p : Char → Bool} (hch : c.peek? = some ch) (hp : p ch = true) :
    (c.span p).2 = c.next.forward (c.next.after.takeWhile p).length := by
  obtain ⟨text, hafter⟩ := List.head?_eq_some_iff.1 hch
  rw [Cursor.span, Cursor.after_next hafter, hafter, List.takeWhile_cons, if_pos hp]
  exact Cursor.forward_succ _ c

/-- A literal does nothing. -/
lemma codeStep_literal (line : Nat) (s : State) (c : Cursor) :
    codeStep line s c '"' = { state := s, cursor := (c.overQuoted '"').2 } := rfl

/-- A directive does what its token does. -/
lemma directiveStep_eq : directiveStep line s c
    = { state := (act line s (if c.next.startsWith "define".toList then .definition
          else .other)).1
        cursor := c.next.forward (if c.next.startsWith "define".toList && s.body.isNone then
            "define".toList.length
          else (c.next.after.takeWhile isIdentifierChar).length)
        found := (act line s (if c.next.startsWith "define".toList then .definition
          else .other)).2 } := by
  rw [directiveStep, Cursor.eat?]
  cases c.next.startsWith "define".toList with
  | false => rfl
  | true =>
    cases hbody : s.body.isNone with
    | false => simp [act, hbody, Cursor.skipWhile, Cursor.span]
    | true => simp [act, hbody]

/-- **A step in code is what its token does**, and moves behind it.

**Proof sketch.** By the character, in the order in which a step asks for it. Each branch moves over
the characters that belong to its token. -/
lemma codeStep_eq (hch : c.peek? = some ch) (hquote : ch ≠ '"') : codeStep line s c ch
    = { state := (act line s (tokenAt c ch)).1
        cursor := c.next.forward (width s.body.isNone c ch)
        found := (act line s (tokenAt c ch)).2 } := by
  have hnot : ¬ (ch = '\x7b' ∨ ch = '\x7d') → ch ≠ '\x7b' ∧ ch ≠ '\x7d' := not_or.1
  rw [codeStep, tokenAt, width, if_neg hquote, if_neg hquote]
  by_cases hbrace : ch = '\x7b' ∨ ch = '\x7d'
  · rw [if_pos hbrace]
    obtain rfl | rfl := hbrace <;> rfl
  rw [if_neg (hnot hbrace).1, if_neg (hnot hbrace).1, if_neg (hnot hbrace).2,
    if_neg (hnot hbrace).2, if_neg hbrace]
  by_cases hdirective : ch.toNat = 0x60
  · rw [if_pos hdirective, if_pos hdirective, if_pos hdirective]
    exact directiveStep_eq
  rw [if_neg hdirective, if_neg hdirective, if_neg hdirective]
  by_cases hsign : ch = ';' ∨ ch = '(' ∨ ch = '#'
  · rw [if_pos hsign, if_pos hsign, if_pos hsign]
    rfl
  rw [if_neg hsign, if_neg hsign, if_neg hsign]
  by_cases hcolons : ch = ':' ∧ c.peekAt? 1 = some ':'
  · rw [if_pos hcolons, if_pos hcolons, if_pos hcolons]
    exact congrArg (Cursor.Step.mk (qualify s) · []) (Cursor.forward_succ 1 c)
  rw [if_neg hcolons, if_neg hcolons, if_neg hcolons]
  by_cases hword : (beginsWord ch && c.isAtWordStart) = true
  · rw [if_pos hword, if_pos hword, if_pos hword,
      ← span_eq hch (isNameChar_of_beginsWord (Bool.and_eq_true_iff.1 hword).1)]
    rfl
  rw [if_neg hword, if_neg hword, if_neg hword]
  have hnothing : act line s (if isBlank ch then .blank else .other) = (s, []) := by
    split <;> rfl
  rw [hnothing]
  by_cases hdigit : ch.isDigit = true
  · rw [if_pos hdigit, if_pos hdigit, ← span_eq hch (isNumberChar_of_isDigit hdigit)]
    rfl
  · rw [if_neg hdigit, if_neg hdigit]
    rfl

/-- What a step in code does, literals included. -/
lemma codeStep_acts (line : Nat) (s : State) (hch : c.peek? = some ch) :
    (codeStep line s c ch).state = (act line s (tokenAt c ch)).1
      ∧ (codeStep line s c ch).found = (act line s (tokenAt c ch)).2 := by
  by_cases hquote : ch = '"'
  · rw [hquote]
    exact ⟨rfl, rfl⟩
  · rw [codeStep_eq hch hquote]
    exact ⟨rfl, rfl⟩

/-! ## What a token depends on -/

section Stops

variable {before before' text rest rest' : List Char}

/-- The character behind the next one is a colon in the text, or nowhere. -/
lemma peekAt?_stop (hrest : IsStop rest) :
    (⟨before, ch :: text ++ rest⟩ : Cursor).peekAt? 1 = some ':' ↔ text.head? = some ':' := by
  cases text with
  | cons d text => rfl
  | nil =>
    cases rest with
    | nil => simp [Cursor.peekAt?]
    | cons d rest =>
      obtain rfl : d = '/' := by simpa [IsStop] using hrest
      simp [Cursor.peekAt?]

/-- The token depends on the character before it and on what stands in front of the next stop. -/
lemma tokenAt_alike (hbefore : before.head? = before'.head?) (hrest : IsStop rest)
    (hrest' : IsStop rest') : tokenAt ⟨before, ch :: text ++ rest⟩ ch
      = tokenAt ⟨before', ch :: text ++ rest'⟩ ch := by
  have hdefine : '/' ∉ "define".toList := by decide
  simp only [tokenAt, Cursor.next, Cursor.forward, Cursor.startsWith, List.cons_append,
    List.take_succ_cons, List.drop_succ_cons, List.take_zero, List.drop_zero,
    startsWith_stop hdefine hrest, startsWith_stop hdefine hrest']
  simp only [← List.cons_append, peekAt?_stop hrest, peekAt?_stop hrest', Cursor.isAtWordStart,
    Cursor.previous?, hbefore, Cursor.span,
    takeWhile_stop (p := isNameChar) (by decide) hrest,
    takeWhile_stop (p := isNameChar) (by decide) hrest']

/-- A token is as wide whatever stands behind the stop.

**Proof sketch.** The letters of a token end at a stop, and so do the words that it is compared
with. -/
lemma width_alike (hbefore : before.head? = before'.head?) (hrest : IsStop rest)
    (hrest' : IsStop rest') (outside : Bool) : width outside ⟨before, ch :: text ++ rest⟩ ch
      = width outside ⟨before', ch :: text ++ rest'⟩ ch := by
  have hdefine : '/' ∉ "define".toList := by decide
  simp only [width, Cursor.next, Cursor.forward, Cursor.startsWith, List.cons_append,
    List.take_succ_cons, List.drop_succ_cons, List.take_zero, List.drop_zero,
    startsWith_stop hdefine hrest, startsWith_stop hdefine hrest',
    takeWhile_stop (p := isNameChar) (by decide) hrest,
    takeWhile_stop (p := isNameChar) (by decide) hrest',
    takeWhile_stop (p := isNumberChar) (by decide) hrest,
    takeWhile_stop (p := isNumberChar) (by decide) hrest',
    takeWhile_stop (p := isIdentifierChar) (by decide) hrest,
    takeWhile_stop (p := isIdentifierChar) (by decide) hrest']
  simp only [← List.cons_append, peekAt?_stop hrest, peekAt?_stop hrest', Cursor.isAtWordStart,
    Cursor.previous?, hbefore]
  congr

end Stops

end Tokens

/-! ## What a word does -/

section Words

/-- **A word outside headers** begins a header without words, outside substitutions, or it ends the
innermost unit, or it is kept in mind.

**Proof sketch.** By what the word is: one that begins a design unit, one that begins a routine, the
one that ends the innermost unit, or any other one. -/
lemma freeWord_cases (s : State) (line : Nat) (text : String) :
    (∃ declared, freeWord s line text
          = ({ s with header := some { declared := declared, line := line } }, [])
        ∧ declared ≠ .definition
        ∧ ∀ kind isPrototype isExternal, declared = .routine kind isPrototype isExternal →
          Routine.ofWord? text = some kind)
      ∨ (∃ outer, freeWord s line text = ({ s with units := outer }, [.leave]))
      ∨ freeWord s line text = ({ s with qualifiers := text :: s.qualifiers }, []) := by
  unfold freeWord
  dsimp only
  split
  · next kind hunit =>
    split_ifs
    · exact .inr (.inr rfl)
    · exact .inl ⟨_, rfl, by simp, by simp⟩
  · next kind hunit hroutine =>
    refine .inl ⟨_, rfl, by simp, fun other isPrototype isExternal h => ?_⟩
    obtain ⟨rfl, -, -⟩ := Declared.routine.inj h
    exact hroutine
  · split
    · next innermost outer hunits =>
      split_ifs
      · exact .inr (.inl ⟨outer, rfl⟩)
      · exact .inr (.inr rfl)
    · exact .inr (.inr rfl)

/-- **A word of a header** is read off, outside substitutions, or it ends the header, which is not
that of a routine.

**Proof sketch.** By what the header declares. The header of a substitution ends with its name, that
of a routine goes on, and that of a design unit does either. -/
lemma headerWord_cases (s : State) (header : PartialHeader) (text : String) :
    (∃ next : PartialHeader, headerWord s header text = ({ s with header := some next }, [])
        ∧ header.declared ≠ .definition ∧ next.declared ≠ .definition)
      ∨ ∃ next : PartialHeader,
        headerWord s header text = endHeader { s with header := some next }
        ∧ next.declared = header.declared
        ∧ ∀ kind isPrototype isExternal,
          header.declared ≠ .routine kind isPrototype isExternal := by
  unfold headerWord
  cases hdeclared : header.declared with
  | definition => exact .inr ⟨_, rfl, rfl, by simp⟩
  | designUnit kind =>
    dsimp only
    split_ifs
    · exact .inl ⟨_, rfl, by simp, by simp⟩
    · exact .inl ⟨_, rfl, by simp, by simp⟩
    · exact .inr ⟨_, rfl, rfl, by simp⟩
    · exact .inl ⟨_, rfl, by simp, by simp⟩
    · exact .inr ⟨_, rfl, rfl, by simp⟩
  | routine kind isPrototype isExternal => exact .inl ⟨_, rfl, by simp, by simp⟩

end Words

/-! ## Comments -/

/-- What comments and literals look like. -/
def lexicon : Lexicon where
  quotes := ['"']
  hasRemarks := true
  unslashed := by decide

/-- The only quote is the double one. -/
lemma mem_quotes {ch : Char} : ch ∈ lexicon.quotes ↔ ch = '"' := by
  simp [lexicon]

section Steps

variable {line : Nat} {s : State} {c : Cursor} {ch : Char}

/-- The end of a header is no matter of comments. -/
lemma inComment_endHeader (s : State) : (endHeader s).1.inComment = s.inComment := by
  unfold endHeader
  cases s.header with
  | none => rfl
  | some header => obtain ⟨declared, line, _ | ⟨name, words⟩, owner⟩ := header <;>
      cases declared <;> rfl

/-- A word of a header is no matter of comments. -/
lemma inComment_headerWord (s : State) (header : PartialHeader) (word : String) :
    (headerWord s header word).1.inComment = s.inComment := by
  obtain ⟨next, h, -⟩ | ⟨next, h, -⟩ := headerWord_cases s header word
  · rw [h]
  · rw [h, inComment_endHeader]

/-- A word outside headers is no matter of comments. -/
lemma inComment_freeWord (s : State) (line : Nat) (word : String) :
    (freeWord s line word).1.inComment = s.inComment := by
  obtain ⟨declared, h, -⟩ | ⟨outer, h⟩ | h := freeWord_cases s line word <;> rw [h]

/-- What a token does is no matter of comments.

**Proof sketch.** By the token: words have the lemmas above, and all other tokens change other parts
of the state. -/
lemma inComment_act (line : Nat) (s : State) (token : Token) :
    (act line s token).1.inComment = s.inComment := by
  cases token with
  | word text =>
    rw [act, word]
    split
    · dsimp only
      split_ifs <;> rfl
    · split_ifs
      · rfl
      · split
        · exact inComment_headerWord _ _ _
        · exact inComment_freeWord _ _ _
  | sign ch =>
    rw [act]
    split_ifs <;> exact inComment_endHeader s
  | definition =>
    rw [act]
    split_ifs <;> rfl
  | _ => rfl

/-- The characters behind the first one of a token begin no comment and no literal.

**Proof sketch.** By the token. Behind its first character a token has characters of one class, or
`define`, or a colon, and none of these is a slash or a quote. -/
lemma isPlain_of_mem_take {outside : Bool} {d : Char}
    (hd : d ∈ c.next.after.take (width outside c ch)) : lexicon.IsPlain d := by
  have hplain : ∀ p : Char → Bool, p '/' = false → p '"' = false → p d = true →
      lexicon.IsPlain d := by
    intro p hslash hquote hp
    refine ⟨?_, fun hmem => ?_⟩
    · rintro rfl
      rw [hslash] at hp
      cases hp
    · obtain rfl := mem_quotes.1 hmem
      rw [hquote] at hp
      cases hp
  have hclass : ∀ p : Char → Bool, p '/' = false → p '"' = false →
      d ∈ c.next.after.take (c.next.after.takeWhile p).length → lexicon.IsPlain d := by
    intro p hslash hquote hd
    rw [← List.prefix_iff_eq_take.1 (List.takeWhile_prefix _)] at hd
    exact hplain p hslash hquote (List.mem_takeWhile_imp hd)
  unfold width at hd
  split_ifs at hd with _ _ hdefine _ hcolons
  · cases hd
  -- a definition
  · obtain ⟨rest, hrest⟩ := startsWith_iff.1 (Bool.and_eq_true_iff.1 hdefine).1
    have hletters : "define".toList.all isIdentifierChar = true := by decide
    rw [hrest, List.take_left] at hd
    exact hplain isIdentifierChar (by decide) (by decide) (List.all_eq_true.1 hletters d hd)
  · exact hclass isIdentifierChar (by decide) (by decide) hd
  · cases hd
  -- a pair of colons
  · obtain ⟨text, htext⟩ : ∃ text, c.next.after = ':' :: text :=
      List.head?_eq_some_iff.1 (by rw [← hcolons.2]; exact List.head?_drop)
    rw [htext, List.take_succ_cons, List.take_zero, List.mem_singleton] at hd
    exact hplain (· == ':') (by decide) (by decide) (by rw [hd]; rfl)
  · exact hclass isNameChar (by decide) (by decide) hd
  · exact hclass isNumberChar (by decide) (by decide) hd
  · cases hd

/-- A step looks at the character before it, and no further than to the next slash.

**Proof sketch.** A literal is passed over up to the same place. Any other step is that of its
token, and the token and its width depend on the character before it and on nothing behind a stop.
-/
lemma codeStep_alike {before before' text rest rest' : List Char}
    (hbefore : before.head? = before'.head?) (hrest : IsStop rest) (hrest' : IsStop rest')
    (hquote : ch ∈ lexicon.quotes → rest = rest' ∨ (Cursor.quotedLength? ch text).isSome) :
    Cursor.Step.Alike ⟨before, ch :: text ++ rest⟩ ⟨before', ch :: text ++ rest'⟩
      (codeStep line s ⟨before, ch :: text ++ rest⟩ ch)
      (codeStep line s ⟨before', ch :: text ++ rest'⟩ ch) := by
  by_cases hch : ch = '"'
  · obtain ⟨n, hfirst, hsecond, -⟩ :=
      Cursor.overQuoted_alike before before' (hquote (mem_quotes.2 hch))
    rw [hch] at hfirst hsecond ⊢
    rw [codeStep_literal, codeStep_literal]
    exact ⟨rfl, rfl, n, hfirst, hsecond⟩
  · rw [codeStep_eq rfl hch, codeStep_eq rfl hch, tokenAt_alike hbefore hrest hrest',
      width_alike hbefore hrest hrest']
    exact ⟨rfl, rfl, _, (Cursor.forward_succ _ ⟨before, ch :: text ++ rest⟩).symm,
      (Cursor.forward_succ _ ⟨before', ch :: text ++ rest'⟩).symm⟩

end Steps

/-- Reading a source passes over comments. -/
def commentReader : CommentReader State Mark where
  lexicon := lexicon
  inComment := State.inComment
  setComment commented s := { s with inComment := commented }
  codeStep := codeStep
  endLine := endLine
  inComment_setComment _ _ := rfl
  setComment_inComment _ := rfl
  inComment_endLine s := by
    unfold endLine
    split_ifs
    · exact inComment_endHeader s
    · rfl
  inComment_codeStep hch h := by
    rw [(codeStep_acts _ _ hch).1, inComment_act, h]
  cursor_literal hquote := by
    rw [mem_quotes.1 hquote, codeStep_literal]
  cursor_plain _ _ _ _ hch hquote := by
    rw [codeStep_eq hch fun h => hquote (mem_quotes.2 h)]
    exact ⟨_, rfl, fun d hd => isPlain_of_mem_take hd⟩
  codeStep_alike hch hbefore hrest hrest' hquote := by
    obtain ⟨tail, rfl⟩ := List.head?_eq_some_iff.1 hch
    exact codeStep_alike hbefore hrest hrest' hquote

/-- The reader of comments does what reading a source does. -/
lemma commentReader_step : commentReader.step = step := by
  funext line s c ch
  rfl

/-- The lines are read by the reader of comments as they are read by the scanner. -/
lemma commentReader_readLine : commentReader.readLine = readLine := by
  funext s line text
  rfl

/-- **What a block comment says makes no difference to the marks.** -/
theorem marks_comment {lines interior interior' rest : List (List Char)} {text : List Char}
    (hopens : lexicon.OpensComment lines text) (hlength : interior.length = interior'.length)
    (hinterior : ∀ text ∈ interior, ¬ "*/".toList <:+: text)
    (hinterior' : ∀ text ∈ interior', ¬ "*/".toList <:+: text)
    (hrest : CommentReader.ClosesComment rest) :
    marks (lines ++ spliceLines [text ++ "/*".toList] (spliceLines interior rest))
      = marks (lines ++ spliceLines [text ++ "/*".toList] (spliceLines interior' rest)) := by
  rw [marks, marks, ← commentReader_readLine]
  exact congrArg Prod.snd
    (commentReader.readLines_comment rfl hopens hlength hinterior hinterior' hrest)

end Outliner.Verilog
