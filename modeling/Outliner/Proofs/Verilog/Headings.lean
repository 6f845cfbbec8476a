import Mathlib.Tactic.Lemma
import Outliner.Proofs.Verilog.Bodies

set_option autoImplicit false

/-!
# Headings of tasks and functions

What is known of the header of a task or function is read off its tokens one by one. Its name is the
last word, and its owner is the last word in front of the last pair of colons, where words of types
do not count. So the name has the owner and the pair of colons directly in front of it, unless other
tokens stand between the owner and the colons or between the colons and the name.

## Main definitions

* `Outliner.Verilog.readHeading` — what is read off the tokens of a header.
* `Outliner.Verilog.DirectlyQualified`, `Outliner.Verilog.Stray` — where the owner and the colons
  stand.
* `Outliner.Verilog.Moment.Heads` — the tokens of a header that is being read.

## Main results

* `Outliner.Verilog.directlyQualified_iff` — the name is directly qualified unless tokens stray.
* `Outliner.Verilog.act_header` — what a token does to the header of a routine.
* `Outliner.Verilog.Reached.heads` — what is known of a header was read off its tokens.
-/

namespace Outliner.Verilog

/-! ## Headings -/

/-- Whether the token is a word that may be a name. -/
def Token.isName : Token → Bool
  | .word text => !typeWords.contains text
  | _ => false

/-- What is read off one more token: the words that may be the name, the last one first, and the
word in front of the last pair of colons. -/
def takeToken : List String × Option String → Token → List String × Option String
  | (words, owner), .word text => (if typeWords.contains text then words else text :: words, owner)
  | (words, _), .colons => (words.tail, words.head?)
  | read, _ => read

/-- What is read off the tokens of a header, from its keyword on. -/
def readHeading (tokens : List Token) : List String × Option String :=
  tokens.foldl takeToken ([], none)

/-- The two tokens in front of the name are the owner and a pair of colons, and behind the name
there is no other word that may be one, and no pair of colons. -/
def DirectlyQualified (tokens : List Token) (owner name : String) : Prop :=
  ∃ front back, tokens = front ++ .word owner :: .colons :: .word name :: back
    ∧ .colons ∉ back ∧ back.any Token.isName = false

/-- Other tokens stand between a name and the last pair of colons behind it, or between these and
the next name, or this name is not the only one behind them. -/
def Stray (tokens : List Token) : Prop :=
  ∃ front back, tokens = front ++ .colons :: back ∧ .colons ∉ back
    ∧ (front.getLast?.any Token.isName && back.head?.any Token.isName
      && !back.tail.any Token.isName) = false

section Headings

variable {tokens front back : List Token} {owner name : String} {words : List String}

/-- A token that may be a name is a word. -/
lemma exists_word_of_isName {token : Token} (h : token.isName = true) :
    ∃ text, token = .word text := by
  cases token with
  | word text => exact ⟨text, rfl⟩
  | _ => cases h

/-- What is read off a word that may be a name. -/
lemma takeToken_name {text : String} (h : (Token.word text).isName = true)
    (read : List String × Option String) :
    takeToken read (.word text) = (text :: read.1, read.2) := by
  rw [Token.isName, Bool.not_eq_true'] at h
  rw [takeToken, h]
  rfl

/-- Nothing is read off a token that is no pair of colons and no word that may be a name. -/
lemma takeToken_other {token : Token} (hcolons : token ≠ .colons) (hname : token.isName = false)
    (read : List String × Option String) : takeToken read token = read := by
  cases token with
  | word text =>
    rw [Token.isName, Bool.not_eq_false'] at hname
    rw [takeToken, hname]
    rfl
  | colons => exact absurd rfl hcolons
  | _ => rfl

/-- Tokens that are neither names nor colons leave what was read. -/
lemma foldl_takeToken_other (hcolons : .colons ∉ tokens) (hnames : tokens.any Token.isName = false)
    (read : List String × Option String) : tokens.foldl takeToken read = read := by
  induction tokens with
  | nil => rfl
  | cons token tokens ih =>
    rw [List.any_cons, Bool.or_eq_false_iff] at hnames
    rw [List.mem_cons, not_or] at hcolons
    rw [List.foldl_cons, takeToken_other (Ne.symm hcolons.1) hnames.1, ih hcolons.2 hnames.2]

/-- The owner does not change behind the last pair of colons. -/
lemma foldl_takeToken_owner (hcolons : .colons ∉ tokens) (read : List String × Option String) :
    (tokens.foldl takeToken read).2 = read.2 := by
  induction tokens generalizing read with
  | nil => rfl
  | cons token tokens ih =>
    rw [List.mem_cons, not_or] at hcolons
    rw [List.foldl_cons, ih hcolons.2]
    cases token with
    | colons => exact absurd rfl hcolons.1
    | _ => rfl

/-- The last pair of colons is followed by none, so there is only one.

**Proof sketch.** Induction on both fronts. If one of them is empty and the other is not, the pair
of colons stands in the part behind, which has none. -/
lemma append_colons_inj {front' back' : List Token} (hback : Token.colons ∉ back)
    (hback' : .colons ∉ back') (h : front ++ .colons :: back = front' ++ .colons :: back') :
    front = front' ∧ back = back' := by
  induction front generalizing front' with
  | nil =>
    cases front' with
    | nil => exact ⟨rfl, (List.cons_eq_cons.1 h).2⟩
    | cons token front' =>
      obtain ⟨-, rfl⟩ := List.cons_eq_cons.1 h
      exact absurd (List.mem_append_right _ List.mem_cons_self) hback
  | cons token front ih =>
    cases front' with
    | nil =>
      obtain ⟨-, rfl⟩ := List.cons_eq_cons.1 h
      exact absurd (List.mem_append_right _ List.mem_cons_self) hback'
    | cons token' front' =>
      obtain ⟨rfl, hrest⟩ := List.cons_eq_cons.1 h
      obtain ⟨rfl, rfl⟩ := ih hrest
      exact ⟨rfl, rfl⟩

/-- Where there are colons there are last ones. -/
lemma exists_last_colons (h : .colons ∈ tokens) :
    ∃ front back, tokens = front ++ .colons :: back ∧ .colons ∉ back := by
  induction tokens with
  | nil => cases h
  | cons token tokens ih =>
    by_cases hlater : .colons ∈ tokens
    · obtain ⟨front, back, rfl, hback⟩ := ih hlater
      exact ⟨token :: front, back, rfl, hback⟩
    · obtain rfl : token = .colons := by simpa [hlater, eq_comm] using h
      exact ⟨[], tokens, rfl, hlater⟩

/-- All that is read may be names. -/
structure AllNames (read : List String × Option String) : Prop where
  /-- The words may be names. -/
  words : ∀ text ∈ read.1, (Token.word text).isName = true
  /-- So may the owner. -/
  owner : ∀ text, read.2 = some text → (Token.word text).isName = true

/-- What was read off tokens are names.

**Proof sketch.** A name is added to the words, the colons take the last word for the owner, and any
other token changes nothing. -/
lemma AllNames.takeToken {read : List String × Option String} (h : AllNames read)
    (token : Token) : AllNames (takeToken read token) := by
  by_cases hname : token.isName = true
  · cases token with
    | word text =>
      rw [takeToken_name hname]
      refine ⟨fun other hother => ?_, h.owner⟩
      rcases List.mem_cons.1 hother with rfl | hother
      · exact hname
      · exact h.words other hother
    | _ => cases hname
  · by_cases hcolons : token = .colons
    · subst hcolons
      exact ⟨fun text htext => h.words text (List.mem_of_mem_tail htext),
        fun text htext => h.words text (List.mem_of_mem_head? htext)⟩
    · rw [takeToken_other hcolons (Bool.not_eq_true _ ▸ hname)]
      exact h

/-- All that is read off a header are names. -/
lemma allNames_readHeading (tokens : List Token) : AllNames (readHeading tokens) := by
  suffices h : ∀ read, AllNames read → AllNames (tokens.foldl Verilog.takeToken read) from
    h _ ⟨List.forall_mem_nil _, fun _ howner => by cases howner⟩
  induction tokens with
  | nil => exact fun _ h => h
  | cons token tokens ih => exact fun read h => ih _ (h.takeToken token)

/-- The owner and the name are read off a heading in which the name is directly qualified. -/
lemma DirectlyQualified.readHeading (h : DirectlyQualified tokens owner name)
    (howner : (Token.word owner).isName = true) (hname : (Token.word name).isName = true) :
    ∃ words, Verilog.readHeading tokens = (name :: words, some owner) := by
  obtain ⟨front, back, rfl, hcolons, hback⟩ := h
  refine ⟨(Verilog.readHeading front).1, ?_⟩
  rw [Verilog.readHeading, List.foldl_append, List.foldl_cons, List.foldl_cons, List.foldl_cons,
    takeToken_name howner, takeToken_name hname, foldl_takeToken_other hcolons hback]
  rfl

/-- **The name is directly qualified unless tokens stray.**

**Proof sketch.** The owner is what stood in front of the last pair of colons. If no tokens stray,
the token in front of these is the last word read, and the token behind them the only one, so they
are the owner and the name. -/
theorem directlyQualified_iff (h : readHeading tokens = (name :: words, some owner)) :
    DirectlyQualified tokens owner name ↔ ¬ Stray tokens := by
  have hnames := allNames_readHeading tokens
  rw [h] at hnames
  have hname : (Token.word name).isName = true := hnames.words name List.mem_cons_self
  have howner : (Token.word owner).isName = true := hnames.owner owner rfl
  constructor
  · rintro ⟨front, back, htokens, hcolons, hback⟩ ⟨front', back', htokens', hcolons', hstray⟩
    -- both cut the tokens at the last colons
    have hsplit : (front ++ [.word owner]) ++ .colons :: (.word name :: back)
        = front' ++ .colons :: back' := by
      rw [← htokens', htokens, List.append_assoc]
      rfl
    have hnone : .colons ∉ Token.word name :: back := by simpa using hcolons
    obtain ⟨rfl, rfl⟩ := append_colons_inj hnone hcolons' hsplit
    simp [hname, howner, hback] at hstray
  · intro hstray
    -- an owner was read, so there are colons
    have hcolons : .colons ∈ tokens := by
      by_contra hnone
      have howner := foldl_takeToken_owner hnone ([], none)
      rw [Verilog.readHeading] at h
      rw [h] at howner
      cases howner
    obtain ⟨front, back, rfl, hback⟩ := exists_last_colons hcolons
    have hclean : (front.getLast?.any Token.isName && back.head?.any Token.isName
        && !back.tail.any Token.isName) = true := by
      by_contra hnot
      exact hstray ⟨front, back, rfl, hback, Bool.not_eq_true _ ▸ hnot⟩
    rw [Bool.and_eq_true, Bool.and_eq_true, Bool.not_eq_true'] at hclean
    obtain ⟨⟨hlast, hfirst⟩, hrest⟩ := hclean
    -- next to the last ones stand the owner and the name
    obtain ⟨last, hlast, hlastName⟩ := (Option.any_eq_true _ _).1 hlast
    obtain ⟨first, hfirst, hfirstName⟩ := (Option.any_eq_true _ _).1 hfirst
    obtain ⟨front, rfl⟩ := List.getLast?_eq_some_iff.1 hlast
    obtain ⟨back, rfl⟩ := List.head?_eq_some_iff.1 hfirst
    obtain ⟨o, rfl⟩ := exists_word_of_isName hlastName
    obtain ⟨n, rfl⟩ := exists_word_of_isName hfirstName
    rw [List.mem_cons, not_or] at hback
    have hdirect : DirectlyQualified (front ++ [.word o] ++ .colons :: .word n :: back) o n :=
      ⟨front, back, by simp, hback.2, hrest⟩
    obtain ⟨words', hread⟩ := hdirect.readHeading hlastName hfirstName
    rw [h] at hread
    obtain ⟨hwords, howner⟩ := Prod.mk.inj hread
    obtain rfl := (List.cons_eq_cons.1 hwords).1
    obtain rfl := Option.some.inj howner
    exact hdirect

end Headings

/-! ## What a token does to a header -/

section Headers

variable {s : State} {line : Nat} {token : Token} {header : PartialHeader} {routine : Routine}

/-- The header is that of a routine. -/
def PartialHeader.IsOf (header : PartialHeader) (routine : Routine) : Prop :=
  ∃ isPrototype isExternal, header.declared = .routine routine isPrototype isExternal

/-- The header was begun before, and since then the tokens were read off. -/
structure PartialHeader.Continues (before header : PartialHeader) (tokens : List Token) : Prop where
  /-- It declares the same. -/
  declared : header.declared = before.declared
  /-- It began on the same line. -/
  line : header.line = before.line
  /-- The tokens were read off. -/
  read : (header.words, header.owner) = tokens.foldl takeToken (before.words, before.owner)

/-- A header continues itself over tokens that are not read. -/
lemma PartialHeader.Continues.refl {tokens : List Token} (header : PartialHeader)
    (h : tokens.foldl takeToken (header.words, header.owner) = (header.words, header.owner)) :
    header.Continues header tokens := ⟨rfl, rfl, h.symm⟩

/-- A header that is continued is of the same routine. -/
lemma PartialHeader.Continues.isOf {before : PartialHeader} {tokens : List Token}
    (h : before.Continues header tokens) (hroutine : header.IsOf routine) :
    before.IsOf routine := by
  obtain ⟨isPrototype, isExternal, hdeclared⟩ := hroutine
  exact ⟨isPrototype, isExternal, h.declared ▸ hdeclared⟩

/-- In the header of a routine a word is read off.

**Proof sketch.** By what the header declared before. That of a substitution or a design unit does
not become one of a routine; that of a routine adds the word. -/
lemma headerWord_header {before : PartialHeader} {text : String}
    (hheader : (headerWord s before text).1.header = some header) (hroutine : header.IsOf routine) :
    before.Continues header [.word text] := by
  obtain ⟨isPrototype, isExternal, hdeclared⟩ := hroutine
  unfold headerWord at hheader
  cases hbefore : before.declared with
  | definition =>
    rw [hbefore] at hheader
    rw [header_endHeader] at hheader
    cases hheader
  | designUnit kind =>
    rw [hbefore] at hheader
    dsimp only at hheader
    split_ifs at hheader
    all_goals first
      | (rw [header_endHeader] at hheader; cases hheader)
      | (obtain rfl := Option.some.inj hheader; cases hdeclared)
  | routine kind prototype external =>
    rw [hbefore] at hheader
    obtain rfl := Option.some.inj hheader
    exact ⟨hbefore ▸ rfl, rfl, rfl⟩

/-- The header of a routine begins at its keyword. -/
lemma freeWord_header {text : String} (hnone : s.header = none)
    (hheader : (freeWord s line text).1.header = some header) (hroutine : header.IsOf routine) :
    Routine.ofWord? text = some routine ∧ header.words = [] ∧ header.owner = none := by
  obtain ⟨isPrototype, isExternal, hdeclared⟩ := hroutine
  obtain ⟨declared, h, -, hword⟩ | ⟨outer, h⟩ | h := freeWord_cases s line text
  · rw [h] at hheader
    obtain rfl := Option.some.inj hheader
    exact ⟨hword routine isPrototype isExternal hdeclared, rfl, rfl⟩
  · rw [h] at hheader
    cases hnone.symm.trans hheader
  · rw [h] at hheader
    cases hnone.symm.trans hheader

/-- The header of a routine that is being read behind a word was begun by the word, or the word was
read off.

**Proof sketch.** In a body no header is being read, and between braces the word does not count.
Else it is read off if a header is being read, and begins one if not. -/
lemma word_header {text : String} (hsealed : s.Sealed)
    (hheader : (word s line text).1.header = some header) (hroutine : header.IsOf routine) :
    ((Token.word text).counted s.braces = [.word text] ∧ Routine.ofWord? text = some routine
        ∧ header.words = [] ∧ header.owner = none)
      ∨ ∃ before, s.header = some before
        ∧ before.Continues header ((Token.word text).counted s.braces) := by
  rw [word] at hheader
  cases hbody : s.body with
  | some body =>
    -- in a body no header is being read
    have hnone := hsealed (Option.isSome_iff_exists.2 ⟨body, hbody⟩)
    rw [hbody] at hheader
    dsimp only at hheader
    split_ifs at hheader <;> (rw [hnone] at hheader; cases hheader)
  | none =>
    rw [hbody] at hheader
    dsimp only at hheader
    split_ifs at hheader with hbraces
    · rw [Token.counted, if_pos hbraces]
      exact .inr ⟨header, hheader, .refl header rfl⟩
    rw [Token.counted, if_neg hbraces]
    cases hbefore : s.header with
    | some before =>
      rw [hbefore] at hheader
      exact .inr ⟨before, rfl, headerWord_header hheader hroutine⟩
    | none =>
      rw [hbefore] at hheader
      exact .inl ⟨rfl, freeWord_header hbefore hheader hroutine⟩

/-- **The header of a routine that is being read behind a token** was begun by the token, or the
token was read off.

**Proof sketch.** By the token. A sign ends the header, so none is left. A word begins the header or
is read off (`word_header`), the colons change the owner, and a directive begins a header that is
not one of a routine. -/
theorem act_header (hsealed : s.Sealed) (hheader : (act line s token).1.header = some header)
    (hroutine : header.IsOf routine) :
    (∃ keyword, token.counted s.braces = [.word keyword] ∧ Routine.ofWord? keyword = some routine
        ∧ header.words = [] ∧ header.owner = none)
      ∨ ((∀ ch, token ≠ .sign ch)
        ∧ ∃ before, s.header = some before ∧ before.Continues header (token.counted s.braces)) := by
  by_cases hsign : ∃ ch, token = .sign ch
  · obtain ⟨ch, rfl⟩ := hsign
    rw [act] at hheader
    split_ifs at hheader <;> (rw [header_endHeader] at hheader; cases hheader)
  have hother : ∀ ch, token ≠ .sign ch := fun ch h => hsign ⟨ch, h⟩
  cases token with
  | word text =>
    obtain hbegun | hread := word_header hsealed hheader hroutine
    · exact .inl ⟨text, hbegun⟩
    · exact .inr ⟨hother, hread⟩
  | colons =>
    obtain ⟨before, hbefore, rfl⟩ := Option.map_eq_some_iff.1 hheader
    exact .inr ⟨hother, before, hbefore, rfl, rfl, rfl⟩
  | sign ch => exact absurd rfl (hother ch)
  | definition =>
    rw [act] at hheader
    split_ifs at hheader
    · obtain rfl := Option.some.inj hheader
      obtain ⟨isPrototype, isExternal, hdeclared⟩ := hroutine
      cases hdeclared
    · exact .inr ⟨hother, header, hheader, .refl header rfl⟩
  | _ => exact .inr ⟨hother, header, hheader, .refl header rfl⟩

end Headers

/-! ## The headers of a source -/

/-- At the moment the header of a routine is being read, and the tokens were read since its
keyword. -/
structure Moment.Heads (m : Moment) (header : PartialHeader) (routine : Routine)
    (tokens : List Token) : Prop where
  /-- The header is being read. -/
  pending : m.state.header = some header
  /-- It is that of a routine. -/
  isOf : header.IsOf routine
  /-- It began with the keyword of the routine, and the tokens were read since. -/
  begun : ∃ front keyword, m.tokens = front ++ .word keyword :: tokens
    ∧ Routine.ofWord? keyword = some routine
  /-- None of them ended it. -/
  unended : ∀ ch, .sign ch ∉ tokens
  /-- What is known of the header was read off them. -/
  read : (header.words, header.owner) = readHeading tokens

section Moments

variable {lines : List (List Char)} {m m' : Moment} {header : PartialHeader} {routine : Routine}
  {tokens : List Token}

/-- A token that is no sign does not count as one. -/
lemma sign_not_mem_counted {token : Token} (h : ∀ ch, token ≠ .sign ch) (braces : Nat)
    (ch : Char) : Token.sign ch ∉ token.counted braces := by
  cases token with
  | word text =>
    rw [Token.counted]
    split <;> simp
  | sign other => exact absurd rfl (h other)
  | _ => simp [Token.counted]

/-- A header that is begun, or of which a token is read off.

**Proof sketch.** A token that is passed over leaves the header and the tokens alone. Any other one
begins the header, which has read nothing then, or is read off behind the tokens before it
(`act_header`). -/
lemma Moment.Heads.step {c : Cursor} {ch : Char} (hch : c.peek? = some ch)
    (hsealed : m.state.Sealed)
    (h : ∀ header routine, m.state.header = some header → header.IsOf routine →
      ∃ tokens, m.Heads header routine tokens)
    (hheader : (m.step c ch).state.header = some header) (hroutine : header.IsOf routine) :
    ∃ tokens, (m.step c ch).Heads header routine tokens := by
  have htokens : (m.step c ch).tokens = m.tokens ++ tokensAt m.state c ch := rfl
  obtain ⟨⟨commented, hstate⟩, -, hnone⟩ | ⟨hstate, -, hcounted, -⟩ :=
    step_cases m.line m.state hch
  · have hsame : m.state.header = some header := by
      rw [← hheader]
      exact (congrArg State.header hstate).symm
    obtain ⟨tokens, hheads⟩ := h header routine hsame hroutine
    rw [hnone, List.append_nil] at htokens
    exact ⟨tokens, hheader, hroutine, htokens ▸ hheads.begun, hheads.unended, hheads.read⟩
  · rw [hcounted] at htokens
    have hacted : (act m.line m.state (tokenAt c ch)).1.header = some header := by
      rw [← hheader]
      exact (congrArg State.header hstate).symm
    obtain ⟨keyword, hword, hkeyword, hwords, howner⟩ | ⟨hsign, before, hbefore, hcontinues⟩ :=
      act_header hsealed hacted hroutine
    · rw [hword] at htokens
      refine ⟨[], hheader, hroutine, ⟨m.tokens, keyword, htokens, hkeyword⟩, by simp, ?_⟩
      rw [hwords, howner]
      rfl
    · obtain ⟨tokens, hheads⟩ := h before routine hbefore (hcontinues.isOf hroutine)
      obtain ⟨front, keyword, hbegun, hkeyword⟩ := hheads.begun
      refine ⟨tokens ++ (tokenAt c ch).counted m.state.braces, hheader, hroutine,
        ⟨front, keyword, ?_, hkeyword⟩, fun sign hmem => ?_, ?_⟩
      · rw [htokens, hbegun, List.append_assoc, List.cons_append]
      · rcases List.mem_append.1 hmem with hmem | hmem
        · exact hheads.unended sign hmem
        · exact sign_not_mem_counted hsign _ sign hmem
      · rw [readHeading, List.foldl_append, ← readHeading, ← hheads.read, hcontinues.read]

/-- At the end of a line the header of a routine goes on. -/
lemma endLine_of_isOf {s : State} (hheader : (endLine s).1.header = some header) :
    endLine s = (s, []) := by
  unfold endLine at hheader ⊢
  split_ifs at hheader ⊢
  · rw [header_endHeader] at hheader
    cases hheader
  · rfl

/-- **What is known of the header of a routine was read off its tokens**, at every moment.

**Proof sketch.** Induction on the moments. A step begins the header or reads off a token
(`act_header`), and comments and ends of lines do neither. -/
theorem Reached.heads (h : Reached lines m) (hheader : m.state.header = some header)
    (hroutine : header.IsOf routine) : ∃ tokens, m.Heads header routine tokens := by
  induction h generalizing header routine with
  | refl => cases hheader
  | @tail m m' h hnext ih =>
    cases hnext with
    | line hcursor htext =>
      obtain ⟨tokens, hheads⟩ := ih hheader hroutine
      exact ⟨tokens, hheads.pending, hheads.isOf, hheads.begun, hheads.unended, hheads.read⟩
    | step hcursor hch =>
      exact Moment.Heads.step hch (Reached.sealed h)
        (fun header routine hheader hroutine => ih hheader hroutine) hheader hroutine
    | leave hcursor hend =>
      have hsame : m.leave.state = m.state :=
        congrArg Prod.fst (endLine_of_isOf (s := m.state) hheader)
      rw [hsame] at hheader
      obtain ⟨tokens, hheads⟩ := ih hheader hroutine
      exact ⟨tokens, hsame ▸ hheader, hroutine, hheads.begun, hheads.unended, hheads.read⟩

end Moments

end Outliner.Verilog
