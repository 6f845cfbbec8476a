import Mathlib.Data.List.Forall2
import Outliner.Proofs.Checked.ByCharacter
import Outliner.Proofs.Php.Lexing

set_option autoImplicit false

/-!
# Regions of a PHP source

A part of a line is text outside the tags, code, a comment or a literal. Where it is text outside
the tags or of a comment, it is hidden: the reading along the line passes over it and does not see
what it is made of. So two lines that differ in what is hidden are read alike.

## Main definitions

* `Outliner.Php.Region` — what a part of a line belongs to.
* `Outliner.Php.survey` — which characters of a line are hidden.
* `Outliner.Php.Twins` — a line and one in which hidden characters are overwritten with spaces.
* `Outliner.Php.resume` — the reading along a line, from a region on.

## Main results

* `Outliner.Php.resume_eq` — the reading along a line does not see what is hidden.
-/

namespace Outliner.Php

/-! ## Which characters are hidden -/

/-- What a part of a line belongs to. -/
inductive Region where
  /-- Text outside the tags. -/
  | page
  /-- Code. -/
  | code
  /-- A block comment. -/
  | comment
  /-- A comment that ends with the line or at a closing tag. -/
  | remark
  /-- A literal in these quotes. -/
  | quoted (quote : Char)
deriving DecidableEq, Repr

namespace Region

/-- The text of the region is hidden. -/
def hides : Region → Bool
  | page | comment | remark => true
  | code | quoted _ => false

/-- The region behind two characters that belong together: a tag, a token of a comment, the sign
before an attribute, or a backslash and what it takes along. -/
def pair? : Region → Char → Char → Option Region
  | page, c, d => if (c, d) = ('<', '?') then some code else none
  | code, c, d =>
    if (c, d) = ('?', '>') then some page
    else if (c, d) = ('/', '*') then some comment
    else if (c, d) = ('/', '/') then some remark
    else if (c, d) = ('#', '[') then some code else none
  | comment, c, d => if (c, d) = ('*', '/') then some code else none
  | remark, c, d => if (c, d) = ('?', '>') then some page else none
  | quoted quote, c, _ => if c = '\\' then some (quoted quote) else none

/-- The region behind a character that belongs to no such pair. -/
def next : Region → Char → Region
  | code, c =>
    if c = '#' then remark else if c = '"' ∨ c = '\'' ∨ c.toNat = 0x60 then quoted c else code
  | quoted quote, c => if c = quote ∧ c ≠ '\\' then code else quoted quote
  | region, _ => region

/-- The region at the beginning of the next line. -/
def nextLine : Region → Region
  | remark => code
  | region => region

/-- The region where the text is read on as it is by a state of this mode. -/
def mode : Region → Mode
  | page => .page
  | code | remark => .code
  | comment => .comment
  | quoted quote => .quoted quote

end Region

/-- What is known of a text: its characters, each with whether it is hidden, and the region behind
it. -/
structure Survey where
  /-- The characters, each with whether it is hidden. -/
  places : List (Char × Bool)
  /-- The region behind the text. -/
  behind : Region
deriving DecidableEq, Repr

/-- What is known of a text from what is known of the places at its front and of the rest. -/
def Survey.after (front : List (Char × Bool)) (rest : Survey) : Survey :=
  ⟨front ++ rest.places, rest.behind⟩

/-- What is known of a text that begins in the region. -/
def survey : Region → List Char → Survey
  | region, [] => ⟨[], region⟩
  | region, [c] => ⟨[(c, region.hides)], region.next c⟩
  | region, c :: d :: text =>
    match region.pair? c d with
    | some behind => (survey behind text).after [(c, false), (d, false)]
    | none => (survey (region.next c) (d :: text)).after [(c, region.hides)]

/-- What may stand at the place of a character: the character, or a space if it is hidden. -/
def Overwrites (place : Char × Bool) (d : Char) : Prop :=
  d = place.1 ∨ place.2 = true ∧ d = ' '

instance (place : Char × Bool) (d : Char) : Decidable (Overwrites place d) :=
  inferInstanceAs (Decidable (_ ∨ _))

/-! ## Two texts that differ in what is hidden -/

/-- Hidden characters of the text are overwritten with spaces, where the text begins in the one
region and the other is behind it. -/
structure Twins (region behind : Region) (a b : List Char) : Prop where
  /-- Only hidden characters are overwritten. -/
  places : List.Forall₂ Overwrites (survey region a).places b
  /-- The region behind the text. -/
  behind : (survey region a).behind = behind

/-- The region behind the two characters at the front of the text, if they belong together. -/
def Region.pairAt? (region : Region) : List Char → Option Region
  | c :: d :: _ => region.pair? c d
  | _ => none

section Twins

variable {region region' behind : Region} {c d : Char} {a b : List Char}

/-- Two characters that belong together are surveyed together. -/
lemma survey_pair (h : region.pair? c d = some region') :
    survey region (c :: d :: a) = (survey region' a).after [(c, false), (d, false)] := by
  rw [survey, h]

/-- Any other character is surveyed by itself. -/
lemma survey_single (h : region.pairAt? (c :: a) = none) :
    survey region (c :: a) = (survey (region.next c) a).after [(c, region.hides)] := by
  cases a with
  | nil => rfl
  | cons d a =>
    rw [Region.pairAt?] at h
    rw [survey, h]

/-- What is no hidden text stays as it is. -/
lemma overwrites_false : Overwrites (c, false) d ↔ d = c := by
  simp [Overwrites]

/-- The empty text has no twin but itself. -/
lemma Twins.eq_nil (h : Twins region behind [] b) : b = [] ∧ region = behind :=
  ⟨List.forall₂_nil_left_iff.1 h.places, h.behind⟩

/-- Characters that belong together are not hidden. -/
lemma Twins.pair (h : Twins region behind (c :: d :: a) b)
    (hpair : region.pair? c d = some region') :
    ∃ b', b = c :: d :: b' ∧ Twins region' behind a b' := by
  obtain ⟨hplaces, hbehind⟩ := h
  rw [survey_pair hpair] at hplaces hbehind
  obtain ⟨c', b₁, hc, htail, rfl⟩ := List.forall₂_cons_left_iff.1 hplaces
  obtain ⟨d', b₂, hd, hrest, rfl⟩ := List.forall₂_cons_left_iff.1 htail
  obtain rfl := overwrites_false.1 hc
  obtain rfl := overwrites_false.1 hd
  exact ⟨b₂, rfl, hrest, hbehind⟩

/-- Any other character is overwritten only if the text of the region is hidden. -/
lemma Twins.single (h : Twins region behind (c :: a) b) (hsingle : region.pairAt? (c :: a) = none) :
    ∃ c' b', b = c' :: b' ∧ Overwrites (c, region.hides) c'
      ∧ Twins (region.next c) behind a b' := by
  obtain ⟨hplaces, hbehind⟩ := h
  rw [survey_single hsingle] at hplaces hbehind
  obtain ⟨c', b', hc, htail, rfl⟩ := List.forall₂_cons_left_iff.1 hplaces
  exact ⟨c', b', rfl, hc, htail, hbehind⟩

/-- The first character stays as it is, or is overwritten with a space.

**Proof sketch.** If a pair begins the text, its characters stay. Else the first character is
surveyed by itself. -/
lemma Twins.head (h : Twins region behind a (d :: b)) :
    ∃ c a', a = c :: a' ∧ (d = c ∨ d = ' ') := by
  cases a with
  | nil => exact absurd h.eq_nil.1 (List.cons_ne_nil d b)
  | cons c a =>
    refine ⟨c, a, rfl, ?_⟩
    cases hpair : region.pairAt? (c :: a) with
    | none =>
      obtain ⟨c', b', hb, hc, -⟩ := h.single hpair
      obtain ⟨rfl, rfl⟩ := List.cons_eq_cons.1 hb
      exact hc.imp_right And.right
    | some region' =>
      cases a with
      | nil => cases hpair
      | cons e a =>
        obtain ⟨b', hb, -⟩ := h.pair hpair
        exact .inl (List.cons_eq_cons.1 hb).1

/-- A space begins no pair. -/
lemma Region.pair?_space (region : Region) (d : Char) : region.pair? ' ' d = none := by
  cases region <;> simp [Region.pair?]

/-- A space ends a pair only where a backslash takes it along. -/
lemma Region.isSome_pair? (h : region.pair? c ' ' = some region') (d : Char) :
    (region.pair? c d).isSome := by
  cases region <;> simp_all [Region.pair?]

/-- No pair comes about by overwriting.

**Proof sketch.** The first characters are overwritten or stay. If one of them is overwritten, it is
a space, and no pair holds a space, unless the text has a pair there as well. -/
lemma Twins.pairAt?_eq (h : Twins region behind (c :: a) (d :: b))
    (hsingle : region.pairAt? (c :: a) = none) : region.pairAt? (d :: b) = none := by
  obtain ⟨c', b', hb, hc, htail⟩ := h.single hsingle
  obtain ⟨rfl, rfl⟩ := List.cons_eq_cons.1 hb
  cases b with
  | nil => rfl
  | cons e' b =>
    obtain ⟨e, a', rfl, he⟩ := htail.head
    rw [Region.pairAt?] at hsingle ⊢
    by_contra hpair
    obtain ⟨region', hregion⟩ := Option.ne_none_iff_exists'.1 hpair
    obtain rfl | ⟨-, rfl⟩ := hc
    · obtain rfl | rfl := he
      · rw [hsingle] at hregion
        cases hregion
      · have hsome := Region.isSome_pair? hregion e
        rw [hsingle] at hsome
        cases hsome
    · rw [Region.pair?_space] at hregion
      cases hregion

/-! ### Code -/

/-- A character that is no sign begins no pair. -/
lemma pairAt?_of_not_mem_signs (hc : c ∉ signs) (a : List Char) :
    Region.code.pairAt? (c :: a) = none := by
  cases a with
  | nil => rfl
  | cons d a =>
    simp_all [Region.pairAt?, Region.pair?, signs]

/-- A character that is no sign does not end the code. -/
lemma next_of_not_mem_signs (hc : c ∉ signs) : Region.code.next c = .code := by
  have hquote : c.toNat ≠ 0x60 := by
    intro h
    exact hc (by rw [← Char.ofNat_toNat c, h]; decide)
  simp only [signs, List.mem_cons, not_or] at hc
  simp [Region.next, hc, hquote]

/-- In code the first characters are the same. -/
lemma Twins.head?_eq (h : Twins .code behind a b) : b.head? = a.head? := by
  cases a with
  | nil => rw [h.eq_nil.1]
  | cons c a =>
    cases hpair : Region.code.pairAt? (c :: a) with
    | none =>
      obtain ⟨c', b', rfl, hc, -⟩ := h.single hpair
      exact congrArg some (overwrites_false.1 hc)
    | some region' =>
      cases a with
      | nil => cases hpair
      | cons d a =>
        obtain ⟨b', rfl, -⟩ := h.pair hpair
        rfl

/-- A character of code that is no sign stays as it is. -/
lemma Twins.plain (h : Twins .code behind (c :: a) b) (hc : c ∉ signs) :
    ∃ b', b = c :: b' ∧ Twins .code behind a b' := by
  obtain ⟨c', b', rfl, hsame, htail⟩ := h.single (pairAt?_of_not_mem_signs hc a)
  rw [next_of_not_mem_signs hc] at htail
  obtain rfl := overwrites_false.1 hsame
  exact ⟨b', rfl, htail⟩

/-- Code without signs stays as it is. -/
lemma Twins.word {text : List Char} (h : Twins .code behind (text ++ a) b)
    (htext : ∀ c ∈ text, c ∉ signs) : ∃ b', b = text ++ b' ∧ Twins .code behind a b' := by
  induction text generalizing b with
  | nil => exact ⟨b, rfl, h⟩
  | cons c text ih =>
    obtain ⟨b₁, rfl, h₁⟩ := h.plain (htext c List.mem_cons_self)
    obtain ⟨b₂, rfl, h₂⟩ := ih h₁ fun c hc => htext c (List.mem_cons_of_mem _ hc)
    exact ⟨b₂, rfl, h₂⟩

/-- Code without signs is nothing else overwritten. -/
lemma Twins.of_word {text : List Char} (h : Twins .code behind a (text ++ b))
    (htext : ∀ c ∈ text, c ∉ signs) : ∃ a', a = text ++ a' := by
  induction text generalizing a with
  | nil => exact ⟨a, rfl⟩
  | cons c text ih =>
    obtain ⟨a₁, rfl⟩ : ∃ a₁, a = c :: a₁ := List.head?_eq_some_iff.1 h.head?_eq.symm
    obtain ⟨b₁, hb, h₁⟩ := h.plain (htext c List.mem_cons_self)
    obtain rfl := (List.cons_eq_cons.1 hb).2
    obtain ⟨a₂, rfl⟩ := ih h₁ fun c hc => htext c (List.mem_cons_of_mem _ hc)
    exact ⟨a₂, rfl⟩

end Twins

/-! ## Words in two texts -/

/-- Two cursors in code, the rests of whose lines differ in what is hidden. -/
structure TwinCursors (behind : Region) (c d : Cursor) : Prop where
  /-- What is still to come. -/
  after : Twins .code behind c.after d.after
  /-- The characters just consumed are the same. -/
  previous? : c.previous? = d.previous?

namespace TwinCursors

variable {behind : Region} {c d : Cursor}

/-- Moving over one text without signs. -/
lemma plainText {p q text a after : List Char} (h : TwinCursors behind ⟨p, text ++ a⟩ ⟨q, after⟩)
    (htext : ∀ c ∈ text, c ∉ signs) :
    ∃ b, after = text ++ b
      ∧ TwinCursors behind ⟨text.reverse ++ p, a⟩ ⟨text.reverse ++ q, b⟩ := by
  obtain ⟨b, rfl, hb⟩ := h.after.word htext
  refine ⟨b, rfl, hb, ?_⟩
  rcases htail : text.reverse with - | ⟨ch, front⟩
  · exact h.previous?
  · rfl

/-- A word in code is the same. -/
lemma span (h : TwinCursors behind c d) {p : Char → Bool} (hp : signs.any p = false) :
    ∃ word e f, c.span p = (word, e) ∧ d.span p = (word, f) ∧ TwinCursors behind e f := by
  obtain ⟨before, after⟩ := c
  obtain ⟨before', after'⟩ := d
  have hword : (after.takeWhile p).all p = true := List.all_takeWhile
  have hrest := head?_any_dropWhile p after
  have hplain : ∀ ch ∈ after.takeWhile p, ch ∉ signs := fun ch hch hsign =>
    List.any_eq_false.1 hp ch hsign (List.all_eq_true.1 hword ch hch)
  rw [← List.takeWhile_append_dropWhile (p := p) (l := after)] at h ⊢
  obtain ⟨b, rfl, htwins⟩ := h.plainText hplain
  have hrest' : b.head?.any p = false := by
    rw [htwins.after.head?_eq]
    exact hrest
  exact ⟨_, _, _, Cursor.span_word hword hrest before, Cursor.span_word hword hrest' before',
    htwins⟩

/-- Blanks are skipped on both lines. -/
lemma skipBlanks (h : TwinCursors behind c d) : TwinCursors behind c.skipBlanks d.skipBlanks := by
  obtain ⟨blanks, e, f, hc, hd, htwins⟩ := h.span (p := isBlank) (by decide)
  rw [Cursor.skipBlanks, Cursor.skipBlanks, Cursor.skipWhile, Cursor.skipWhile, hc, hd]
  exact htwins

/-- A pattern without signs is eaten from both lines or from none.

**Proof sketch.** The pattern holds no sign, so neither line is overwritten within it: each of them
begins with the pattern if the other one does. -/
lemma eat (h : TwinCursors behind c d) (pattern : List Char)
    (hp : pattern.any signs.contains = false) :
    TwinCursors behind (c.eat pattern) (d.eat pattern) := by
  have hplain : ∀ ch ∈ pattern, ch ∉ signs := by simpa using hp
  obtain ⟨before, after⟩ := c
  obtain ⟨before', after'⟩ := d
  by_cases hstarts : startsWith pattern after = true
  · obtain ⟨rest, rfl⟩ := startsWith_iff.1 hstarts
    obtain ⟨b, rfl, htwins⟩ := h.plainText hplain
    have hboth : ∀ before rest, (⟨before, pattern ++ rest⟩ : Cursor).eat pattern
        = ⟨pattern.reverse ++ before, rest⟩ := by
      intro before rest
      have : (⟨before, pattern ++ rest⟩ : Cursor).startsWith pattern = true :=
        startsWith_iff.2 ⟨rest, rfl⟩
      rw [Cursor.eat, Cursor.eat?, if_pos this, Option.getD_some, Cursor.forward_over]
    rw [hboth, hboth]
    exact htwins
  · have hstarts' : ¬startsWith pattern after' = true := by
      intro hd
      obtain ⟨rest, hrest⟩ := startsWith_iff.1 hd
      subst hrest
      obtain ⟨a, ha⟩ := h.after.of_word hplain
      exact hstarts (startsWith_iff.2 ⟨a, ha⟩)
    rw [Cursor.eat, Cursor.eat, Cursor.eat?, Cursor.eat?, Cursor.startsWith, Cursor.startsWith,
      if_neg hstarts, if_neg hstarts']
    exact h

/-- A name is read on both lines. -/
lemma identifierAt (h : TwinCursors behind c d) :
    ∃ name e f, Php.identifierAt c = (name, e) ∧ Php.identifierAt d = (name, f)
      ∧ TwinCursors behind e f := by
  obtain ⟨word, e, f, hc, hd, htwins⟩ := h.span (p := isIdentifierChar) (by decide)
  refine ⟨if isIdentifier word then some word else none, e, f, ?_, ?_, htwins⟩
  · rw [Php.identifierAt, Cursor.identifier, hc]
  · rw [Php.identifierAt, Cursor.identifier, hd]

end TwinCursors

/-- Two steps that do the same on lines that differ in what is hidden, and stay in code. -/
structure TwinSteps (behind : Region) (x y : Cursor.Step State Mark) : Prop where
  /-- The state after the steps is the same. -/
  state : x.state = y.state
  /-- They find the same. -/
  found : x.found = y.found
  /-- The state is in code. -/
  mode : x.state.mode = .code
  /-- The cursors after the steps. -/
  cursors : TwinCursors behind x.cursor y.cursor

/-- **A word means the same on both lines.**

**Proof sketch.** What is read at a word is made of characters of code that are no signs: names, and
blanks and an ampersand between them. -/
lemma TwinCursors.wordStep {behind : Region} {c d : Cursor} (h : TwinCursors behind c d)
    {s : State} (hmode : s.mode = .code) (line : Nat) :
    TwinSteps behind (Php.wordStep line s c) (Php.wordStep line s d) := by
  obtain ⟨word, after, after', hc, hd, hafter⟩ := h.span (p := isIdentifierChar) (by decide)
  have hblanks := hafter.skipBlanks
  obtain ⟨header, e, f, he, hf, hheader⟩ := hblanks.identifierAt
  obtain ⟨name, e', f', he', hf', hname⟩ := (hblanks.eat ['&'] (by decide)).identifierAt
  obtain ⟨space, e'', f'', he'', hf'', hspace⟩ :=
    hblanks.span (p := fun c => isIdentifierChar c || c == '\\') (by decide)
  have hpeek : after'.peek? = after.peek? := hafter.after.head?_eq
  simp only [Php.wordStep, Cursor.identifier, hc, hd, he, hf, he', hf', he'', hf'', hpeek,
    h.previous?]
  split_ifs
  · exact ⟨rfl, rfl, hmode, hafter⟩
  · cases header with
    | none => exact ⟨rfl, rfl, hmode, hheader⟩
    | some header => exact ⟨rfl, rfl, hmode, hheader⟩
  · cases name with
    | none => exact ⟨rfl, rfl, hmode, hname⟩
    | some name => exact ⟨rfl, rfl, hmode, hname⟩
  · exact ⟨rfl, rfl, hmode, hspace⟩
  · exact ⟨rfl, rfl, hmode, hspace⟩
  · exact ⟨rfl, rfl, hmode, hafter⟩

/-! ## The walk along a line, from region to region -/

/-- Where reading goes on in the region: a comment that ends with the line is passed over at
once. -/
def Region.entry : Region → Cursor → Cursor
  | remark, c => toClosingTag c
  | _, c => c

/-- Reading goes on in the region. -/
def resume (line : Nat) (region : Region) (s : State) (c : Cursor) : State × List Mark :=
  Cursor.walk (step line) { s with mode := region.mode } (region.entry c)

section Walk

variable {line : Nat} {s : State} {c : Cursor} {ch d : Char} {before text : List Char}

/-- A pattern that does not come next is looked for from the next character on. -/
lemma offset?_cons {pattern : List Char} (h : startsWith pattern (ch :: text) = false) :
    offset? pattern (ch :: text) = (offset? pattern text).map (· + 1) := by
  rw [offset?, h]
  rfl

/-- A pattern that does not come next is looked for from the next character on. -/
lemma beyond_next {pattern : List Char} (h : startsWith pattern (ch :: text) = false) :
    (⟨before, ch :: text⟩ : Cursor).beyond pattern
      = (⟨ch :: before, text⟩ : Cursor).beyond pattern := by
  rw [Cursor.beyond, Cursor.beyond, offset?_cons h]
  cases offset? pattern text with
  | none => exact congrArg (Prod.mk false) (Cursor.toEnd_forward 1 ⟨before, ch :: text⟩).symm
  | some n =>
    have hplaces : n + 1 + pattern.length = n + pattern.length + 1 := Nat.add_right_comm ..
    simp only [Option.map_some, hplaces, Cursor.forward_succ]
    rfl

/-- A closing tag that does not come next is looked for from the next character on. -/
lemma toClosingTag_next (h : startsWith "?>".toList (ch :: text) = false) :
    toClosingTag ⟨before, ch :: text⟩ = toClosingTag ⟨ch :: before, text⟩ := by
  rw [toClosingTag, toClosingTag, offset?_cons h]
  cases offset? "?>".toList text with
  | none => exact (Cursor.toEnd_forward 1 ⟨before, ch :: text⟩).symm
  | some n =>
    simp only [Option.map_some, Cursor.forward_succ]
    rfl

/-- What is looked for in the region, outside code: whether its end was found, and the cursor behind
it. -/
def Region.look : Region → Cursor → Bool × Cursor
  | page, c => c.beyond "<?".toList
  | comment, c => c.beyond "*/".toList
  | quoted quote, c => c.toClosingQuote quote
  | _, c => (false, c)

/-- Where the end of the region was found, reading goes on in code. -/
def Region.leave (region : Region) (s : State) (looked : Bool × Cursor) :
    Cursor.Step State Mark :=
  if looked.1 then
    { state := { s with mode := .code },
      cursor :=
        if region = .page then (looked.2.eat "php".toList).eat ['='] else looked.2 }
  else { state := { s with mode := region.mode }, cursor := looked.2 }

/-- The regions outside code that a step looks for the end of. -/
def Region.IsSearched (region : Region) : Prop := region ≠ .code ∧ region ≠ .remark

/-- A step outside code looks for the end of its region. -/
lemma step_eq_leave {region : Region} (hregion : region.IsSearched) (c : Cursor) (ch : Char) :
    step line { s with mode := region.mode } c ch = region.leave s (region.look c) := by
  cases region with
  | code => exact absurd rfl hregion.1
  | remark => exact absurd rfl hregion.2
  | page => rfl
  | comment =>
    simp only [step, Region.mode, Region.leave, Region.look, reduceCtorEq, if_false]
    split_ifs <;> rfl
  | quoted quote =>
    simp only [step, Region.mode, Region.leave, Region.look, reduceCtorEq, if_false]
    split_ifs <;> rfl

/-- At the end of a line no end of a region is found. -/
lemma look_end (region : Region) (before : List Char) :
    region.look ⟨before, []⟩ = (false, ⟨before, []⟩) := by
  cases region <;> rfl

/-- A walk is its first step and the walk from there. -/
lemma walk_eq (hch : c.peek? = some ch) : Cursor.walk (step line) s c
    = ((Cursor.walk (step line) (step line s c ch).state (step line s c ch).cursor).1,
      (step line s c ch).found
        ++ (Cursor.walk (step line) (step line s c ch).state (step line s c ch).cursor).2) := by
  obtain ⟨text, hafter⟩ := List.head?_eq_some_iff.1 hch
  exact Cursor.walk_step _ _ hafter
    (Cursor.length_after_of_advances hch (step_runs line s hch).advances)

/-- A walk whose first step is known goes on behind it. -/
lemma walk_of_step {s' : State} {c' : Cursor} {found : List Mark} (hch : c.peek? = some ch)
    (hstep : step line s c ch = { state := s', cursor := c', found := found }) :
    Cursor.walk (step line) s c
      = ((Cursor.walk (step line) s' c').1, found ++ (Cursor.walk (step line) s' c').2) := by
  rw [walk_eq hch, hstep]

/-- **Where the same is found from further on, reading goes on from there.** -/
lemma resume_look {region : Region} (hregion : region.IsSearched) {c' : Cursor}
    (hch : c.peek? = some ch) (hlook : region.look c = region.look c') :
    resume line region s c = resume line region s c' := by
  have hentry : ∀ c, region.entry c = c := by
    intro c
    cases region with
    | remark => exact absurd rfl hregion.2
    | _ => rfl
  rw [resume, resume, hentry, hentry, walk_of_step hch (step_eq_leave hregion c ch), hlook]
  obtain ⟨before, after⟩ := c'
  cases after with
  | nil =>
    rw [look_end, Cursor.walk_end _ _ rfl, Cursor.walk_end _ _ rfl]
    rfl
  | cons d after => rw [walk_of_step rfl (step_eq_leave hregion _ d)]

/-- Where no pair comes next, the pattern of no pair does. -/
lemma startsWith_of_pairAt? {region region' : Region} {x y : Char}
    (hxy : region.pair? x y = some region') (h : region.pairAt? text = none) :
    startsWith [x, y] text = false := by
  rw [Bool.eq_false_iff]
  intro hstarts
  obtain ⟨rest, rfl⟩ := startsWith_iff.1 hstarts
  have hpair : region.pair? x y = none := h
  rw [hxy] at hpair
  cases hpair

/-- A literal is read on character by character.

**Proof sketch.** If the character is the closing quote, the step finds it and reading goes on in
code. If not, the same quote is found from the next character on (`resume_look`). -/
lemma resume_quoted {quote : Char} (h : (Region.quoted quote).pairAt? (ch :: text) = none) :
    resume line (.quoted quote) s ⟨before, ch :: text⟩
      = resume line ((Region.quoted quote).next ch) s ⟨ch :: before, text⟩ := by
  have hsearched : (Region.quoted quote).IsSearched := ⟨by simp, by simp⟩
  by_cases hclosed : ch = quote ∧ ch ≠ '\\'
  · have hone : Cursor.quotedLength? quote (ch :: text) = some 1 := by
      rw [Cursor.quotedLength?_cons hclosed.2, if_pos hclosed.1]
    have hclose : (Region.quoted quote).look ⟨before, ch :: text⟩
        = (true, ⟨ch :: before, text⟩) := by
      rw [Region.look, Cursor.toClosingQuote, hone]
      rfl
    rw [Region.next, if_pos hclosed]
    have hstep : step line { s with mode := (Region.quoted quote).mode } ⟨before, ch :: text⟩ ch
        = _ :=
      step_eq_leave hsearched ⟨before, ch :: text⟩ ch
    rw [hclose] at hstep
    exact walk_of_step (c := ⟨before, ch :: text⟩) rfl hstep
  · have hlater : Cursor.quotedLength? quote (ch :: text)
        = (Cursor.quotedLength? quote text).map (· + 1) := by
      by_cases hch : ch = '\\'
      · -- A backslash that takes nothing along is the last character of the line.
        subst hch
        cases text with
        | nil => rfl
        | cons d text => cases h
      · have hquote : ch ≠ quote := fun hquote => hclosed ⟨hquote, hch⟩
        rw [Cursor.quotedLength?_cons hch, if_neg hquote]
    rw [Region.next, if_neg hclosed]
    exact resume_look hsearched rfl (Cursor.toClosingQuote_forward (n := 1) hlater)

/-- Outside code a character is passed over that begins no pair. -/
lemma resume_next {region : Region} (hregion : region ≠ .code)
    (h : region.pairAt? (ch :: text) = none) :
    resume line region s ⟨before, ch :: text⟩
      = resume line (region.next ch) s ⟨ch :: before, text⟩ := by
  cases region with
  | code => exact absurd rfl hregion
  | page =>
    exact resume_look ⟨by simp, by simp⟩ rfl (beyond_next (startsWith_of_pairAt? rfl h))
  | comment =>
    exact resume_look ⟨by simp, by simp⟩ rfl (beyond_next (startsWith_of_pairAt? rfl h))
  | remark =>
    have htag : startsWith "?>".toList (ch :: text) = false := startsWith_of_pairAt? rfl h
    rw [resume, Region.entry, toClosingTag_next htag]
    rfl
  | quoted quote => exact resume_quoted h

/-- A pair of characters is passed over.

**Proof sketch.** By the region, and in code by the pair. A remark is passed over to the closing
tag, which is the same from behind its sign on, and in a literal the closing quote is found behind
the pair. -/
lemma resume_pair {region region' : Region} (hregion : region ≠ .page)
    (h : region.pair? ch d = some region') :
    resume line region s ⟨before, ch :: d :: text⟩
      = resume line region' s ⟨d :: ch :: before, text⟩ := by
  cases region with
  | page => exact absurd rfl hregion
  | code =>
    simp only [Region.pair?, Prod.mk.injEq] at h
    split_ifs at h with htag hcomment hremark hattribute <;> obtain rfl := Option.some.inj h
    -- the closing tag
    · obtain ⟨rfl, rfl⟩ := htag
      exact walk_of_step rfl rfl
    -- a comment
    · obtain ⟨rfl, rfl⟩ := hcomment
      exact walk_of_step rfl rfl
    -- a remark
    · obtain ⟨rfl, rfl⟩ := hremark
      have hpassed : toClosingTag ⟨before, '/' :: '/' :: text⟩
          = toClosingTag ⟨'/' :: '/' :: before, text⟩ := by
        rw [toClosingTag_next rfl, toClosingTag_next rfl]
      show _ = Cursor.walk (step line) { s with mode := .code }
        (toClosingTag ⟨'/' :: '/' :: before, text⟩)
      rw [← hpassed]
      exact walk_of_step rfl rfl
    -- an attribute
    · obtain ⟨rfl, rfl⟩ := hattribute
      exact walk_of_step rfl rfl
  | comment =>
    simp only [Region.pair?, Prod.mk.injEq] at h
    split_ifs at h with hends
    obtain ⟨rfl, rfl⟩ := hends
    obtain rfl := Option.some.inj h
    exact walk_of_step rfl rfl
  | remark =>
    simp only [Region.pair?, Prod.mk.injEq] at h
    split_ifs at h with htag
    obtain ⟨rfl, rfl⟩ := htag
    obtain rfl := Option.some.inj h
    exact walk_of_step rfl rfl
  | quoted quote =>
    simp only [Region.pair?] at h
    split_ifs at h with hescape
    obtain rfl := hescape
    obtain rfl := Option.some.inj h
    exact resume_look ⟨by simp, by simp⟩ rfl
      (Cursor.toClosingQuote_forward (n := 2) rfl)

/-- Behind an opening tag its name is passed over. -/
lemma resume_tag :
    resume line .page s ⟨before, '<' :: '?' :: text⟩
      = resume line .code s
        ((⟨'?' :: '<' :: before, text⟩ : Cursor).eat "php".toList |>.eat ['=']) :=
  walk_of_step rfl rfl

/-- In code reading goes on as it is. -/
lemma resume_code (hmode : s.mode = .code) (c : Cursor) :
    resume line .code s c = Cursor.walk (step line) s c := by
  obtain ⟨mode, braces, classBraces, pending⟩ := s
  obtain rfl : mode = .code := hmode
  rfl

/-- An opening brace stays in code. -/
lemma mode_openBrace (s : State) : (openBrace s).1.mode = s.mode := by
  rw [openBrace]
  split <;> rfl

/-- A closing brace stays in code. -/
lemma mode_closeBrace (s : State) : (closeBrace s).1.mode = s.mode := by
  simp only [closeBrace]
  split <;> rfl

/-- A sign that begins no pair means the same whatever stands around it.

**Proof sketch.** Sign by sign. The step at each of them looks for the pairs that it may begin,
finds none, and does what the sign by itself means, which does not depend on the cursor. -/
lemma resume_sign (hsign : ch ∈ signs) (line : Nat) (s : State) :
    ∃ s' found, ∀ before text, Region.code.pairAt? (ch :: text) = none →
      resume line .code s ⟨before, ch :: text⟩
        = ((resume line (Region.code.next ch) s' ⟨ch :: before, text⟩).1,
          found ++ (resume line (Region.code.next ch) s' ⟨ch :: before, text⟩).2) := by
  have hfalse : ∀ {x y : Char} {region' : Region} {text : List Char},
      Region.code.pair? x y = some region' → Region.code.pairAt? text = none →
        startsWith [x, y] text = false := fun hxy h => startsWith_of_pairAt? hxy h
  simp only [signs, List.mem_cons, List.not_mem_nil, or_false] at hsign
  rcases hsign with rfl | rfl | rfl | rfl | rfl | rfl | rfl | rfl | rfl
  -- a question mark
  · refine ⟨s, [], fun before text h => walk_of_step rfl ?_⟩
    have htag : startsWith "?>".toList ('?' :: text) = false := hfalse rfl h
    simp only [step, Region.mode, Region.entry, codeStep, Cursor.startsWith, htag]
    rfl
  -- a slash
  · refine ⟨s, [], fun before text h => walk_of_step rfl ?_⟩
    have hcomment : startsWith "/*".toList ('/' :: text) = false := hfalse rfl h
    have hremark : startsWith "//".toList ('/' :: text) = false := hfalse rfl h
    simp only [step, Region.mode, Region.entry, codeStep, Cursor.startsWith, hcomment, hremark]
    rfl
  -- a number sign: the closing tag is looked for from behind it, too
  · refine ⟨s, [], fun before text h => ?_⟩
    have hattribute : startsWith "#[".toList ('#' :: text) = false := hfalse rfl h
    have hpassed : toClosingTag ⟨before, '#' :: text⟩ = toClosingTag ⟨'#' :: before, text⟩ :=
      toClosingTag_next rfl
    show _ = ((Cursor.walk (step line) { s with mode := .code }
        (toClosingTag ⟨'#' :: before, text⟩)).1,
      [] ++ (Cursor.walk (step line) { s with mode := .code }
        (toClosingTag ⟨'#' :: before, text⟩)).2)
    rw [← hpassed]
    refine walk_of_step rfl ?_
    simp only [step, Region.mode, Region.entry, codeStep, Cursor.startsWith, hattribute]
    rfl
  -- the three quotes
  · exact ⟨s, [], fun before text _ => walk_of_step rfl rfl⟩
  · exact ⟨s, [], fun before text _ => walk_of_step rfl rfl⟩
  · exact ⟨s, [], fun before text _ => walk_of_step rfl rfl⟩
  -- a brace that opens
  · have hmode : (openBrace { s with mode := .code }).1.mode = .code := mode_openBrace _
    refine ⟨(openBrace { s with mode := .code }).1, (openBrace { s with mode := .code }).2,
      fun before text _ => ?_⟩
    have hnext : Region.code.next '\x7b' = .code := rfl
    rw [hnext, resume_code hmode]
    exact walk_of_step rfl rfl
  -- a brace that closes
  · have hmode : (closeBrace { s with mode := .code }).1.mode = .code := mode_closeBrace _
    refine ⟨(closeBrace { s with mode := .code }).1, (closeBrace { s with mode := .code }).2,
      fun before text _ => ?_⟩
    have hnext : Region.code.next '\x7d' = .code := rfl
    rw [hnext, resume_code hmode]
    exact walk_of_step rfl rfl
  -- a semicolon
  · exact ⟨{ s with pending := none }, [], fun before text _ => walk_of_step rfl rfl⟩

end Walk

/-! ## What is hidden makes no difference to the walk -/

/-- What is overwritten does not tell how reading goes on, and code does not begin behind it. -/
lemma Region.next_of_overwritten {region : Region} {c c' : Char} (hregion : region ≠ .code)
    (hc : Overwrites (c, region.hides) c') :
    region.next c' = region.next c ∧ (region.next c = .code → c' = c) := by
  cases region with
  | code => exact absurd rfl hregion
  | quoted quote =>
    obtain rfl := overwrites_false.1 hc
    exact ⟨rfl, fun _ => rfl⟩
  | page => exact ⟨rfl, fun h => absurd h (by simp [Region.next])⟩
  | comment => exact ⟨rfl, fun h => absurd h (by simp [Region.next])⟩
  | remark => exact ⟨rfl, fun h => absurd h (by simp [Region.next])⟩

/-- Outside the tags an opening tag is the only pair. -/
lemma Region.eq_of_pair?_page {c d : Char} {region : Region} (h : page.pair? c d = some region) :
    c = '<' ∧ d = '?' ∧ region = .code := by
  simpa [Region.pair?, and_assoc, eq_comm] using h

/-- At the end of the line the region is the one behind it. -/
lemma resume_end (line : Nat) (region : Region) (s : State) (before : List Char) :
    resume line region s ⟨before, []⟩ = ({ s with mode := region.mode }, []) := by
  cases region <;> exact Cursor.walk_end _ _ rfl

/-- A character of code that is no sign means the same on both lines. -/
lemma TwinCursors.step {behind : Region} {p q a b : List Char} {c : Char}
    (h : TwinCursors behind ⟨p, c :: a⟩ ⟨q, c :: b⟩) (hc : c ∉ signs) {s : State}
    (hmode : s.mode = .code) (line : Nat) :
    TwinSteps behind (Php.step line s ⟨p, c :: a⟩ c) (Php.step line s ⟨q, c :: b⟩ c) := by
  have hstart : (⟨q, c :: b⟩ : Cursor).isAtWordStart = (⟨p, c :: a⟩ : Cursor).isAtWordStart := by
    rw [Cursor.isAtWordStart, Cursor.isAtWordStart, h.previous?]
  rw [step_of_not_mem_signs hmode rfl hc, step_of_not_mem_signs hmode rfl hc, hstart]
  split
  · exact h.wordStep hmode line
  · obtain ⟨b', hb, htwins⟩ := h.after.plain hc
    obtain rfl := (List.cons_eq_cons.1 hb).2
    exact ⟨rfl, rfl, hmode, htwins, rfl⟩

/-- Behind a character of code that is no sign, and behind the word that it begins, reading goes on
in code on both lines.

**Proof sketch.** Both steps find the same and leave the same state, and their cursors are twins
again (`TwinCursors.step`). Each walk goes on behind its first step, and the step moves on. -/
lemma TwinCursors.resume {behind : Region} {p q a b : List Char} {ch : Char}
    (h : TwinCursors behind ⟨p, ch :: a⟩ ⟨q, ch :: b⟩) (hch : ch ∉ signs) (line : Nat) (s : State) :
    ∃ s' found e f, TwinCursors behind e f ∧ e.after.length < (ch :: a).length
      ∧ Php.resume line .code s ⟨p, ch :: a⟩
        = ((Php.resume line .code s' e).1, found ++ (Php.resume line .code s' e).2)
      ∧ Php.resume line .code s ⟨q, ch :: b⟩
        = ((Php.resume line .code s' f).1, found ++ (Php.resume line .code s' f).2) := by
  have hsteps := h.step hch (s := { s with mode := .code }) rfl line
  have hruns := step_runs line { s with mode := .code } (c := ⟨p, ch :: a⟩) rfl
  refine ⟨(Php.step line { s with mode := .code } ⟨p, ch :: a⟩ ch).state,
    (Php.step line { s with mode := .code } ⟨p, ch :: a⟩ ch).found, _, _, hsteps.cursors,
    Cursor.length_after_of_advances rfl hruns.advances, ?_, ?_⟩
  · rw [resume_code hsteps.mode]
    exact walk_eq rfl
  · rw [resume_code hsteps.mode, hsteps.state, hsteps.found]
    exact walk_eq rfl

/-- **What comes next is passed over on both lines alike**, and what is left of them is twins again.

**Proof sketch.** Outside code a pair or a character is passed over on both lines; what is
overwritten there begins and ends no pair. In code the same word or sign comes next on both. -/
lemma Twins.resume_step {region behind : Region} {p q a b : List Char} {ch : Char}
    (h : Twins region behind (ch :: a) b)
    (hprevious : region = .code →
      (⟨p, ch :: a⟩ : Cursor).previous? = (⟨q, b⟩ : Cursor).previous?) (line : Nat) (s : State) :
    ∃ region' s' found e f, Twins region' behind e.after f.after
      ∧ (region' = .code → e.previous? = f.previous?) ∧ e.after.length < (ch :: a).length
      ∧ resume line region s ⟨p, ch :: a⟩
        = ((resume line region' s' e).1, found ++ (resume line region' s' e).2)
      ∧ resume line region s ⟨q, b⟩
        = ((resume line region' s' f).1, found ++ (resume line region' s' f).2) := by
  have hshorter : a.length < (ch :: a).length := Nat.lt_succ_self _
  cases hpair : region.pairAt? (ch :: a) with
  -- a pair of characters, which is the same on both lines
  | some region' =>
    cases a with
    | nil => cases hpair
    | cons ch' a =>
      obtain ⟨b, rfl, htail⟩ := h.pair hpair
      by_cases hpage : region = .page
      -- behind an opening tag its name is passed over too
      · subst hpage
        obtain ⟨rfl, rfl, rfl⟩ := Region.eq_of_pair?_page hpair
        have htag : TwinCursors behind ⟨'?' :: '<' :: p, a⟩ ⟨'?' :: '<' :: q, b⟩ := ⟨htail, rfl⟩
        have hinside := (htag.eat "php".toList (by decide)).eat ['='] (by decide)
        refine ⟨.code, s, [], _, _, hinside.after, fun _ => hinside.previous?, ?_, resume_tag,
          resume_tag⟩
        obtain ⟨n, hn⟩ := (Cursor.reaches_eat "php".toList ⟨'?' :: '<' :: p, a⟩).trans
          (Cursor.reaches_eat ['='] _)
        rw [hn, Cursor.length_after_forward]
        simp only [List.length_cons]
        omega
      · exact ⟨region', s, [], ⟨ch' :: ch :: p, a⟩, ⟨ch' :: ch :: q, b⟩, htail, fun _ => rfl,
          Nat.lt_of_succ_lt hshorter, resume_pair hpage hpair, resume_pair hpage hpair⟩
  -- a single character
  | none =>
    obtain ⟨ch', b, rfl, hch, htail⟩ := h.single hpair
    have hpair' := h.pairAt?_eq hpair
    by_cases hcode : region = .code
    · subst hcode
      obtain rfl := overwrites_false.1 hch
      by_cases hsign : ch' ∈ signs
      · obtain ⟨s', found, hresume⟩ := resume_sign hsign line s
        exact ⟨_, s', found, ⟨ch' :: p, a⟩, ⟨ch' :: q, b⟩, htail, fun _ => rfl, hshorter,
          hresume p a hpair, hresume q b hpair'⟩
      · have htwins : TwinCursors behind ⟨p, ch' :: a⟩ ⟨q, ch' :: b⟩ := ⟨h, hprevious rfl⟩
        obtain ⟨s', found, e, f, hlater, hmoves, hp, hq⟩ := htwins.resume hsign line s
        exact ⟨.code, s', found, e, f, hlater.after, fun _ => hlater.previous?, hmoves, hp, hq⟩
    · obtain ⟨hnext, hsame⟩ := Region.next_of_overwritten hcode hch
      refine ⟨region.next ch, s, [], ⟨ch :: p, a⟩, ⟨ch' :: q, b⟩, htail,
        fun hin => congrArg some (hsame hin).symm, hshorter, resume_next hcode hpair, ?_⟩
      rw [resume_next hcode hpair', hnext]
      rfl

/-- **The reading along a line does not see what is hidden.** On two lines that differ in what is
hidden it finds the same and leaves the same state, which is one of the region behind them.

**Proof sketch.** Induction on the number of characters that are left, with `Twins.resume_step` for
what comes next. -/
theorem resume_eq {region behind : Region} {c d : Cursor} (h : Twins region behind c.after d.after)
    (hprevious : region = .code → c.previous? = d.previous?) (line : Nat) (s : State) :
    resume line region s d = resume line region s c
      ∧ (resume line region s c).1.mode = behind.mode := by
  induction hn : c.after.length using Nat.strong_induction_on generalizing region c d s with
  | _ n ih =>
    obtain ⟨p, a⟩ := c
    obtain ⟨q, b⟩ := d
    subst hn
    cases a with
    | nil =>
      obtain ⟨rfl, rfl⟩ := h.eq_nil
      rw [resume_end, resume_end]
      exact ⟨rfl, rfl⟩
    | cons ch a =>
      obtain ⟨region', s', found, e, f, hlater, hbefore, hshorter, hp, hq⟩ :=
        h.resume_step hprevious line s
      obtain ⟨hsame, hmode⟩ := ih _ hshorter hlater hbefore s' rfl
      rw [hp, hq, hsame]
      exact ⟨rfl, hmode⟩

end Outliner.Php
