import Outliner.ByText.CFamily
import Outliner.Proofs.Pattern.Combined
import Outliner.Proofs.Reports.ByText
import Outliner.Proofs.Words

set_option autoImplicit false

/-!
# The pattern of signatures

Signatures are what a pattern matches. It matches nothing but a run of type and name and what
follows it, and wherever in the run it begins, its name and its end are the same.

## Main definitions

* `Outliner.Signature.pattern`, `Outliner.Signature.ofMatch?` — the pattern of a signature and what
  a match of it names.
* `Outliner.Signature.IsType`, `Outliner.Signature.IsName` — the texts that are types and names.

## Main results

* `Outliner.Signature.all_eq_finds` — signatures are found as the pattern is.
-/

namespace Outliner.Signature

open Pattern

/-- Whether the character may stand in a type: `[A-Za-z0-9_*&:<>~]`. -/
def isTypeChar (c : Char) : Bool := isNameChar c || c == '*' || c == '&' || c == '<' || c == '>'

/-- Whether the character is no parenthesis: `[^()]`. -/
def isPlain (c : Char) : Bool := !(c == '(' || c == ')')

/-- A type and what separates it from what follows: `[A-Za-z0-9_*&:<>~]+[ \t\r\n*&]+`. -/
def chunkPattern : Pattern := (char isTypeChar).plus.seq (char isJoint).plus

/-- The name of a function: `[A-Za-z_~][A-Za-z0-9_:~]*`. -/
def namePattern : Pattern := (char beginsName).seq (char isNameChar).many

/-- A part of the parameters: `[^()]|\([^()]*\)`. -/
def parameterPattern : Pattern :=
  (char isPlain).either <| (char (· == '(')).seq <| (char isPlain).many.seq (char (· == ')'))

/-- A word that may stand behind the parameters, as in `(?:const[ \t\r\n]*)?`. -/
def wordPattern (w : String) : Pattern := ((word w.toList).seq (char isSpacing).many).maybe

/-- What stands behind the opening parenthesis, with the opening brace of the body:
`(?:[^()]|\([^()]*\))*\)[ \t\r\n]*`, the words `const`, `noexcept` and `override`, and `\{`. -/
def bracePattern : Pattern :=
  parameterPattern.many.seq <| (char (· == ')')).seq <| (char isSpacing).many.seq <|
    (wordPattern "const").seq <| (wordPattern "noexcept").seq <| (wordPattern "override").seq <|
      char (· == '\x7b')

/-- What stands behind the name: `[ \t\r\n]*\(` and what follows the parenthesis. -/
def tailPattern : Pattern := (char isSpacing).many.seq <| (char (· == '(')).seq bracePattern

/-- The pattern of a signature:
`(?:[A-Za-z0-9_*&:<>~]+[ \t\r\n*&]+)+([A-Za-z_~][A-Za-z0-9_:~]*)` and what stands behind the name. -/
def pattern : Pattern := chunkPattern.plus.seq <| (group 1 namePattern).seq tailPattern

/-- What is named where the pattern matches. -/
def ofMatch? (m : Match) : Option Signature :=
  (m.group? 1).map fun name => ⟨name.text, name.place⟩

/-! ## What stands behind the name -/

/-- Blanks are four characters. -/
lemma isSpacing_iff {c : Char} : isSpacing c = true ↔ c = ' ' ∨ c = '\t' ∨ c = '\r' ∨ c = '\n' := by
  simp only [isSpacing, Bool.or_eq_true, beq_iff_eq, or_assoc]

/-- What is left behind the words that may follow the parameters and the opening brace. -/
def afterWords? (text : List Char) : Option (List Char) :=
  after? ['\x7b'] (skipWord "override" (skipWord "noexcept" (skipWord "const" text)))

/-- A word is passed with the blanks behind it where what follows begins with neither. -/
lemma reads_word_seq {p : Pattern} {f : List Char → Option (List Char)} (hp : p.Reads f)
    (w : String) (hblank : ∀ c rest, isSpacing c = true → f (c :: rest) = none)
    (hword : ∀ rest, f (w.toList ++ rest) = none) :
    ((wordPattern w).seq p).Reads fun text => f (skipWord w text) :=
  hp.maybe hblank hword

/-- The words are passed in their order, with the blanks behind each of them. -/
lemma reads_words :
    ((wordPattern "const").seq <| (wordPattern "noexcept").seq <| (wordPattern "override").seq <|
      char (· == '\x7b')).Reads afterWords? := by
  have hoverride := reads_word_seq (reads_sign '\x7b') "override"
    (fun c rest hc => by rcases isSpacing_iff.1 hc with rfl | rfl | rfl | rfl <;> rfl)
    (fun rest => rfl)
  have hnoexcept := reads_word_seq hoverride "noexcept"
    (fun c rest hc => by rcases isSpacing_iff.1 hc with rfl | rfl | rfl | rfl <;> rfl)
    (fun rest => rfl)
  exact reads_word_seq hnoexcept "const"
    (fun c rest hc => by rcases isSpacing_iff.1 hc with rfl | rfl | rfl | rfl <;> rfl)
    (fun rest => rfl)

/-- What is left behind a part of the parameters. -/
def afterParameter? (text : List Char) : Option (List Char) :=
  (afterOne? isPlain text).or ((after? ['('] text).bind fun inner =>
    after? [')'] (inner.dropWhile isPlain))

/-- The pattern of a parameter has at most one way, which leaves what is left behind the parameter.
-/
lemma reads_parameterPattern : parameterPattern.Reads afterParameter? := by
  have hnested := (reads_sign '(').seq ((reads_sign ')').skip (q := isPlain) fun c rest hc => by
    rw [Option.eq_none_iff_forall_ne_some]
    rintro rest' h
    obtain ⟨rfl, -⟩ := List.cons_eq_cons.1 (after?_eq_some_iff.1 h)
    cases hc)
  refine (reads_char isPlain).either hnested fun text htext => ?_
  obtain ⟨rest, hrest⟩ := Option.ne_none_iff_exists'.1 htext
  cases text with
  | nil => rfl
  | cons c text =>
    by_cases hopen : c = '('
    · subst hopen
      cases hrest
    · simp [after?, Ne.symm hopen]

/-- Behind parentheses within the parameters these go on. -/
lemma afterParameters?_true (text : List Char) :
    afterParameters? true text
      = (after? [')'] (text.dropWhile isPlain)).bind (afterParameters? false) := by
  induction text with
  | nil => rfl
  | cons c text ih =>
    rw [afterParameters?]
    by_cases hclose : c = ')'
    · subst hclose
      rfl
    · by_cases hopen : c = '('
      · subst hopen
        rfl
      · have hplain : isPlain c = true := by simp [isPlain, hclose, hopen]
        rw [if_neg hclose, if_neg hopen, ih, List.dropWhile_cons_of_pos hplain]

/-- The parameters are passed part by part, until a parenthesis is left that closes them.

**Proof sketch.** By the first character. A closing parenthesis ends the parameters, an opening one
begins a part that has to be closed, and any other character is a part by itself. -/
lemma afterParameters?_false (text : List Char) :
    afterParameters? false text
      = match afterParameter? text with
        | some rest => afterParameters? false rest
        | none => after? [')'] text := by
  cases text with
  | nil => rfl
  | cons c text =>
    rw [afterParameters?]
    by_cases hclose : c = ')'
    · subst hclose
      rfl
    · by_cases hopen : c = '('
      · subst hopen
        show afterParameters? true text = match after? [')'] (text.dropWhile isPlain) with
          | some rest => afterParameters? false rest
          | none => none
        rw [afterParameters?_true]
        cases after? [')'] (text.dropWhile isPlain) <;> rfl
      · have hplain : isPlain c = true := by simp [isPlain, hclose, hopen]
        have hpart : afterParameter? (c :: text) = some text := by
          rw [afterParameter?, afterOne?, if_pos hplain]
          rfl
        rw [if_neg hclose, if_neg hopen, hpart]

/-- No part of the parameters begins with the parenthesis that closes them. -/
lemma after?_of_afterParameter? {text rest : List Char} (h : afterParameter? text = some rest) :
    after? [')'] text = none := by
  cases text with
  | nil => rfl
  | cons c text =>
    by_cases hclose : c = ')'
    · subst hclose
      cases h
    · simp [after?, Ne.symm hclose]

/-- Behind a part of the parameters less is left.

**Proof sketch.** The part is either a single character, or it is in parentheses, and both of these
are passed. -/
lemma length_afterParameter?_lt {text rest : List Char} (h : afterParameter? text = some rest) :
    rest.length < text.length := by
  rcases Option.or_eq_some_iff.1 h with h | ⟨-, h⟩
  · cases text with
    | nil => cases h
    | cons c text =>
      rw [afterOne?] at h
      split at h
      · obtain rfl := Option.some.inj h
        exact Nat.lt_succ_self _
      · cases h
  · obtain ⟨inner, hinner, hrest⟩ := Option.bind_eq_some_iff.1 h
    have hlength := length_dropWhile_le isPlain inner
    rw [after?_eq_some_iff.1 hrest] at hlength
    rw [after?_eq_some_iff.1 hinner]
    simp only [List.length_append, List.length_cons, List.length_nil] at hlength ⊢
    omega

/-- The pattern up to the opening brace has at most one way. -/
lemma reads_bracePattern : bracePattern.Reads afterBrace? := by
  have hclosed := (reads_sign ')').seq (reads_words.skip (q := isSpacing) fun c rest hc => by
    rcases isSpacing_iff.1 hc with rfl | rfl | rfl | rfl <;> rfl)
  refine reads_parameterPattern.many hclosed length_afterParameter?_lt (fun h => ?_) (fun h => ?_)
  · refine ⟨?_, ?_⟩
    · rw [after?_of_afterParameter? h]
      rfl
    · rw [afterBrace?, afterBrace?, afterParameters?_false, h]
  · rw [afterBrace?, afterParameters?_false, h]
    rfl

/-- What is left behind the opening brace, given the text behind the name. -/
def afterName? (text : List Char) : Option (List Char) :=
  (after? ['('] (text.dropWhile isSpacing)).bind afterBrace?

/-- The pattern of what stands behind the name has at most one way. -/
lemma reads_tailPattern : tailPattern.Reads afterName? :=
  ((reads_sign '(').seq reads_bracePattern).skip fun c rest hc => by
    rcases isSpacing_iff.1 hc with rfl | rfl | rfl | rfl <;> rfl

/-! ## Types and names -/

/-- The text is one of a type and what separates it from what follows. -/
def IsChunk (part : List Char) : Prop :=
  ∃ x y, part = x ++ y ∧ (x ≠ [] ∧ ∀ c ∈ x, isTypeChar c = true)
    ∧ (y ≠ [] ∧ ∀ c ∈ y, isJoint c = true)

/-- The text stands before the name of a function: it has at least two characters, begins with one
of a type and ends in one that may precede a name. -/
structure IsType (part : List Char) : Prop where
  /-- All characters may stand there. -/
  head : ∀ c ∈ part, isHeadChar c = true
  /-- A type comes first. -/
  first : part.head?.any isTypeChar = true
  /-- What separates it from the name comes last. -/
  last : part.getLast?.any isJoint = true
  /-- There is room for both. -/
  two : 2 ≤ part.length

/-- The text is the name of a function. -/
structure IsName (part : List Char) : Prop where
  /-- A name may begin with the first character. -/
  begins : part.head?.any beginsName = true
  /-- All characters may stand in a name. -/
  all : ∀ c ∈ part, isNameChar c = true

/-- A character may precede a name if it is one of a type or separates a type from what follows. -/
lemma isHeadChar_iff {c : Char} :
    isHeadChar c = true ↔ isTypeChar c = true ∨ isJoint c = true := by
  simp only [isHeadChar, isTypeChar, isJoint, Bool.or_eq_true]
  tauto

/-- A blank separates a type from what follows. -/
lemma isJoint_of_isSpacing {c : Char} (h : isSpacing c = true) : isJoint c = true := by
  rw [isJoint, h]
  rfl

/-- A blank is no part of a type, but what else may precede a name is. -/
lemma isTypeChar_iff_of_isJoint {c : Char} (h : isJoint c = true) :
    isTypeChar c = true ↔ isSpacing c = false := by
  simp only [isJoint, Bool.or_eq_true, beq_iff_eq, isSpacing_iff] at h
  rcases h with (((rfl | rfl | rfl | rfl) | rfl) | rfl) <;> decide

/-- The pattern of a chunk spells a type and what separates it. -/
lemma spells_chunkPattern : chunkPattern.Spells IsChunk :=
  (spells_plus_char isTypeChar).seq (spells_plus_char isJoint)

/-- A name may go on with what it may begin with. -/
lemma isNameChar_of_beginsName {c : Char} (h : beginsName c = true) : isNameChar c = true := by
  rcases Bool.or_eq_true_iff.1 h with h | h
  · rw [isNameChar, isAsciiNameChar_of_beginsAsciiName h]
    rfl
  · rw [isNameChar, h, Bool.or_true]

/-- The pattern of a name spells names. -/
lemma spells_namePattern : namePattern.Spells IsName := by
  refine ((spells_char beginsName).seq (spells_many_char isNameChar)).of_iff fun part => ⟨?_, ?_⟩
  · rintro ⟨x, y, rfl, ⟨c, hc, rfl⟩, hy⟩
    exact ⟨hc, List.forall_mem_cons.2 ⟨isNameChar_of_beginsName hc, hy⟩⟩
  · rintro ⟨hbegins, hall⟩
    cases part with
    | nil => cases hbegins
    | cons c part =>
      exact ⟨[c], part, rfl, ⟨c, hbegins, rfl⟩, (List.forall_mem_cons.1 hall).2⟩

/-- A chunk may stand before a name. -/
lemma IsChunk.isType {part : List Char} (h : IsChunk part) : IsType part := by
  obtain ⟨x, y, rfl, ⟨hx, hxtype⟩, hy, hyjoint⟩ := h
  refine ⟨fun c hc => ?_, ?_, ?_, ?_⟩
  · rcases List.mem_append.1 hc with hc | hc
    · exact isHeadChar_iff.2 (.inl (hxtype c hc))
    · exact isHeadChar_iff.2 (.inr (hyjoint c hc))
  · rw [List.head?_append_of_ne_nil _ hx, List.head?_eq_some_head hx]
    exact hxtype _ (List.head_mem hx)
  · rw [List.getLast?_append_of_ne_nil _ hy, List.getLast?_eq_some_getLast hy]
    exact hyjoint _ (List.getLast_mem hy)
  · have hxpos : 0 < x.length := List.length_pos_iff.2 hx
    have hypos : 0 < y.length := List.length_pos_iff.2 hy
    rw [List.length_append]
    omega

/-- What stands before a name has some characters. -/
lemma IsType.ne_nil {part : List Char} (h : IsType part) : part ≠ [] := by
  rintro rfl
  cases h.first

/-- No blanks stand before a type. -/
lemma IsType.dropWhile_isSpacing {part : List Char} (h : IsType part) :
    part.dropWhile isSpacing = part := by
  cases part with
  | nil => rfl
  | cons c part =>
    have htype : isTypeChar c = true := h.first
    refine List.dropWhile_cons_of_neg fun hspacing => ?_
    rw [(isTypeChar_iff_of_isJoint (isJoint_of_isSpacing hspacing)).1 htype] at hspacing
    cases hspacing

/-- A type may be followed by a type. -/
lemma IsType.append {x y : List Char} (hx : IsType x) (hy : IsType y) : IsType (x ++ y) := by
  refine ⟨fun c hc => (List.mem_append.1 hc).elim (hx.head c) (hy.head c), ?_, ?_, ?_⟩
  · rw [List.head?_append_of_ne_nil _ hx.ne_nil]
    exact hx.first
  · rw [List.getLast?_append_of_ne_nil _ hy.ne_nil]
    exact hy.last
  · rw [List.length_append]
    exact hx.two.trans (Nat.le_add_right _ _)

/-- Some chunks, one after the other, may stand before a name. -/
lemma isType_flatten {chunks : List (List Char)} (hne : chunks ≠ [])
    (h : ∀ x ∈ chunks, IsChunk x) : IsType chunks.flatten := by
  induction chunks with
  | nil => exact absurd rfl hne
  | cons x chunks ih =>
    obtain ⟨hx, hchunks⟩ := List.forall_mem_cons.1 h
    by_cases hlast : chunks = []
    · subst hlast
      rw [List.flatten_cons, List.flatten_nil, List.append_nil]
      exact hx.isType
    · exact hx.isType.append (ih hlast hchunks)

/-- What may precede a name is cut at the blanks, stars and ampersands in it.

**Proof sketch.** Induction from the front, with what separates the first chunk from what precedes
it. -/
lemma exists_chunks {part : List Char} (hhead : ∀ c ∈ part, isHeadChar c = true)
    (hlast : ∀ c ∈ part.getLast?, isJoint c = true) :
    ∃ (joints : List Char) (chunks : List (List Char)), part = joints ++ chunks.flatten
      ∧ (∀ c ∈ joints, isJoint c = true) ∧ (∀ x ∈ chunks, IsChunk x)
      ∧ (part.head?.any isTypeChar = true → 2 ≤ part.length → joints = []) := by
  induction part with
  | nil => exact ⟨[], [], rfl, List.forall_mem_nil _, List.forall_mem_nil _, fun _ _ => rfl⟩
  | cons c part ih =>
    obtain ⟨hc, hhead⟩ := List.forall_mem_cons.1 hhead
    have hlater : ∀ d ∈ part.getLast?, isJoint d = true := by
      intro d hd
      refine hlast d ?_
      rw [List.getLast?_cons, Option.mem_def.1 hd]
      rfl
    obtain ⟨joints, chunks, rfl, hjoints, hchunks, -⟩ := ih hhead hlater
    by_cases htype : isTypeChar c = true
    · by_cases hnone : joints = []
      · subst hnone
        cases chunks with
        | nil =>
          refine ⟨[c], [], rfl, fun d hd => hlast d ?_, List.forall_mem_nil _,
            fun _ htwo => absurd htwo (Nat.not_succ_le_self 1)⟩
          rw [List.mem_singleton.1 hd]
          rfl
        | cons x chunks =>
          -- The type that comes first goes on with the character.
          obtain ⟨⟨a, b, rfl, ⟨-, hatype⟩, hb⟩, hothers⟩ := List.forall_mem_cons.1 hchunks
          refine ⟨[], (c :: a ++ b) :: chunks, rfl, List.forall_mem_nil _,
            List.forall_mem_cons.2 ⟨⟨c :: a, b, rfl, ⟨List.cons_ne_nil c a, ?_⟩, hb⟩, hothers⟩,
            fun _ _ => rfl⟩
          exact List.forall_mem_cons.2 ⟨htype, hatype⟩
      · -- The character is a type of its own.
        refine ⟨[], (c :: joints) :: chunks, rfl, List.forall_mem_nil _,
          List.forall_mem_cons.2 ⟨⟨[c], joints, rfl, ⟨List.cons_ne_nil c [], ?_⟩, hnone, hjoints⟩,
            hchunks⟩, fun _ _ => rfl⟩
        exact List.forall_mem_cons.2 ⟨htype, List.forall_mem_nil _⟩
    · exact ⟨c :: joints, chunks, rfl,
        List.forall_mem_cons.2 ⟨(isHeadChar_iff.1 hc).resolve_left htype, hjoints⟩, hchunks,
        fun h => absurd h htype⟩

/-- The pattern of the chunks spells what may stand before a name. -/
lemma spells_type : chunkPattern.plus.Spells IsType := by
  refine (spells_chunkPattern.plus fun part h => h.isType.ne_nil).of_iff
    fun part => ⟨?_, fun h => ?_⟩
  · rintro ⟨chunks, hchunks, rfl, hall⟩
    exact isType_flatten hchunks hall
  · obtain ⟨joints, chunks, hpart, -, hchunks, hjoints⟩ :=
      exists_chunks h.head fun c hc => by
        have hlast := h.last
        rwa [Option.mem_def.1 hc] at hlast
    rw [hjoints h.first h.two, List.nil_append] at hpart
    refine ⟨chunks, ?_, hpart, hchunks⟩
    rintro rfl
    subst hpart
    exact absurd h.two (by decide)

/-- A match is a type, a name and what stands behind it.

**Proof sketch.** The three patterns of which the pattern is made are read off in turn: the first
two by what they spell, the third by the one way that it has. The group keeps the name, and the
parts that were passed add up. -/
lemma mem_ways_pattern {m m' : Match} :
    m' ∈ pattern.ways m
      ↔ ∃ type name more rest, m.rest = type ++ (name ++ more) ∧ IsType type ∧ IsName name
        ∧ afterName? more = some rest
        ∧ m' = (m.upTo rest).keep 1 ⟨m.place + type.length, name⟩ := by
  have hupTo : ∀ type name more rest, m.rest = type ++ (name ++ more) →
      afterName? more = some rest →
      (((m.past type (name ++ more)).past name more).keep 1
        ⟨(m.past type (name ++ more)).place, name⟩).upTo rest
        = (m.upTo rest).keep 1 ⟨m.place + type.length, name⟩ := by
    intro type name more rest hrest hafter
    have hmore : m.rest = (type ++ name) ++ more := by rw [hrest, List.append_assoc]
    rw [Match.past_past, Match.place_past, ← Match.upTo_eq_past (type ++ name) hmore]
    have hsuffix : more <:+ m.rest := ⟨type ++ name, hmore.symm⟩
    rw [← Match.upTo_upTo hsuffix (reads_tailPattern.suffix hafter)]
    rfl
  rw [pattern, mem_ways_seq]
  simp only [mem_ways_seq]
  constructor
  · rintro ⟨n, hn, k, hk, hm'⟩
    obtain ⟨type, rest, hrest, htype, rfl⟩ := (spells_type m n).1 hn
    obtain ⟨name, more, hmore, hname, rfl⟩ := (mem_ways_group spells_namePattern).1 hk
    obtain rfl : rest = name ++ more := hmore
    rw [reads_tailPattern.ways, Match.rest_keep, Match.rest_past, Option.mem_toList] at hm'
    obtain ⟨rest', hafter, rfl⟩ := Option.map_eq_some_iff.1 hm'
    exact ⟨type, name, more, rest', hrest, htype, hname, hafter,
      hupTo type name more rest' hrest hafter⟩
  · rintro ⟨type, name, more, rest, hrest, htype, hname, hafter, rfl⟩
    refine ⟨m.past type (name ++ more), (spells_type m _).2 ⟨type, _, hrest, htype, rfl⟩,
      _, (mem_ways_group spells_namePattern).2 ⟨name, more, rfl, hname, rfl⟩, ?_⟩
    rw [reads_tailPattern.ways, Match.rest_keep, Match.rest_past, hafter, Option.mem_toList]
    exact congrArg some (hupTo type name more rest hrest hafter)

/-! ## Runs of type and name -/

/-- What separates a type from a name is not part of the name. -/
lemma isNameChar_of_isJoint {c : Char} (h : isJoint c = true) : isNameChar c = false := by
  simp only [isJoint, Bool.or_eq_true, beq_iff_eq, isSpacing_iff] at h
  rcases h with (((rfl | rfl | rfl | rfl) | rfl) | rfl) <;> decide

/-- A name holds no blanks. -/
lemma isSpacing_of_isNameChar {c : Char} (h : isNameChar c = true) : isSpacing c = false := by
  rw [Bool.eq_false_iff]
  intro hspacing
  rw [isNameChar_of_isJoint (isJoint_of_isSpacing hspacing)] at h
  cases h

/-- A name has some characters. -/
lemma IsName.ne_nil {name : List Char} (h : IsName name) : name ≠ [] := by
  rintro rfl
  cases h.begins

/-- A run is its last word, with blanks behind it and enough in front of it.

**Proof sketch.** The run is read from its end: blanks, then the characters of the name, then what
precedes it. Put together again these make up the run. -/
lemma eq_append_of_nameIn? {run name : List Char} {n : Nat} (h : nameIn? run = some (name, n)) :
    ∃ front blanks, run = front ++ (name ++ blanks) ∧ front.length = n ∧ IsName name
      ∧ (∀ c ∈ blanks, isSpacing c = true) ∧ front.getLast?.any isJoint = true
      ∧ 2 ≤ (front.dropWhile isSpacing).length := by
  unfold nameIn? at h
  dsimp only at h
  split at h
  · next hrun =>
    obtain ⟨rfl, rfl⟩ := Prod.mk.inj (Option.some.inj h)
    simp only [Bool.and_eq_true, decide_eq_true_eq] at hrun
    obtain ⟨⟨hbegins, hjoint⟩, htwo⟩ := hrun
    refine ⟨((run.reverse.dropWhile isSpacing).dropWhile isNameChar).reverse,
      (run.reverse.takeWhile isSpacing).reverse, ?_, List.length_reverse, ⟨hbegins, ?_⟩, ?_, ?_,
      htwo⟩
    · rw [← List.reverse_append, ← List.reverse_append, List.append_assoc,
        List.takeWhile_append_dropWhile, List.takeWhile_append_dropWhile, List.reverse_reverse]
    · exact fun c hc => List.mem_takeWhile_imp (List.mem_reverse.1 hc)
    · exact fun c hc => List.mem_takeWhile_imp (List.mem_reverse.1 hc)
    · rw [List.getLast?_reverse]
      exact hjoint
  · cases h

/-- The last word of a run is its name.

**Proof sketch.** Read from the end of the run, the blanks end at the name because a name holds
none, and the name ends at what precedes it because that is no part of a name. -/
lemma nameIn?_append {front name blanks : List Char} (hname : IsName name)
    (hblanks : ∀ c ∈ blanks, isSpacing c = true) (hjoint : front.getLast?.any isJoint = true)
    (htwo : 2 ≤ (front.dropWhile isSpacing).length) :
    nameIn? (front ++ (name ++ blanks)) = some (name, front.length) := by
  have hturned : (front ++ (name ++ blanks)).reverse
      = blanks.reverse ++ (name.reverse ++ front.reverse) := by simp
  have hsolid : (name.reverse ++ front.reverse).head?.any isSpacing = false := by
    rw [List.head?_append_of_ne_nil _ (mt List.reverse_eq_nil_iff.1 hname.ne_nil),
      List.head?_reverse]
    cases hlast : name.getLast? with
    | none => rfl
    | some c => exact isSpacing_of_isNameChar (hname.all c (List.mem_of_getLast? hlast))
  have hstop : front.reverse.head?.any isNameChar = false := by
    rw [List.head?_reverse]
    cases hlast : front.getLast? with
    | none => rfl
    | some c => exact isNameChar_of_isJoint (by rwa [hlast] at hjoint)
  have hall : name.reverse.all isNameChar = true := by simpa using hname.all
  unfold nameIn?
  dsimp only
  rw [hturned, dropWhile_word (by simpa using hblanks) hsolid, takeWhile_word hall hstop,
    dropWhile_word hall hstop, List.reverse_reverse, List.reverse_reverse, List.head?_reverse,
    hname.begins, hjoint, decide_eq_true htwo, List.length_reverse]
  rfl

/-- The name of a run is its last word, and what precedes it is long enough to be a type and ends in
a character that may precede a name. -/
lemma nameIn?_eq_some_iff {run name : List Char} {n : Nat} :
    nameIn? run = some (name, n)
      ↔ ∃ front blanks, run = front ++ (name ++ blanks) ∧ front.length = n ∧ IsName name
        ∧ (∀ c ∈ blanks, isSpacing c = true) ∧ front.getLast?.any isJoint = true
        ∧ 2 ≤ (front.dropWhile isSpacing).length := by
  constructor
  · exact eq_append_of_nameIn?
  · rintro ⟨front, blanks, rfl, rfl, hname, hblanks, hjoint, htwo⟩
    exact nameIn?_append hname hblanks hjoint htwo

/-- A run is a signature if a name stands in it and a body follows the parameters behind it. -/
lemma readAfter_eq_some_iff {run text name rest : List Char} {n : Nat} :
    readAfter run text = (some (name, n), rest)
      ↔ ∃ inner, text = '(' :: inner ∧ nameIn? run = some (name, n)
        ∧ afterBrace? inner = some rest := by
  cases text with
  | nil => simp [readAfter]
  | cons c text =>
    rw [readAfter]
    by_cases hc : c = '('
    · subst hc
      cases hname : nameIn? run with
      | none => simp
      | some found => cases hbrace : afterBrace? text <;> simp [hbrace]
    · simp [hc]

/-- Where nothing is found, the search goes on behind the character after the run. -/
lemma readAfter_eq_none {run text rest : List Char} (h : readAfter run text = (none, rest)) :
    rest = text.tail := by
  cases text with
  | nil => simpa [readAfter] using h.symm
  | cons c text =>
    rw [readAfter] at h
    split at h
    · cases h
    · exact (Prod.mk.inj h).2.symm

/-- Wherever in a run a match begins, it is the one that is read off the run.

**Proof sketch.** The opening parenthesis behind the name is the first character that may not stand
in a run. So it follows the run, and the name is the last word of the run. -/
lemma readAfter_of_mem {x y text : List Char} (hrun : ∀ c ∈ y, isHeadChar c = true)
    (htext : text.head?.any isHeadChar = false) {m m' : Match} (hrest : m.rest = y ++ text)
    (h : m' ∈ pattern.ways m) :
    ∃ name n rest, readAfter (x ++ y) text = (some (name, x.length + n), rest)
      ∧ rest <:+ m.rest ∧ m' = (m.upTo rest).keep 1 ⟨m.place + n, name⟩ := by
  obtain ⟨type, name, more, rest, hparts, htype, hname, hafter, rfl⟩ := mem_ways_pattern.1 h
  obtain ⟨inner, hinner, hbrace⟩ := Option.bind_eq_some_iff.1 hafter
  -- what is matched behind the name is blanks and the parenthesis
  have hmore : more = more.takeWhile isSpacing ++ '(' :: inner := by
    have hsplit := (List.takeWhile_append_dropWhile (p := isSpacing) (l := more)).symm
    rwa [after?_eq_some_iff.1 hinner] at hsplit
  have hblanks : ∀ c ∈ more.takeWhile isSpacing, isSpacing c = true := fun c =>
    List.mem_takeWhile_imp
  generalize more.takeWhile isSpacing = blanks at hmore hblanks
  obtain ⟨hy, rfl⟩ : y = type ++ (name ++ blanks) ∧ text = '(' :: inner := by
    have hall : y ++ text = (type ++ (name ++ blanks)) ++ '(' :: inner := by
      rw [← hrest, hparts, hmore, List.append_assoc, List.append_assoc]
    have hhead : (type ++ (name ++ blanks)).all isHeadChar = true := by
      simp only [List.all_append, Bool.and_eq_true, List.all_eq_true]
      refine ⟨htype.head, fun c hc => ?_, fun c hc => isHeadChar_iff.2 (.inr ?_)⟩
      · rw [isHeadChar, hname.all c hc]
        rfl
      · exact isJoint_of_isSpacing (hblanks c hc)
    have hy := takeWhile_word (List.all_eq_true.2 hrun) htext
    rw [hall, takeWhile_word hhead rfl] at hy
    subst hy
    exact ⟨rfl, List.append_cancel_left hall⟩
  subst hy
  have hrunparts : nameIn? (x ++ (type ++ (name ++ blanks)))
      = some (name, x.length + type.length) := by
    refine nameIn?_eq_some_iff.2 ⟨x ++ type, blanks, (List.append_assoc ..).symm,
      List.length_append, hname, hblanks, ?_, htype.two.trans ?_⟩
    · rw [List.getLast?_append_of_ne_nil _ htype.ne_nil]
      exact htype.last
    · -- The blanks that are dropped end before the type.
      rw [List.dropWhile_append]
      split
      · rw [htype.dropWhile_isSpacing]
      · rw [List.length_append]
        exact Nat.le_add_left _ _
  exact ⟨name, type.length, rest, readAfter_eq_some_iff.2 ⟨inner, rfl, hrunparts, hbrace⟩,
    (reads_tailPattern.suffix hafter).trans ⟨type ++ name, by rw [hparts, List.append_assoc]⟩, rfl⟩

/-- What precedes the name in a run is a type behind its blanks.

**Proof sketch.** All characters may stand there. The first one is no blank, so it is one of a type,
and the last one is the last one of the run. -/
lemma isType_dropWhile {front : List Char} (hhead : ∀ c ∈ front, isHeadChar c = true)
    (hjoint : front.getLast?.any isJoint = true) (htwo : 2 ≤ (front.dropWhile isSpacing).length) :
    IsType (front.dropWhile isSpacing) := by
  have hne : front.dropWhile isSpacing ≠ [] := by
    intro hnil
    rw [hnil] at htwo
    exact absurd htwo (by decide)
  have hall : ∀ c ∈ front.dropWhile isSpacing, isHeadChar c = true := fun c hc =>
    hhead c ((List.dropWhile_sublist _).mem hc)
  refine ⟨hall, ?_, ?_, htwo⟩
  · have hsolid := List.head_dropWhile_not isSpacing hne
    rw [List.head?_eq_some_head hne]
    rcases isHeadChar_iff.1 (hall _ (List.head_mem hne)) with htype | hjoint
    · exact htype
    · exact (isTypeChar_iff_of_isJoint hjoint).2 hsolid
  · rw [← List.takeWhile_append_dropWhile (p := isSpacing) (l := front),
      List.getLast?_append_of_ne_nil _ hne] at hjoint
    exact hjoint

/-! ## Searching -/

/-- The match of a signature that is read off the front of a text. -/
def atFront (before text name rest : List Char) (n : Nat) : Match :=
  ((Match.mk ⟨before, text⟩ []).upTo rest).keep 1 ⟨before.length + n, name⟩

/-- Where a match ends does not tell where it begins. -/
lemma upTo_behind (before x : List Char) {text rest : List Char} (h : rest <:+ text) :
    (Match.mk ⟨x.reverse ++ before, text⟩ []).upTo rest
      = (Match.mk ⟨before, x ++ text⟩ []).upTo rest := by
  have hbehind : (Match.mk ⟨before, x ++ text⟩ []).upTo text
      = Match.mk ⟨x.reverse ++ before, text⟩ [] := Match.upTo_eq_past x rfl
  rw [← hbehind]
  exact Match.upTo_upTo (List.suffix_append x text) h

/-- The search finds what is read off the run at the front of the text, wherever in the run the
match begins.

**Proof sketch.** All matches that begin in the run are the same. One begins behind the blanks at
the front of the run: from there on, what precedes the name is a type. -/
lemma search_of_readFront {before text name rest : List Char} {n : Nat}
    (h : readFront text = (some (name, n), rest)) :
    pattern.search before text = some (atFront before text name rest n) := by
  obtain ⟨inner, hinner, hname, hbrace⟩ := readAfter_eq_some_iff.1 h
  have hrun : ∀ c ∈ text.takeWhile isHeadChar, isHeadChar c = true := fun c =>
    List.mem_takeWhile_imp
  have htext : text = text.takeWhile isHeadChar ++ '(' :: inner := by
    have hsplit := (List.takeWhile_append_dropWhile (p := isHeadChar) (l := text)).symm
    rwa [hinner] at hsplit
  rw [readFront, hinner] at h
  generalize text.takeWhile isHeadChar = run at htext hrun hname h
  subst htext
  refine search_of_agree before _ (fun x y hxy m' hm' => ?_) ?_
  -- all matches that begin in the run are this one
  · subst hxy
    obtain ⟨name', n', rest', hread, hrest, rfl⟩ := readAfter_of_mem (x := x)
      (fun c hc => hrun c (List.mem_append_right x hc)) rfl rfl (mem_ways_of_first? hm')
    rw [hread] at h
    obtain ⟨heq, rfl⟩ := Prod.mk.inj h
    obtain ⟨rfl, rfl⟩ := Prod.mk.inj (Option.some.inj heq)
    have hplace : (Match.mk ⟨x.reverse ++ before, y ++ '(' :: inner⟩ []).place + n'
        = before.length + (x.length + n') := by
      simp only [Match.place, List.length_append, List.length_reverse]
      omega
    rw [atFront, hplace, upTo_behind before x (show rest' <:+ y ++ '(' :: inner from hrest),
      List.append_assoc]
  -- one begins behind the blanks
  · obtain ⟨front, blanks, rfl, rfl, hname, hblanks, hjoint, htwo⟩ := nameIn?_eq_some_iff.1 hname
    refine ⟨front.takeWhile isSpacing, front.dropWhile isSpacing ++ (name ++ blanks), ?_, ?_⟩
    · rw [← List.append_assoc (front.takeWhile isSpacing), List.takeWhile_append_dropWhile]
    · have htype := isType_dropWhile (fun c hc => hrun c (List.mem_append_left _ hc)) hjoint htwo
      have hafter : afterName? (blanks ++ '(' :: inner) = some rest := by
        rw [afterName?, List.dropWhile_append_of_pos hblanks,
          List.dropWhile_cons_of_neg (by decide)]
        exact hbrace
      intro hnone
      rw [first?_eq_none_iff] at hnone
      refine List.ne_nil_of_mem
        (mem_ways_pattern.2 ⟨_, name, _, rest, ?_, htype, hname, hafter, rfl⟩) hnone
      show (front.dropWhile isSpacing ++ (name ++ blanks)) ++ '(' :: inner = _
      rw [List.append_assoc, List.append_assoc]

/-- Where nothing is read off the front of the text, no match begins there.

**Proof sketch.** A match would begin in the run at the front of the text or at the character behind
it. No match begins with that character, and one in the run would be read off it. -/
lemma search_of_readFront_none (before : List Char) {text rest : List Char}
    (h : readFront text = (none, rest)) :
    ∃ part, text = part ++ rest
      ∧ pattern.search before text = pattern.search (part.reverse ++ before) rest := by
  have hrun : ∀ c ∈ text.takeWhile isHeadChar, isHeadChar c = true := fun c =>
    List.mem_takeWhile_imp
  have htext : text = text.takeWhile isHeadChar ++ text.dropWhile isHeadChar :=
    List.takeWhile_append_dropWhile.symm
  have hstop := head?_any_dropWhile isHeadChar text
  rw [readFront] at h
  generalize text.takeWhile isHeadChar = run at htext hrun h
  generalize text.dropWhile isHeadChar = tail at htext hstop h
  subst htext
  obtain rfl := readAfter_eq_none h
  -- no match begins in the run
  have hnone : ∀ x y, run = x ++ y →
      pattern.first? ⟨x.reverse ++ before, y ++ tail⟩ = none := by
    rintro x y rfl
    rw [Option.eq_none_iff_forall_ne_some]
    intro m' hm'
    obtain ⟨name, n, rest, hread, -⟩ := readAfter_of_mem (x := x)
      (fun c hc => hrun c (List.mem_append_right x hc)) hstop rfl (mem_ways_of_first? hm')
    rw [hread] at h
    cases h
  cases tail with
  | nil =>
    refine ⟨run, rfl, search_skip before [] fun x y hxy _ => hnone x y hxy⟩
  | cons c tail =>
    refine ⟨run ++ [c], by simp, ?_⟩
    -- none begins with the character behind it
    have hskip : pattern.search before ((run ++ [c]) ++ tail)
        = pattern.search ((run ++ [c]).reverse ++ before) tail := by
      refine search_skip before tail fun x y hxy hy => ?_
      obtain ⟨y, d, rfl⟩ := (List.eq_nil_or_concat y).resolve_left hy
      rw [List.concat_eq_append, ← List.append_assoc] at hxy
      obtain ⟨hrunparts, hlast⟩ := List.append_inj' hxy rfl
      obtain rfl := List.singleton_inj.1 hlast
      rw [List.concat_eq_append, List.append_assoc]
      exact hnone x y hrunparts
    rwa [List.append_assoc] at hskip

/-- Signatures are found as the pattern is, from any place on.

**Proof sketch.** Induction on the text. Either the run at the front is a signature, which the
search finds, or the search goes on behind the run. -/
lemma allFrom_eq_findsFrom (before text : List Char) :
    allFrom before.length text = (pattern.findsFrom ⟨before, text⟩).filterMap ofMatch? := by
  induction hn : text.length using Nat.strongRecOn generalizing before text with
  | _ n ih =>
    subst hn
    have hpasses : pattern.passes = true := rfl
    cases text with
    | nil =>
      rw [allFrom_nil, findsFrom_nil hpasses]
      rfl
    | cons c text =>
      have hlt := length_readFront_lt (List.cons_ne_nil c text)
      rw [allFrom_cons]
      cases hfront : readFront (c :: text) with
      | mk found? rest =>
        rw [hfront] at hlt
        cases found? with
        | none =>
          obtain ⟨part, hpart, hsearch⟩ := search_of_readFront_none before hfront
          have hplace : before.length + ((c :: text).length - rest.length)
              = (part.reverse ++ before).length := by
            rw [hpart]
            simp only [List.length_append, List.length_reverse]
            omega
          rw [findsFrom_of_search_eq hpasses hsearch, hplace]
          exact ih _ hlt (part.reverse ++ before) rest rfl
        | some found =>
          obtain ⟨name, n⟩ := found
          have hplace : before.length + ((c :: text).length - rest.length)
              = (atFront before (c :: text) name rest n).cursor.before.length :=
            (Match.place_upTo (Match.mk ⟨before, c :: text⟩ []) rest).symm
          have hlater := ih _ hlt (atFront before (c :: text) name rest n).cursor.before rest rfl
          rw [findsFrom_of_search hpasses (search_of_readFront hfront), hplace]
          exact congrArg (⟨name, before.length + n⟩ :: ·) hlater

/-- **Signatures are found as the pattern is.** -/
theorem all_eq_finds (text : List Char) : all text = (pattern.finds text).filterMap ofMatch? :=
  allFrom_eq_findsFrom [] text

end Outliner.Signature
