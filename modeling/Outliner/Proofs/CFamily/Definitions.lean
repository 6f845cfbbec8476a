import Outliner.ByText.CFamily
import Outliner.Proofs.Pattern.Combined
import Outliner.Proofs.Reports.ByText

set_option autoImplicit false

/-!
# The pattern of definitions

Definitions are what a pattern matches. Its keyword is the only one that can stand at a place, and
its blanks are passed as a whole; a name is preferred as a whole, and if no body opens behind it
none does behind a part of it.

## Main definitions

* `Outliner.Definition.pattern`, `Outliner.Definition.ofMatch?` — the pattern of a definition and
  what a match of it defines.

## Main results

* `Outliner.Definition.all_eq_finds` — definitions are found as the pattern is.
-/

namespace Outliner

open Pattern

namespace Definition

/-- The words that begin a definition: `class|struct|union|namespace`. -/
def keywordPattern : Pattern := .oneOf (keywords.map String.toList)

/-- The name of a definition: `[A-Za-z_][A-Za-z0-9_]*`. -/
def namePattern : Pattern := (char beginsAsciiName).seq (char isAsciiNameChar).many

/-- What stands between the name and the body, with its opening brace: `[^;{}()=]*\{`. -/
def headPattern : Pattern := (char (!endsHead ·)).many.seq (char (· == '\x7b'))

/-- The pattern of a definition:
`\b(class|struct|union|namespace)[ \t\r\n]+([A-Za-z_][A-Za-z0-9_]*)[^;{}()=]*\{`. -/
def pattern : Pattern :=
  .seq .edge <| .seq (.group 1 keywordPattern) <| .seq (char isSpacing).plus <|
    .seq (.group 2 namePattern) headPattern

/-- What is defined where the pattern matches. -/
def ofMatch? (m : Match) : Option Definition :=
  (m.group? 1).bind fun keyword => (m.group? 2).map fun name =>
    { isNameSpace := keyword.text == "namespace".toList
      name := name.text
      place := name.place
      opening := m.place - 1 }

/-- What is left behind the opening brace of a body, given the text behind the name. -/
def afterHead? (text : List Char) : Option (List Char) :=
  afterOne? (· == '\x7b') (text.dropWhile (!endsHead ·))

/-- The pattern up to the body has at most one way. -/
lemma reads_headPattern : headPattern.Reads afterHead? := by
  refine (reads_char _).skip fun c rest hc => ?_
  have hbrace : (c == '\x7b') = false := by
    rw [beq_eq_false_iff_ne]
    rintro rfl
    exact absurd hc (by decide)
  rw [afterOne?, hbrace]
  rfl

/-- No character of a name ends the search for the opening brace. -/
lemma endsHead_of_isAsciiNameChar {c : Char} (h : isAsciiNameChar c = true) :
    endsHead c = false := by
  rw [endsHead, List.contains_eq_mem, decide_eq_false_iff_not]
  intro hc
  have hsigns : [';', '\x7b', '\x7d', '(', ')', '='].any isAsciiNameChar = false := by decide
  exact List.any_eq_false.1 hsigns c hc h

/-- Characters of a name make no difference to what is left behind the opening brace. -/
lemma afterHead?_append {part text : List Char} (h : ∀ c ∈ part, isAsciiNameChar c = true) :
    afterHead? (part ++ text) = afterHead? text := by
  rw [afterHead?, afterHead?, List.dropWhile_append_of_pos fun c hc => by
    rw [endsHead_of_isAsciiNameChar (h c hc)]; rfl]

/-- A name is passed as a whole, if possible.

**Proof sketch.** The characters behind the first one are passed as far as possible, and what is
left otherwise begins with the others. -/
lemma exists_ways_namePattern {m : Match} {name : List Char}
    (h : leadingAsciiName? m.rest = some name) :
    ∃ others, namePattern.ways m = m.past name (m.rest.drop name.length) :: others
      ∧ ∀ n ∈ others, ∃ part, (∀ c ∈ part, isAsciiNameChar c = true)
        ∧ n.rest = part ++ m.rest.drop name.length := by
  unfold leadingAsciiName? at h
  split at h
  · next hbegins =>
    obtain rfl := Option.some.inj h
    cases hrest : m.rest with
    | nil =>
      rw [hrest] at hbegins
      cases hbegins
    | cons c rest =>
      rw [hrest] at hbegins
      have hc : beginsAsciiName c = true := hbegins
      have htake : (c :: rest).takeWhile isAsciiNameChar = c :: rest.takeWhile isAsciiNameChar :=
        List.takeWhile_cons_of_pos (isAsciiNameChar_of_beginsAsciiName hc)
      have hdrop : (c :: rest).drop (c :: rest.takeWhile isAsciiNameChar).length
          = rest.dropWhile isAsciiNameChar := by
        rw [List.length_cons, List.drop_succ_cons]
        exact (congrArg _ List.takeWhile_append_dropWhile.symm).trans List.drop_left
      obtain ⟨others, hothers, hshorter⟩ :=
        exists_ways_many_char isAsciiNameChar (m.past [c] rest)
      refine ⟨others, ?_, ?_⟩
      · rw [namePattern, ways_seq, ways_char_cons hrest, if_pos hc, List.flatMap_singleton, hothers,
          htake, hdrop, Match.rest_past,
          Match.upTo_eq_past (rest.takeWhile isAsciiNameChar) List.takeWhile_append_dropWhile.symm,
          Match.past_past]
        rfl
      · rw [htake, hdrop]
        exact hshorter
  · cases h

/-- Where no name begins, the pattern of a name has no way.

**Proof sketch.** The pattern asks for a character that may begin a name. Without a name there is
none, or nothing is left. -/
lemma ways_namePattern_of_none {m : Match} (h : leadingAsciiName? m.rest = none) :
    namePattern.ways m = [] := by
  unfold leadingAsciiName? at h
  split at h
  · cases h
  · next hbegins =>
    rw [namePattern, ways_seq]
    cases hrest : m.rest with
    | nil =>
      rw [ways_char_nil hrest]
      rfl
    | cons c rest =>
      have hc : ¬beginsAsciiName c = true := by
        rw [hrest] at hbegins
        exact hbegins
      rw [ways_char_cons hrest, if_neg hc]
      rfl

/-- The match that goes on over a name and remembers it. -/
def overName (m : Match) (name : List Char) : Match :=
  (m.past name (m.rest.drop name.length)).keep 2 ⟨m.place, name⟩

/-- The name is passed as a whole: if no body opens behind it, none opens behind a part of it.

**Proof sketch.** The way that passes the whole name is preferred. If no body opens behind it, none
opens behind a shorter part, because the rest of the name may stand in front of a body and is
skipped with it (`afterHead?_append`). -/
lemma head?_ways_name (m : Match) :
    (((group 2 namePattern).seq headPattern).ways m).head?
      = (leadingAsciiName? m.rest).bind fun name =>
          (afterHead? (m.rest.drop name.length)).map (overName m name).upTo := by
  rw [ways_seq, ways_group]
  cases hname : leadingAsciiName? m.rest with
  | none =>
    rw [ways_namePattern_of_none hname]
    rfl
  | some name =>
    obtain ⟨others, hothers, hshorter⟩ := exists_ways_namePattern hname
    have hways : ∀ n : Match, headPattern.ways n = [] ↔ afterHead? n.rest = none := by
      intro n
      rw [reads_headPattern.ways, Option.toList_eq_nil_iff, Option.map_eq_none_iff]
    rw [hothers, List.map_cons, Match.remember_past, head?_flatMap_cons, reads_headPattern.ways,
      Option.head?_toList]
    · rfl
    · intro hnone n hn
      obtain ⟨k, hk, rfl⟩ := List.mem_map.1 hn
      obtain ⟨part, hpart, hrest⟩ := hshorter k hk
      rw [hways] at hnone
      rw [hways, Match.rest_remember, hrest, afterHead?_append hpart]
      exact hnone

/-- What a match behind the keyword goes on to. -/
def afterKeyword? (m : Match) : Option Match :=
  (afterOne? isSpacing m.rest).bind fun spaced =>
    (leadingAsciiName? (spaced.dropWhile isSpacing)).bind fun name =>
      (afterHead? ((spaced.dropWhile isSpacing).drop name.length)).map
        (overName (m.upTo (spaced.dropWhile isSpacing)) name).upTo

/-- No name begins with a blank. -/
lemma leadingAsciiName?_of_isSpacing {text : List Char} (h : text.head?.any isSpacing = true) :
    leadingAsciiName? text = none := by
  cases text with
  | nil => rfl
  | cons c text =>
    have hc : ¬beginsAsciiName c = true := by
      have hspacing : ∀ d, isSpacing d = true → beginsAsciiName d = false := by
        intro d hd
        simp only [isSpacing, Bool.or_eq_true, beq_iff_eq] at hd
        rcases hd with ((rfl | rfl) | rfl) | rfl <;> decide
      rw [hspacing c h]
      decide
    rw [leadingAsciiName?]
    exact if_neg hc

/-- Behind the keyword there are blanks, all of which are passed, and then the name.

**Proof sketch.** No name begins with a blank, so fewer blanks leave no way (`ways_skip`), and the
first way is the one behind all of them. -/
lemma head?_ways_afterKeyword (m : Match) :
    (((char isSpacing).plus.seq ((group 2 namePattern).seq headPattern)).ways m).head?
      = afterKeyword? m := by
  have hstop : ∀ n : Match, n.rest.head?.any isSpacing = true →
      ((group 2 namePattern).seq headPattern).ways n = [] := by
    intro n hn
    rw [← List.head?_eq_none_iff, head?_ways_name, leadingAsciiName?_of_isSpacing hn]
    rfl
  rw [ways_seq, plus, ways_seq, List.flatMap_assoc, (reads_char isSpacing).ways, afterKeyword?]
  cases hspaced : afterOne? isSpacing m.rest with
  | none => rfl
  | some spaced =>
    have hsuffix : spaced <:+ m.rest := (reads_char isSpacing).suffix hspaced
    show (List.flatMap _ [m.upTo spaced]).head? = _
    rw [List.flatMap_singleton, ← ways_seq, ways_skip hstop, head?_ways_name, Match.rest_upTo,
      Match.rest_upTo, Match.upTo_upTo hsuffix (List.dropWhile_suffix _)]
    rfl

/-! ### The keyword -/

/-- The words that begin a definition begin with different characters. -/
lemma eq_of_keywords {w w' : String} (hw : w ∈ keywords) (hw' : w' ∈ keywords)
    {text rest rest' : List Char} (h : text = w.toList ++ rest) (h' : text = w'.toList ++ rest') :
    w = w' := by
  have hheads : ∀ w ∈ keywords, w.toList ≠ []
      ∧ ∀ w' ∈ keywords, w.toList.head? = w'.toList.head? → w = w' := by
    decide
  refine (hheads w hw).2 w' hw' ?_
  have hhead := congrArg List.head? (h.symm.trans h')
  rwa [List.head?_append_of_ne_nil _ (hheads w hw).1,
    List.head?_append_of_ne_nil _ (hheads w' hw').1] at hhead

/-- No keyword begins with another one. -/
lemma after?_eq_none_of_keywords {w w' : String} (hw : w ∈ keywords) (hw' : w' ∈ keywords)
    (hne : w ≠ w') (rest : List Char) : after? w'.toList (w.toList ++ rest) = none := by
  rw [Option.eq_none_iff_forall_ne_some]
  intro rest' h
  exact hne (eq_of_keywords hw hw' rfl (after?_eq_some_iff.1 h))

/-- Only what is found with the word at the front of the text is found.

**Proof sketch.** Induction on the words. The words in front of the keyword find nothing, and
neither do those behind it. -/
lemma findSome?_of_keyword {α : Type} {find? : String → Option α} {w : String} (hw : w ∈ keywords)
    (h : ∀ w' ∈ keywords, w ≠ w' → find? w' = none) : keywords.findSome? find? = find? w := by
  have hothers : ∀ words : List String, w ∈ words → (∀ w' ∈ words, w ≠ w' → find? w' = none) →
      words.findSome? find? = find? w := by
    intro words hw h
    induction words with
    | nil => cases hw
    | cons w' words ih =>
      rw [List.findSome?_cons]
      by_cases hhere : w = w'
      · subst hhere
        cases hfound : find? w with
        | some found => rfl
        | none =>
          refine List.findSome?_eq_none_iff.2 fun w' hw' => ?_
          by_cases hsame : w = w'
          · exact hsame ▸ hfound
          · exact h w' (List.mem_cons_of_mem _ hw') hsame
      · rw [h w' List.mem_cons_self hhere]
        exact ih ((List.mem_cons.1 hw).resolve_left hhere)
          fun w' hw' => h w' (List.mem_cons_of_mem _ hw')
  exact hothers keywords hw h

/-- The pattern of a keyword has at most one way. -/
lemma reads_keywordPattern :
    keywordPattern.Reads fun text => keywords.findSome? fun w => after? w.toList text := by
  have hpairs : keywords.Pairwise (· ≠ ·) := by decide
  have hwords : (keywords.map String.toList).Pairwise
      fun w w' => ∀ text, after? w text ≠ none → after? w' text = none := by
    refine List.pairwise_map.2 (hpairs.imp_of_mem fun hw hw' hne text htext => ?_)
    obtain ⟨rest, hrest⟩ := Option.ne_none_iff_exists'.1 htext
    rw [after?_eq_some_iff.1 hrest]
    exact after?_eq_none_of_keywords hw hw' hne rest
  have hreads := reads_oneOf (by decide) hwords
  have hfind : (fun text => (keywords.map String.toList).findSome? (after? · text))
      = fun text => keywords.findSome? fun w => after? w.toList text := by
    funext text
    exact List.findSome?_map ..
  rwa [hfind] at hreads

/-- The match of a keyword at the front of the text. -/
def atKeyword (before : List Char) (w : String) (spaced : List Char) : Match where
  cursor := ⟨w.toList.reverse ++ before, spaced⟩
  groups := [(1, ⟨before.length, w.toList⟩)]

/-- Where a keyword begins, what follows it decides, if no word goes on there.

**Proof sketch.** The keyword is the one way of its pattern, as no other keyword is at the front. A
word goes on there if a character of a word stands before it, and then the pattern finds no edge. -/
lemma first?_keyword (before : List Char) {w : String} (hw : w ∈ keywords) (spaced : List Char) :
    pattern.first? ⟨before, w.toList ++ spaced⟩
      = if before.head?.any isWordChar then none
        else afterKeyword? (atKeyword before w spaced) := by
  have hheads : ∀ w ∈ keywords, w.toList ≠ [] ∧ w.toList.head?.any isWordChar = true := by
    decide
  have hword : (w.toList ++ spaced).head?.any isWordChar = true := by
    rw [List.head?_append_of_ne_nil _ (hheads w hw).1]
    exact (hheads w hw).2
  have hfind : (keywords.findSome? fun w' => after? w'.toList (w.toList ++ spaced))
      = some spaced := by
    rw [findSome?_of_keyword hw fun w' hw' hne => after?_eq_none_of_keywords hw hw' hne spaced]
    exact after?_eq_some_iff.2 rfl
  have hgroup : (group 1 keywordPattern).ways { cursor := ⟨before, w.toList ++ spaced⟩ }
      = [atKeyword before w spaced] := by
    have hrest : (Match.mk ⟨before, w.toList ++ spaced⟩ []).rest = w.toList ++ spaced := rfl
    rw [ways_group, reads_keywordPattern.ways, hrest, hfind, Option.map_some, Option.toList_some,
      List.map_singleton, Match.upTo_eq_past w.toList hrest, Match.remember_past]
    rfl
  rw [first?, pattern, ways_seq]
  by_cases hbefore : before.head?.any isWordChar = true
  · have hedge : edge.ways { cursor := ⟨before, w.toList ++ spaced⟩ } = [] := by
      rw [ways]
      exact if_pos (by rw [beq_iff_eq]; exact hbefore.trans hword.symm)
    rw [hedge, if_pos hbefore]
    rfl
  · have hedge : edge.ways { cursor := ⟨before, w.toList ++ spaced⟩ }
        = [{ cursor := ⟨before, w.toList ++ spaced⟩ }] := by
      rw [ways]
      exact if_neg fun h => hbefore ((beq_iff_eq.1 h).trans hword)
    rw [hedge, if_neg hbefore, List.flatMap_singleton, ways_seq, hgroup, List.flatMap_singleton,
      head?_ways_afterKeyword]

/-- Without a keyword there is no match.

**Proof sketch.** Whether there is an edge or not, the group of the keyword has no way. -/
lemma first?_of_no_keyword (before : List Char) {text : List Char}
    (h : ∀ w ∈ keywords, after? w.toList text = none) : pattern.first? ⟨before, text⟩ = none := by
  have hgroup : (group 1 keywordPattern).ways { cursor := ⟨before, text⟩ } = [] := by
    have hfind : (keywords.findSome? fun w => after? w.toList text) = none :=
      List.findSome?_eq_none_iff.2 h
    have hrest : (Match.mk ⟨before, text⟩ []).rest = text := rfl
    rw [ways_group, reads_keywordPattern.ways, hrest, hfind]
    rfl
  rw [first?_eq_none_iff, pattern, ways_seq, List.flatMap_eq_nil_iff]
  intro m hm
  rw [ways] at hm
  split at hm
  · cases hm
  · obtain rfl := List.mem_singleton.1 hm
    rw [ways_seq, hgroup]
    rfl

/-! ### What is found -/

/-- The match is of the definition: it ends behind the opening brace. -/
structure Fits (d : Definition) (m : Match) : Prop where
  /-- The match defines it. -/
  defines : ofMatch? m = some d
  /-- The body opens at the end of the match. -/
  place : m.place = d.opening + 1
  /-- The opening brace comes last. -/
  brace : m.cursor.before.head? = some '\x7b'

/-- A body opens where the next sign that ends a head is an opening brace. -/
lemma afterHead?_eq_some_iff {text rest : List Char} :
    afterHead? text = some rest ↔ text.dropWhile (!endsHead ·) = '\x7b' :: rest := by
  rw [afterHead?]
  cases text.dropWhile (!endsHead ·) with
  | nil => simp [afterOne?]
  | cons c body => by_cases hc : c = '\x7b' <;> simp [afterOne?, hc]

/-- What follows a keyword and a blank defines what the match defines.

**Proof sketch.** The groups hold the keyword and the name, with their places. The places are
differences of lengths, counted from the end of the text, and the match ends behind the opening
brace. -/
lemma fits_overName (before : List Char) (w : String) {spaced named name body rest : List Char}
    {d : Definition} (hnamed : named <:+ spaced) (hname : name.length ≤ named.length)
    (hbody : body <:+ named.drop name.length) (hrest : body = '\x7b' :: rest)
    (hd : d = {
      isNameSpace := w == "namespace"
      name := name
      place := before.length + ((w.toList ++ spaced).length - named.length)
      opening := before.length + ((w.toList ++ spaced).length - body.length) }) :
    Fits d ((overName ((atKeyword before w spaced).upTo named) name).upTo rest) := by
  obtain ⟨head, hhead⟩ := hbody
  have hlength := hnamed.length_le
  have hparts := congrArg List.length hhead
  have hplace : ((atKeyword before w spaced).upTo named).place
      = before.length + ((w.toList ++ spaced).length - named.length) := by
    rw [Match.place_upTo]
    simp only [atKeyword, Match.place, Match.rest, List.length_append, List.length_reverse]
    omega
  have hend : ((overName ((atKeyword before w spaced).upTo named) name).upTo rest).place
      = d.opening + 1 := by
    rw [Match.place_upTo, overName, Match.place_keep, Match.place_past, hplace, Match.rest_keep,
      Match.rest_past, Match.rest_upTo, ← hhead, hd]
    subst hrest
    simp only [List.length_append, List.length_cons, List.length_drop] at hparts ⊢
    omega
  have hbrace : (overName ((atKeyword before w spaced).upTo named) name).rest
      = head ++ '\x7b' :: rest := by
    rw [overName, Match.rest_keep, Match.rest_past, Match.rest_upTo, ← hhead, hrest]
  refine ⟨?_, hend, Match.head?_before_upTo hbrace⟩
  have hfirst : ((overName ((atKeyword before w spaced).upTo named) name).upTo rest).group? 1
      = some ⟨before.length, w.toList⟩ := rfl
  have hsecond : ((overName ((atKeyword before w spaced).upTo named) name).upTo rest).group? 2
      = some ⟨((atKeyword before w spaced).upTo named).place, name⟩ := rfl
  have hword : (w.toList == "namespace".toList) = (w == "namespace") := by
    rw [Bool.eq_iff_iff, beq_iff_eq, beq_iff_eq, String.toList_inj]
  rw [ofMatch?, hfirst, Option.bind_some, hsecond, Option.map_some, hend, hplace,
    Nat.add_sub_cancel, hword, hd]

/-- What follows a keyword defines what the match defines.

**Proof sketch.** Both ask for a blank behind the keyword, skip all blanks, read a name and look for
the opening brace. Where one of them finds nothing, the other finds nothing. -/
lemma withKeyword?_rel (before : List Char) (w : String) (spaced : List Char) :
    Option.Rel Fits (withKeyword? before.length (w.toList ++ spaced) w)
      (afterKeyword? (atKeyword before w spaced)) := by
  have hafter : after? w.toList (w.toList ++ spaced) = some spaced := after?_eq_some_iff.2 rfl
  have hspaced : (atKeyword before w spaced).rest = spaced := rfl
  rw [withKeyword?, hafter, Option.bind_some, afterKeyword?, hspaced]
  cases spaced with
  | nil => exact .none
  | cons c text =>
    rw [afterOne?]
    by_cases hc : isSpacing c = true
    · have hlength := length_dropWhile_le isSpacing text
      -- a blank stands behind the keyword, and the name behind all blanks
      have hshorter : ¬(text.dropWhile isSpacing).length = (c :: text).length := by
        rw [List.length_cons]
        omega
      rw [if_pos hc, Option.bind_some, List.dropWhile_cons_of_pos hc]
      dsimp only
      rw [if_neg hshorter]
      cases hname : leadingAsciiName? (text.dropWhile isSpacing) with
      | none => exact .none
      | some name =>
        rw [Option.bind_some, Option.bind_some]
        have hbegins : name <+: text.dropWhile isSpacing :=
          (leadingAsciiName?_standsAt hname).begins
        cases hrest : afterHead? ((text.dropWhile isSpacing).drop name.length) with
        | none =>
          rw [if_neg]
          · exact .none
          · intro hbrace
            obtain ⟨rest, hrest'⟩ := List.head?_eq_some_iff.1 hbrace
            rw [afterHead?_eq_some_iff.2 hrest'] at hrest
            cases hrest
        | some rest =>
          have hbody := afterHead?_eq_some_iff.1 hrest
          rw [if_pos (by rw [hbody]; rfl)]
          have hnamed : text.dropWhile isSpacing <:+ c :: text :=
            (List.dropWhile_suffix _).trans (List.suffix_cons c text)
          exact .some (fits_overName before w hnamed hbegins.length_le (List.dropWhile_suffix _)
            hbody rfl)
    -- no blank stands behind the keyword
    · rw [if_neg hc, List.dropWhile_cons_of_neg hc]
      dsimp only
      rw [if_pos rfl]
      exact .none

/-- What is found at the front of a text is what the pattern matches there.

**Proof sketch.** If a keyword is at the front, both look at what follows it (`first?_keyword`,
`withKeyword?_rel`). If none is, both find nothing. -/
lemma atFront?_rel (before text : List Char) :
    Option.Rel Fits
      (if before.head?.any isWordChar then none else atFront? before.length text)
      (pattern.first? ⟨before, text⟩) := by
  by_cases h : ∃ w ∈ keywords, after? w.toList text ≠ none
  · obtain ⟨w, hw, hafter⟩ := h
    obtain ⟨spaced, hspaced⟩ := Option.ne_none_iff_exists'.1 hafter
    obtain rfl := after?_eq_some_iff.1 hspaced
    have hfront : atFront? before.length (w.toList ++ spaced)
        = withKeyword? before.length (w.toList ++ spaced) w := by
      refine findSome?_of_keyword hw fun w' hw' hne => ?_
      rw [withKeyword?, after?_eq_none_of_keywords hw hw' hne spaced]
      rfl
    rw [first?_keyword before hw spaced, hfront]
    split
    · exact .none
    · exact withKeyword?_rel before w spaced
  · have hnone : ∀ w ∈ keywords, after? w.toList text = none := fun w hw =>
      Classical.byContradiction fun hafter => h ⟨w, hw, hafter⟩
    have hfront : atFront? before.length text = none := by
      refine List.findSome?_eq_none_iff.2 fun w hw => ?_
      rw [withKeyword?, hnone w hw]
      rfl
    rw [first?_of_no_keyword before hnone, hfront, ite_self]
    exact .none

/-- Definitions are found as the pattern is, from any place on.

**Proof sketch.** Induction on the text. Where nothing is found both searches go on at the next
character, and else behind the opening brace. -/
lemma allFrom_eq_findsFrom (before text : List Char) :
    allFrom before.head? before.length text
      = (pattern.findsFrom ⟨before, text⟩).filterMap ofMatch? := by
  induction hn : text.length using Nat.strongRecOn generalizing before text with
  | _ n ih =>
    subst hn
    have hpasses : pattern.passes = true := rfl
    cases text with
    | nil =>
      rw [allFrom, findsFrom_nil hpasses]
      rfl
    | cons c text =>
      have hrel := atFront?_rel before (c :: text)
      rw [allFrom]
      generalize (if before.head?.any isWordChar then none else atFront? before.length (c :: text))
        = found? at hrel ⊢
      cases hfirst : pattern.first? ⟨before, c :: text⟩ with
      | none =>
        rw [hfirst] at hrel
        cases hrel
        -- nothing is found here, and both searches go on at the next character
        have hsearch : pattern.search before (c :: text) = pattern.search (c :: before) text := by
          rw [search_cons, hfirst, Option.none_or]
        rw [findsFrom_of_search_eq hpasses hsearch]
        exact ih _ (Nat.lt_succ_self _) (c :: before) text rfl
      | some m =>
        rw [hfirst] at hrel
        cases hrel with
        | @some found _ hfits =>
          have hsearch : pattern.search before (c :: text) = some m := by
            rw [search_cons, hfirst, Option.some_or]
          obtain ⟨hbehind, hrest, hlength⟩ := rest_of_first? hpasses hfirst
          rw [hfits.place] at hbehind hrest
          -- Behind the opening brace both searches have the same text before and after them.
          have hdrop : text.drop (found.opening - before.length) = m.rest := by
            rw [hrest, Nat.succ_sub (Nat.le_of_lt_succ hbehind), List.drop_succ_cons]
          have hlater := ih _ hlength m.cursor.before m.rest rfl
          rw [hfits.brace, show m.cursor.before.length = _ from hfits.place] at hlater
          rw [findsFrom_of_search hpasses hsearch, List.filterMap_cons_some hfits.defines]
          show found :: allFrom (some '\x7b') (found.opening + 1)
            (text.drop (found.opening - before.length)) = _
          rw [hdrop, hlater]
          rfl

/-- **Definitions are found as the pattern is.** -/
theorem all_eq_finds (text : List Char) : all text = (pattern.finds text).filterMap ofMatch? :=
  allFrom_eq_findsFrom [] text

end Definition

end Outliner
