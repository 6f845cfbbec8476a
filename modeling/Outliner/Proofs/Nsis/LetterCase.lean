import Outliner.Proofs.Checked.Reading
import Outliner.Proofs.Nsis.Comments
import Outliner.Proofs.Reports.ByLine

set_option autoImplicit false

/-!
# Letter case in an installer script

Keywords are looked for in a copy of a line in small letters, and names are taken from the line
itself. The copy has the same blanks and the same signs at the same places, so that comments,
keywords and what stands behind them are cut off at the same places in both. Therefore the case of
letters in the first word of a line does not matter, while that of all letters behind this word is
kept.

## Main definitions

* `Outliner.Nsis.lower` — the copy of a text in small letters.
* `Outliner.Nsis.Recased` — two lines that differ in the case of letters of their first word.
* `Outliner.Nsis.AllRecased` — two scripts whose lines do.

## Main results

* `Outliner.Nsis.uncomment_lower` — comments stand at the same places in the copy.
* `Outliner.Nsis.AllRecased.readLines_eq` — the case of letters in first words does not matter.
* `Outliner.Nsis.splitAtByte?_lower` — what follows a keyword in the copy is found in the text.
* `Outliner.Language.scan_nsis_letterCase` — keywords are found in any case, and names are taken as
  they stand in the line.
-/

namespace Outliner

namespace Nsis

/-! ## The copy in small letters -/

/-- The text in small letters. -/
def lower (text : List Char) : List Char := text.map Char.toLower

section Copies

variable (text a b : List Char)

/-- The copy in small letters is as long as the text. -/
@[simp]
lemma length_lower : (lower text).length = text.length := List.length_map _

/-- The copy of a text begins with the copy of its first character. -/
@[simp]
lemma lower_cons (c : Char) : lower (c :: text) = c.toLower :: lower text := rfl

/-- Two texts, one after the other, are copied one after the other. -/
@[simp]
lemma lower_append : lower (a ++ b) = lower a ++ lower b := List.map_append

/-- What is left of the copy is the copy of what is left. -/
lemma lower_drop (n : Nat) : lower (text.drop n) = (lower text).drop n := List.map_drop

/-- The copy has the same leading blanks. -/
lemma trimStart_lower : trimStart (lower text) = lower (trimStart text) := by
  rw [trimStart, lower, List.dropWhile_map, isBlank_comp_toLower, ← lower, trimStart]

/-- The copy has blanks where the text has. -/
lemma all_solid_lower : (lower text).all (!isBlank ·) = text.all (!isBlank ·) := by
  rw [lower, List.all_map, solid_comp_toLower]

/-- No letter has one of the signs of comments for a small letter. -/
lemma eq_toLower_iff {sign : Char} (hsign : sign ∈ ['/', '*']) (c : Char) :
    sign = c.toLower ↔ sign = c := by
  refine toLower_cases (P := fun c small => sign = small ↔ sign = c) ?_ (fun _ => Iff.rfl) c
  simp only [List.mem_cons, List.not_mem_nil, or_false] at hsign
  rcases hsign with rfl | rfl
  · decide
  · decide

/-- A pattern made of such signs stands at the front of both. -/
lemma after?_lower {pattern : List Char} (h : pattern ⊆ ['/', '*']) (text : List Char) :
    after? pattern (lower text) = (after? pattern text).map lower := by
  induction pattern generalizing text with
  | nil => rfl
  | cons sign pattern ih =>
    have hrest := ih fun c hc => h (List.mem_cons_of_mem sign hc)
    cases text with
    | nil => rfl
    | cons c text =>
      rw [lower_cons, after?, after?, apply_ite (Option.map lower), ← hrest]
      simp only [eq_toLower_iff (h List.mem_cons_self)]
      rfl

/-- A comment opens in the copy where it does in the text. -/
lemma opened?_lower : opened? (lower text) = (opened? text).map lower := by
  rw [opened?, trimStart_lower, after?_lower (by decide), opened?]

/-- A comment is closed in the copy where it is in the text. -/
lemma closed?_lower : closed? (lower text) = (closed? text).map lower := by
  induction text with
  | nil => rfl
  | cons c text ih =>
    have hsign : startsWith "*/".toList (lower (c :: text))
        = startsWith "*/".toList (c :: text) := by
      rw [startsWith, after?_lower (by decide), Option.isSome_map, startsWith]
    rw [closed?_cons, ← hsign, lower_cons, closed?_cons, apply_ite (Option.map lower),
      Option.map_some, lower_drop, ← ih]

/-- The reader takes the same code in the copy. -/
lemma readOnce_lower : readOnce (lower text) = (readOnce text).map lower := by
  rw [readOnce, readOnce, opened?_lower, closed?_lower, trimStart_lower, Option.isSome_map,
    apply_ite (Option.map lower)]
  simp only [Option.map_map, Function.comp_def, trimStart_lower, Option.map_some]

/-- **Comments stand at the same places in the copy.** -/
theorem uncomment_lower (inComment : Bool) :
    uncomment inComment (lower text) = (uncomment inComment text).map lower := by
  rw [uncomment_eq_bind, uncomment_eq_bind]
  cases inComment with
  | false => exact readOnce_lower text
  | true =>
    show (closed? (lower text)).bind readOnce = ((closed? text).bind readOnce).map lower
    rw [closed?_lower, Option.bind_map, Option.map_bind]
    exact congrArg _ (funext readOnce_lower)

end Copies

/-! ## Lines that differ in the case of letters -/

/-- The second line is the first one with the first word written in letters of another case. This is
the first word of the whole line, or of its code. -/
inductive Recased (inComment : Bool) : List Char → List Char → Prop where
  /-- The first word of the line. -/
  | front {blanks word word' : List Char} (hblanks : blanks.all isBlank = true)
      (hsolid : word.all (!isBlank ·) = true) (hcase : lower word = lower word')
      (rest : List Char) :
    Recased inComment (blanks ++ word ++ rest) (blanks ++ word' ++ rest)
  /-- The first word that is read outside comments. -/
  | code {before word word' rest : List Char}
      (hcode : uncomment inComment (before ++ word ++ rest) = some (word ++ rest))
      (hsolid : word.all (!isBlank ·) = true) (hcase : lower word = lower word') :
    Recased inComment (before ++ word ++ rest) (before ++ word' ++ rest)

/-- The lines of the second script are those of the first one, with their first words written in
letters of another case. `inComment` says whether a comment is open before the lines. -/
inductive AllRecased : Bool → List (List Char) → List (List Char) → Prop where
  /-- No lines. -/
  | nil (inComment : Bool) : AllRecased inComment [] []
  /-- A line and the lines behind it. -/
  | cons {inComment : Bool} {line line' : List Char} {lines lines' : List (List Char)}
      (hline : Recased inComment line line')
      (hlines : AllRecased (uncomment inComment line).isNone lines lines') :
    AllRecased inComment (line :: lines) (line' :: lines')

section Recasing

variable {inComment : Bool} {line line' code rest word word' front front' : List Char}

/-- Words that differ only in the case of letters are equally long. -/
lemma length_eq_of_lower (h : lower word = lower word') : word.length = word'.length := by
  have hlength := congrArg List.length h
  rwa [length_lower, length_lower] at hlength

/-- The code of a line begins with no blank. -/
lemma head?_uncomment (h : uncomment inComment line = some code) :
    code.head?.any isBlank = false := by
  have htrim : ∀ text : List Char, (trimStart text).head?.any isBlank = false :=
    head?_any_dropWhile isBlank
  rw [uncomment_eq_bind] at h
  obtain ⟨text, -, hcode⟩ := Option.bind_eq_some_iff.1 h
  rw [readOnce] at hcode
  split at hcode
  · obtain ⟨behind, -, rfl⟩ := Option.map_eq_some_iff.1 hcode
    exact htrim behind
  · obtain rfl := Option.some.inj hcode
    exact htrim text

/-- Lines that differ only in the case of letters have the same copy. -/
lemma Recased.lower_eq (h : Recased inComment line line') : lower line = lower line' := by
  cases h with
  | front _ _ hcase rest => simp only [lower_append, hcase]
  | code _ _ hcase => simp only [lower_append, hcase]

/-- The code of two lines that differ only in the case of letters begins at the same place.

**Proof sketch.** The code of the copies is the copy of the code, so both codes have the same
length. Each of them is a suffix of its line, and the lines have the same length. -/
lemma uncomment_recased (hcase : lower front = lower front')
    (hcode : uncomment inComment (front ++ rest) = some code) :
    ∃ n, n + code.length = (front ++ rest).length
      ∧ code = front.drop n ++ rest.drop (n - front.length)
      ∧ uncomment inComment (front' ++ rest)
          = some (front'.drop n ++ rest.drop (n - front.length)) := by
  have hlower : lower (front' ++ rest) = lower (front ++ rest) := by
    rw [lower_append, lower_append, hcase]
  have hcodes : (uncomment inComment (front' ++ rest)).map lower = some (lower code) := by
    rw [← uncomment_lower, hlower, uncomment_lower, hcode, Option.map_some]
  obtain ⟨code', hcode', hsame⟩ := Option.map_eq_some_iff.1 hcodes
  have hlength : code'.length = code.length := length_eq_of_lower hsame
  have hfront : front'.length = front.length := (length_eq_of_lower hcase).symm
  have hsuffix : code <:+ front ++ rest := uncomment_suffix hcode
  have hsuffix' : code' <:+ front' ++ rest := uncomment_suffix hcode'
  refine ⟨(front ++ rest).length - code.length, Nat.sub_add_cancel hsuffix.length_le, ?_, ?_⟩
  · rw [← List.drop_append, ← List.suffix_iff_eq_drop.1 hsuffix]
  · rw [hcode', ← hfront, ← List.drop_append, List.suffix_iff_eq_drop.1 hsuffix', hlength,
      List.length_append, List.length_append, hfront]

/-- Only letters of the first word of the code are changed.

**Proof sketch.** If the word stands in front of all but blanks, the code begins within it or behind
it, because the code does not begin with a blank. If it is the first word of the code, the code
begins at the word itself. -/
lemma Recased.exists_code (h : Recased inComment line line')
    (hcode : uncomment inComment line = some code) : ∃ word word' rest,
      code = word ++ rest ∧ uncomment inComment line' = some (word' ++ rest)
        ∧ word.all (!isBlank ·) = true ∧ lower word = lower word' := by
  cases h with
  | @front blanks word word' hblanks hsolid hcase rest =>
    have hfront : lower (blanks ++ word) = lower (blanks ++ word') := by
      rw [lower_append, lower_append, hcase]
    obtain ⟨n, -, rfl, hcode'⟩ := uncomment_recased hfront hcode
    refine ⟨_, _, _, rfl, hcode', ?_, ?_⟩
    · have hhead := head?_uncomment hcode
      rw [List.drop_append] at hhead ⊢
      cases hdrop : blanks.drop n with
      | nil =>
        rw [List.nil_append, List.all_eq_true]
        exact fun c hc => List.all_eq_true.1 hsolid c (List.mem_of_mem_drop hc)
      | cons c others =>
        -- a blank of the line is no code
        have hc : c ∈ blanks.drop n := hdrop ▸ List.mem_cons_self
        have hblank : isBlank c = true := List.all_eq_true.1 hblanks c (List.mem_of_mem_drop hc)
        rw [hdrop] at hhead
        exact absurd hblank (by simpa using hhead)
    · rw [lower_drop, lower_drop, hfront]
  | @code before word word' rest hword hsolid hcase =>
    obtain rfl := Option.some.inj (hword.symm.trans hcode)
    have hfront : lower (before ++ word) = lower (before ++ word') := by
      rw [lower_append, lower_append, hcase]
    obtain ⟨n, hn, -, hcode'⟩ := uncomment_recased hfront hcode
    have hbefore : n = before.length := by
      simp only [List.length_append] at hn
      omega
    rw [hbefore, List.drop_left, List.length_append, Nat.sub_eq_zero_of_le (Nat.le_add_right _ _),
      List.drop_zero] at hcode'
    exact ⟨word, word', rest, rfl, hcode', hsolid, hcase⟩

/-- **What is declared does not depend on the case of letters in the first word.**

**Proof sketch.** A declaration is known by its first word in small letters and by the name behind
it. Neither depends on the case, and the first word holds no blank, so the name is read off the same
text. -/
theorem declaration?_recased (hsolid : word.all (!isBlank ·) = true)
    (hcase : lower word = lower word') (rest : List Char) :
    declaration? (word ++ rest) = declaration? (word' ++ rest) := by
  have hsolid' : word'.all (!isBlank ·) = true := by
    rw [← all_solid_lower, ← hcase, all_solid_lower, hsolid]
  have hin := List.all_eq_true.1 hsolid
  have hin' := List.all_eq_true.1 hsolid'
  have hword : firstWord (word ++ rest) = firstWord (word' ++ rest) := by
    rw [firstWord, firstWord, List.takeWhile_append_of_pos hin, List.takeWhile_append_of_pos hin',
      ← lower, ← lower, lower_append, lower_append, hcase]
  have hname : ∀ kind, nameBehind? kind (word ++ rest) = nameBehind? kind (word' ++ rest) := by
    intro kind
    rw [nameBehind?, nameBehind?, List.dropWhile_append_of_pos hin,
      List.dropWhile_append_of_pos hin']
  rw [declaration?_eq, declaration?_eq, hword]
  simp only [hname]

/-- The two lines are read alike. -/
lemma Recased.readLine_eq (h : Recased inComment line line') (i : Nat) :
    readLine inComment i line = readLine inComment i line' := by
  rw [Nsis.readLine_eq, Nsis.readLine_eq]
  cases hcode : uncomment inComment line with
  | none =>
    have hnone : (uncomment inComment line').map lower = none := by
      rw [← uncomment_lower, ← h.lower_eq, uncomment_lower, hcode, Option.map_none]
    rw [Option.map_eq_none_iff.1 hnone]
  | some code =>
    obtain ⟨word, word', rest, rfl, hcode', hsolid, hcase⟩ := h.exists_code hcode
    rw [hcode', Option.bind_some, Option.bind_some, declaration?_recased hsolid hcase]
    rfl

/-- **The case of letters in the first words does not matter.**

**Proof sketch.** Induction on the lines. Two lines are read alike (`Recased.readLine_eq`), so that
those behind them are read in the same state. -/
theorem AllRecased.readLines_eq {lines lines' : List (List Char)}
    (h : AllRecased inComment lines lines') (first : Nat) :
    readLines readLine first inComment lines = readLines readLine first inComment lines' := by
  induction h generalizing first with
  | nil => rfl
  | @cons inComment line line' lines lines' hline hlines ih =>
    have hnext : (readLine inComment first line').1 = (uncomment inComment line).isNone := by
      rw [← hline.readLine_eq, Nsis.readLine_eq]
    rw [readLines, readLines, hline.readLine_eq, hnext, ih]

end Recasing

/-! ## Names -/

section Names

variable {text rest : List Char}

/-- What follows a keyword in the copy stands at the same bytes in the text, and is taken from
there.

**Proof sketch.** The keyword holds small letters only, so what it was read off is copied to it. The
text and its copy have the same bytes up to each place, so they are split at the same offset. -/
lemma splitAtByte?_lower {keyword : String}
    (h : afterKeyword? keyword.toList (lower text) = some rest) : ∃ front behind,
      splitAtByte? (byteLength text - byteLength rest) text = some (front, behind)
        ∧ splitAtByte? (byteLength text - byteLength rest) (lower text) = some (lower front, rest)
        ∧ lower behind = rest ∧ afterKeywordAnyCase? keyword text = some behind := by
  have hbytes : ∀ text, byteLength (lower text) = byteLength text := Checked.byteLength_map_toLower
  obtain ⟨front, hfront⟩ : rest <:+ lower text := afterKeyword?_suffix h
  have hlength : front.length = text.length - rest.length := by
    have hsum := congrArg List.length hfront
    rw [List.length_append, length_lower] at hsum
    omega
  have htext : text.take front.length ++ text.drop front.length = text := List.take_append_drop _ _
  have hlower : lower (text.take front.length) ++ lower (text.drop front.length) = front ++ rest := by
    rw [← lower_append, htext, hfront]
  have htake : (lower (text.take front.length)).length = front.length := by
    rw [length_lower, List.length_take, hlength]
    omega
  obtain ⟨hcopy, hbehind⟩ := List.append_inj hlower htake
  have hoffset : byteLength (text.take front.length) = byteLength text - byteLength rest := by
    have hsum := congrArg byteLength htext
    rw [byteLength_append, ← hbytes (text.drop _), hbehind] at hsum
    omega
  refine ⟨text.take front.length, text.drop front.length, ?_, ?_, hbehind, ?_⟩
  · exact splitAtByte?_eq_some_iff.2 ⟨htext.symm, hoffset⟩
  · exact splitAtByte?_eq_some_iff.2 ⟨by rw [hcopy, hfront], by rw [hbytes, hoffset]⟩
  · rw [afterKeywordAnyCase?, ← lower, h, Option.map_some, hlength]

/-- What is declared stands on the line, its name behind a keyword in letters of any case. -/
lemma Declares.exists_name {kind : Kind} {name : List Char} (h : Declares text kind name) :
    ∃ word rest, text = word ++ rest ∧ (lower word, kind) ∈ keywords
      ∧ rest.head?.all isBlank = true ∧ (arguments rest).find? (!isOption kind ·) = some name
      ∧ name <:+: rest := by
  have hname : name ∈ arguments (text.dropWhile (!isBlank ·)) := List.mem_of_find?_eq_some h.name
  exact ⟨text.takeWhile (!isBlank ·), text.dropWhile (!isBlank ·),
    List.takeWhile_append_dropWhile.symm, h.keyword, head?_all_dropWhile text, h.name,
    mem_arguments_isInfix hname⟩

end Names

end Nsis

namespace Language

open Nsis

/-- **Letter case.** Two scripts whose lines differ only in the case of letters of their first words
have the same outline. What is reported stands on a line behind a keyword in letters of any case,
and its name is an excerpt of the line as it stands there. And what follows a keyword in the copy in
small letters is always found at the same bytes in the text itself.

**Proof sketch.** For the first part the marks are the same line by line. For the second one, the
code is a suffix of its line and a declaration is read off a word of the code; the third one is
`splitAtByte?_lower`. -/
theorem scan_nsis_letterCase :
    (∀ lines lines' : List String,
      AllRecased false (lines.map String.toList) (lines'.map String.toList) →
        nsis.scan lines = nsis.scan lines')
    ∧ (∀ (lines : List String) (kind : Kind) (e : Element), e ∈ (nsis.scan lines).get kind →
      ∃ i line front word rest name, (lines.map String.toList)[i]? = some line
        ∧ line = front ++ word ++ rest ∧ (lower word, kind) ∈ keywords
        ∧ rest.head?.all isBlank = true ∧ (arguments rest).find? (!isOption kind ·) = some name
        ∧ name <:+: rest ∧ e = Draft.leafOf kind (.ofList name) i)
    ∧ ∀ (keyword : String) (text rest : List Char),
      afterKeyword? keyword.toList (lower text) = some rest → ∃ front behind,
        splitAtByte? (byteLength text - byteLength rest) text = some (front, behind)
        ∧ splitAtByte? (byteLength text - byteLength rest) (lower text) = some (lower front, rest)
        ∧ lower behind = rest ∧ afterKeywordAnyCase? keyword text = some behind := by
  refine ⟨fun lines lines' h => ?_, fun lines kind e he => ?_, fun _ _ _ => splitAtByte?_lower⟩
  · have hmarks : Nsis.marks (lines.map String.toList) = Nsis.marks (lines'.map String.toList) := by
      rw [Nsis.marks, Nsis.marks, h.readLines_eq]
    exact congrArg (Document.ofMarks nsis.legend) hmarks
  · obtain ⟨i, line, code, name, hline, hcode, hdeclares, he⟩ := mem_scan_iff.1 he
    obtain ⟨front, rfl⟩ := uncomment_suffix hcode
    obtain ⟨word, rest, rfl, hkeyword, hends, hname, hexcerpt⟩ := hdeclares.exists_name
    exact ⟨i, _, front, word, rest, name, hline, (List.append_assoc ..).symm, hkeyword, hends,
      hname, hexcerpt, he⟩

/-- A script with letters of several bytes, and keywords in letters of either case behind a comment
and in front of blanks that are no spaces.

**Proof sketch.** The lines are split into what precedes the keyword, the keyword and what follows
it. The first one leaves a comment open, which ends in front of the code of the second one. -/
theorem scan_nsis_letterCase_bytes :
    let lines := ["/* a", "Ö */\u00a0sEcTion\u2003\"Été\" Ä", "FUNCTION Ünï"]
    let lines' := ["/* a", "Ö */\u00a0SectioN\u2003\"Été\" Ä", "fUnction Ünï"]
    let text := "sEcTion\u2003\"Été\" Ä".toList
    (AllRecased false (lines.map String.toList) (lines'.map String.toList)
      ∧ nsis.scan lines = nsis.scan lines')
    ∧ (Draft.leafOf .sections "Été" 1 ∈ (nsis.scan lines).get .sections
      ∧ ∃ i line front word rest name, (lines.map String.toList)[i]? = some line
        ∧ line = front ++ word ++ rest ∧ (lower word, Kind.sections) ∈ keywords
        ∧ rest.head?.all isBlank = true
        ∧ (arguments rest).find? (!isOption .sections ·) = some name
        ∧ name <:+: rest ∧ Draft.leafOf .sections "Été" 1 = Draft.leafOf .sections (.ofList name) i)
    ∧ (afterKeyword? "section".toList (lower text) = some "\"Été\" Ä".toList
      ∧ ∃ front behind,
        splitAtByte? (byteLength text - byteLength "\"Été\" Ä".toList) text = some (front, behind)
        ∧ splitAtByte? (byteLength text - byteLength "\"Été\" Ä".toList) (lower text)
          = some (lower front, "\"Été\" Ä".toList)
        ∧ lower behind = "\"Été\" Ä".toList
        ∧ afterKeywordAnyCase? "section" text = some behind) := by
  intro lines lines' text
  have hlines : lines.map String.toList = [[] ++ [] ++ "/* a".toList,
      "Ö */\u00a0".toList ++ "sEcTion".toList ++ "\u2003\"Été\" Ä".toList,
      [] ++ "FUNCTION".toList ++ " Ünï".toList] := by decide +kernel
  have hlines' : lines'.map String.toList = [[] ++ [] ++ "/* a".toList,
      "Ö */\u00a0".toList ++ "SectioN".toList ++ "\u2003\"Été\" Ä".toList,
      [] ++ "fUnction".toList ++ " Ünï".toList] := by decide +kernel
  have hrecased : AllRecased false (lines.map String.toList) (lines'.map String.toList) := by
    rw [hlines, hlines']
    have hopen : (uncomment false ([] ++ [] ++ "/* a".toList)).isNone = true := by decide +kernel
    refine .cons (.front rfl rfl rfl _) ?_
    rw [hopen]
    refine .cons (.code (by decide +kernel) (by decide +kernel) (by decide +kernel)) ?_
    exact .cons (.front rfl (by decide +kernel) (by decide +kernel) _) (.nil _)
  have hreported : Draft.leafOf .sections "Été" 1 ∈ (nsis.scan lines).get .sections :=
    mem_scan_iff.2 ⟨1, _, text, "Été".toList, rfl, by decide +kernel,
      declaration?_eq_some_iff.1 (by decide +kernel), rfl⟩
  have hbehind : afterKeyword? "section".toList (lower text) = some "\"Été\" Ä".toList := by
    decide +kernel
  exact ⟨⟨hrecased, scan_nsis_letterCase.1 _ _ hrecased⟩,
    ⟨hreported, scan_nsis_letterCase.2.1 _ _ _ hreported⟩,
    ⟨hbehind, scan_nsis_letterCase.2.2 _ _ _ hbehind⟩⟩

end Language

end Outliner
