import Outliner.Scan
import Outliner.Proofs.Forest
import Outliner.Proofs.Nsis.Arguments
import Outliner.Proofs.Reading
import Outliner.Proofs.Words

set_option autoImplicit false

/-!
# Declarations of an installer script

A line declares at most one construct. Its first word outside comments is a keyword, whatever the
case of its letters, and the name is the first argument behind it that is no option. What a script
declares is what its lines declare, each of them read in the state in which the lines before it
leave a comment open or not.

## Main definitions

* `Outliner.Nsis.Declares` — what a text declares.
* `Outliner.Nsis.commentedBefore` — whether the lines before a line are read as leaving a comment
  open.

## Main results

* `Outliner.Nsis.declaration?_eq_some_iff` — a text is read as what it declares.
* `Outliner.Nsis.mem_scan_iff` — a construct is reported where a line declares it.
-/

namespace Outliner

/-! ## Small letters -/

/-- Only letters of ASCII have small letters. -/
lemma toLower_of_not_ascii {c : Char} (h : ¬ c.toNat < 0x80) : c.toLower = c := by
  have hlast : ¬ c.val ≤ 'Z'.val := by
    intro hle
    have hcapital : c.val.toNat ≤ 90 := UInt32.le_iff_toNat_le.1 hle
    exact h (Nat.lt_of_le_of_lt hcapital (by decide))
  unfold Char.toLower
  rw [dif_neg fun hcapital => hlast hcapital.2]

/-- What holds of all letters of ASCII and their small letters, and of all characters that are their
own small letters, holds of all characters and their small letters. -/
lemma toLower_cases {P : Char → Char → Prop}
    (hascii : ∀ n < 0x80, P (Char.ofNat n) (Char.ofNat n).toLower) (hsame : ∀ c, P c c) (c : Char) :
    P c c.toLower := by
  by_cases hc : c.toNat < 0x80
  · have h := hascii c.toNat hc
    rwa [Char.ofNat_toNat] at h
  · rw [toLower_of_not_ascii hc]
    exact hsame c

/-- A small letter is a blank if the capital is, that is, never. -/
lemma isBlank_toLower (c : Char) : isBlank c.toLower = isBlank c :=
  toLower_cases (P := fun c small => isBlank small = isBlank c) (by decide) (fun _ => rfl) c

/-- The blanks of a text stand where they stand in its copy in small letters. -/
lemma isBlank_comp_toLower : isBlank ∘ Char.toLower = isBlank := funext isBlank_toLower

/-- Whether a character is solid does not depend on the case of letters. -/
lemma solid_comp_toLower : (!isBlank ·) ∘ Char.toLower = (!isBlank ·) :=
  funext fun c => congrArg not (isBlank_toLower c)

namespace Nsis

/-! ## What a text declares -/

/-- The keywords, in small letters, and the kinds of what they declare. -/
def keywords : List (List Char × Kind) :=
  [("function".toList, .functions), ("section".toList, .sections),
    ("sectiongroup".toList, .sections), ("!macro".toList, .macros)]

/-- Whether an argument in front of the name is an option and no name itself. Only sections have
options. -/
def isOption (kind : Kind) (argument : List Char) : Bool :=
  kind == .sections && startsWith ['/'] argument

/-- The first word of a text, in small letters. -/
def firstWord (text : List Char) : List Char := (text.takeWhile (!isBlank ·)).map Char.toLower

/-- The first argument behind the first word of a text that is no option. -/
def nameBehind? (kind : Kind) (text : List Char) : Option (List Char) :=
  (arguments (text.dropWhile (!isBlank ·))).find? (!isOption kind ·)

/-- The text declares a construct of this kind and name: its first word is a keyword of the kind,
and behind the word the name is given. -/
structure Declares (text : List Char) (kind : Kind) (name : List Char) : Prop where
  /-- The first word is a keyword. -/
  keyword : (firstWord text, kind) ∈ keywords
  /-- The name is given behind it. -/
  name : nameBehind? kind text = some name

section Reading

variable {keyword text : List Char}

/-- Behind the first word stands a blank or nothing. -/
lemma head?_all_dropWhile (text : List Char) :
    (text.dropWhile (!isBlank ·)).head?.all isBlank = true := by
  have hstop := head?_any_dropWhile (!isBlank ·) text
  cases hrest : text.dropWhile (!isBlank ·) with
  | nil => rfl
  | cons c rest => simpa [hrest] using hstop

/-- A word is found at the front of a text if it is the first one. -/
lemma afterKeyword?_eq_ite (hne : keyword ≠ []) (hsolid : keyword.any isBlank = false) :
    afterKeyword? keyword text
      = if text.takeWhile (!isBlank ·) = keyword then
          some (trimStart (text.dropWhile (!isBlank ·)))
        else none := by
  split
  · next hword =>
    have htext : text = keyword ++ text.dropWhile (!isBlank ·) := by
      rw [← hword, List.takeWhile_append_dropWhile]
    have hafter := afterKeyword?_self hne (head?_all_dropWhile text)
    rwa [← htext] at hafter
  · next hword => exact afterKeyword?_eq_none hsolid hword

/-- A keyword is found if it is the first word in small letters. What stands behind it is left as it
is.

**Proof sketch.** Blanks have no other case, so the first word of the text in small letters is its
first word in small letters. What is behind it is as long in both, so it is cut off at the same
place. -/
lemma afterKeywordAnyCase?_eq_ite {keyword : String} (hne : keyword.toList ≠ [])
    (hsolid : keyword.toList.any isBlank = false) :
    afterKeywordAnyCase? keyword text
      = if firstWord text = keyword.toList then
          some (trimStart (text.dropWhile (!isBlank ·)))
        else none := by
  have hrest : trimStart ((text.map Char.toLower).dropWhile (!isBlank ·))
      = (trimStart (text.dropWhile (!isBlank ·))).map Char.toLower := by
    rw [trimStart, trimStart, List.dropWhile_map, List.dropWhile_map, solid_comp_toLower,
      isBlank_comp_toLower]
  have hsuffix : trimStart (text.dropWhile (!isBlank ·)) <:+ text :=
    (trimStart_suffix _).trans (List.dropWhile_suffix _)
  rw [afterKeywordAnyCase?, afterKeyword?_eq_ite hne hsolid, hrest, List.takeWhile_map,
    solid_comp_toLower, ← firstWord]
  split
  · rw [Option.map_some, List.length_map, ← List.suffix_iff_eq_drop.1 hsuffix]
  · rfl

/-- Blanks in front of arguments are passed over. -/
lemma arguments_trimStart (text : List Char) : arguments (trimStart text) = arguments text := by
  have hblanks : (text.takeWhile isBlank).all isBlank = true := List.all_takeWhile
  have hpassed := arguments_blanks hblanks (trimStart text)
  rw [trimStart, List.takeWhile_append_dropWhile] at hpassed
  rw [trimStart, hpassed]

/-- What has no options has the first argument for a name. -/
lemma head?_eq_find? {kind : Kind} (h : kind ≠ .sections) (list : List (List Char)) :
    list.head? = list.find? (!isOption kind ·) := by
  cases list with
  | nil => rfl
  | cons argument list => simp [isOption, h]

/-- What is declared is told by the first word.

**Proof sketch.** Each of the keywords is found where it is the first word, and at most one of them
is. -/
lemma declaration?_eq (text : List Char) :
    declaration? text =
      if firstWord text = "function".toList then
        (nameBehind? .functions text).map (.functions, ·)
      else if firstWord text = "section".toList ∨ firstWord text = "sectiongroup".toList then
        (nameBehind? .sections text).map (.sections, ·)
      else if firstWord text = "!macro".toList then (nameBehind? .macros text).map (.macros, ·)
      else none := by
  have hfunctions := head?_eq_find? (by decide : Kind.functions ≠ .sections)
  have hmacros := head?_eq_find? (by decide : Kind.macros ≠ .sections)
  rw [declaration?, afterKeywordAnyCase?_eq_ite (by decide) (by decide),
    afterKeywordAnyCase?_eq_ite (by decide) (by decide),
    afterKeywordAnyCase?_eq_ite (by decide) (by decide),
    afterKeywordAnyCase?_eq_ite (by decide) (by decide)]
  by_cases hfunction : firstWord text = "function".toList
  · simp only [if_pos hfunction, arguments_trimStart, hfunctions]
    rfl
  rw [if_neg hfunction, if_neg hfunction]
  by_cases hsection : firstWord text = "section".toList
  · simp only [if_pos hsection, if_pos (Or.inl hsection), Option.some_or, arguments_trimStart]
    rfl
  by_cases hgroup : firstWord text = "sectiongroup".toList
  · simp only [if_neg hsection, if_pos hgroup, if_pos (Or.inr hgroup), Option.none_or,
      arguments_trimStart]
    rfl
  have hneither := not_or.2 ⟨hsection, hgroup⟩
  by_cases hmacro : firstWord text = "!macro".toList
  · simp only [if_neg hsection, if_neg hgroup, if_neg hneither, if_pos hmacro, Option.none_or,
      arguments_trimStart, hmacros]
    rfl
  · simp only [if_neg hsection, if_neg hgroup, if_neg hneither, if_neg hmacro, Option.none_or]

/-- **A text is read as what it declares.**

**Proof sketch.** Told by the first word, each kind is declared by its keywords and by no others. -/
theorem declaration?_eq_some_iff {kind : Kind} {name : List Char} :
    declaration? text = some (kind, name) ↔ Declares text kind name := by
  have hdeclares : Declares text kind name
      ↔ (firstWord text, kind) ∈ keywords ∧ nameBehind? kind text = some name :=
    ⟨fun h => ⟨h.keyword, h.name⟩, fun h => ⟨h.1, h.2⟩⟩
  have hnamed : ∀ kind', (nameBehind? kind' text).map (kind', ·) = some (kind, name)
      ↔ kind = kind' ∧ nameBehind? kind text = some name := by
    intro kind'
    constructor
    · intro h
      obtain ⟨name', hname, heq⟩ := Option.map_eq_some_iff.1 h
      obtain ⟨rfl, rfl⟩ := Prod.mk.inj heq
      exact ⟨rfl, hname⟩
    · rintro ⟨rfl, hname⟩
      rw [hname, Option.map_some]
  rw [declaration?_eq, hdeclares]
  -- the first word can be but one of the keywords, so their order does not matter
  split
  · next hword => simp [hnamed, hword, keywords]
  · next hfunction =>
    split
    · next hword =>
      rcases hword with hword | hword
      · simp [hnamed, hword, keywords]
      · simp [hnamed, hword, keywords]
    · next hsection =>
      obtain ⟨hsection, hgroup⟩ := not_or.1 hsection
      split
      · next hword => simp [hnamed, hword, keywords]
      · next hmacro =>
        have hnone : (firstWord text, kind) ∉ keywords := by
          simp only [keywords, List.mem_cons, Prod.mk.injEq, List.not_mem_nil, or_false]
          tauto
        simp [hnone]

/-- No keyword begins like a comment. -/
lemma exists_cons_of_keyword {word : List Char} {kind : Kind} (h : (word, kind) ∈ keywords) :
    ∃ c rest, word = c :: rest ∧ c ∉ [';', '#', '/'] := by
  simp only [keywords, List.mem_cons, Prod.mk.injEq, List.not_mem_nil, or_false] at h
  rcases h with ⟨rfl, -⟩ | ⟨rfl, -⟩ | ⟨rfl, -⟩ | ⟨rfl, -⟩
  · exact ⟨'f', _, rfl, by decide⟩
  · exact ⟨'s', _, rfl, by decide⟩
  · exact ⟨'s', _, rfl, by decide⟩
  · exact ⟨'!', _, rfl, by decide⟩

/-- What begins like a comment declares nothing. -/
lemma not_declares_cons {c : Char} (hc : c ∈ [';', '#', '/']) (text : List Char) (kind : Kind)
    (name : List Char) : ¬ Declares (c :: text) kind name := by
  intro h
  have hsigns : [';', '#', '/'].all (fun c => !isBlank c && c.toLower == c) = true := by decide
  obtain ⟨hsolid, hsmall⟩ : (!isBlank c) = true ∧ c.toLower = c := by
    simpa using List.all_eq_true.1 hsigns c hc
  obtain ⟨first, rest, hword, hfirst⟩ := exists_cons_of_keyword h.keyword
  rw [firstWord, List.takeWhile_cons, if_pos hsolid, List.map_cons, hsmall] at hword
  obtain ⟨rfl, -⟩ := List.cons.inj hword
  exact hfirst hc

/-- A line comment declares nothing.

**Proof sketch.** A comment begins with one of two signs, which stand at the front of no keyword. -/
lemma declaration?_comment
    (h : (text.isEmpty || Language.nsis.comments.isLineComment text) = true) :
    declaration? text = none := by
  rw [Option.eq_none_iff_forall_ne_some]
  rintro ⟨kind, name⟩ hdeclares
  have hdeclares := declaration?_eq_some_iff.1 hdeclares
  cases text with
  | nil =>
    obtain ⟨c, rest, hword, -⟩ := exists_cons_of_keyword hdeclares.keyword
    exact absurd hword (by simp [firstWord])
  | cons c text =>
    have hsign : (startsWith [';'] (c :: text) || (startsWith ['#'] (c :: text) || false))
        = true := h
    rw [Bool.or_false, Bool.or_eq_true, startsWith_iff, startsWith_iff] at hsign
    rcases hsign with ⟨rest, hrest⟩ | ⟨rest, hrest⟩
    · obtain ⟨rfl, -⟩ := List.cons.inj hrest
      exact not_declares_cons (by decide) text kind name hdeclares
    · obtain ⟨rfl, -⟩ := List.cons.inj hrest
      exact not_declares_cons (by decide) text kind name hdeclares

end Reading

/-! ## What a script declares -/

/-- A line is read as leaving a comment open, or for what the code outside comments declares. -/
lemma readLine_eq (inComment : Bool) (i : Nat) (text : List Char) :
    readLine inComment i text = ((uncomment inComment text).isNone,
      (((uncomment inComment text).bind declaration?).map fun declared =>
        Mark.leaf declared.1 (.ofList declared.2) i).toList) := by
  rw [readLine]
  cases uncomment inComment text with
  | none => rfl
  | some code =>
    dsimp only
    split
    · next hcomment =>
      rw [Option.bind_some, declaration?_comment hcomment]
      rfl
    · rfl

/-- Whether the lines before a line are read as leaving a comment open. -/
def commentedBefore (texts : List (List Char)) (i : Nat) : Bool :=
  (readLines readLine 0 false (texts.take i)).1

section Scripts

variable {texts : List (List Char)}

/-- Whether one more line leaves a comment open depends on the line and on what was open before. -/
lemma commentedBefore_succ {i : Nat} {text : List Char} (htext : texts[i]? = some text) :
    commentedBefore texts (i + 1) = (uncomment (commentedBefore texts i) text).isNone := by
  rw [commentedBefore, readLines_take_succ readLine false htext, ← commentedBefore, readLine_eq]

/-- What is marked is what a line declares. -/
lemma mem_marks_iff {m : Mark} : m ∈ marks texts ↔ ∃ i text code kind name,
    texts[i]? = some text ∧ uncomment (commentedBefore texts i) text = some code
      ∧ Declares code kind name ∧ m = .leaf kind (.ofList name) i := by
  rw [marks, mem_readLines_iff]
  refine exists₂_congr fun i text => ?_
  rw [← commentedBefore, readLine_eq]
  constructor
  · rintro ⟨htext, hm⟩
    obtain ⟨⟨kind, name⟩, hdeclared, rfl⟩ := Option.map_eq_some_iff.1 (Option.mem_toList.1 hm)
    obtain ⟨code, hcode, hdeclared⟩ := Option.bind_eq_some_iff.1 hdeclared
    exact ⟨code, kind, name, htext, hcode, declaration?_eq_some_iff.1 hdeclared, rfl⟩
  · rintro ⟨code, kind, name, htext, hcode, hdeclares, rfl⟩
    refine ⟨htext, ?_⟩
    rw [hcode, Option.bind_some, declaration?_eq_some_iff.2 hdeclares]
    exact List.mem_singleton.2 rfl

end Scripts

/-- **A construct is reported where a line declares it.** It is reported under its kind, and nothing
else is reported.

**Proof sketch.** All marks are leaves, so an element is in the document if one of them marks it,
and the marks are those of the declarations (`mem_marks_iff`). -/
theorem mem_scan_iff {lines : List String} {kind : Kind} {e : Element} :
    e ∈ (Language.nsis.scan lines).get kind ↔ ∃ i text code name,
      (lines.map String.toList)[i]? = some text
        ∧ uncomment (commentedBefore (lines.map String.toList) i) text = some code
        ∧ Declares code kind name ∧ e = Draft.leafOf kind (.ofList name) i := by
  have hleaves : ∀ m ∈ marks (lines.map String.toList),
      ∃ kind name i, m = .leaf kind name i := by
    intro m hm
    obtain ⟨i, text, code, kind, name, -, -, -, rfl⟩ := mem_marks_iff.1 hm
    exact ⟨kind, _, i, rfl⟩
  have hscan : Language.nsis.scan lines
      = .ofMarks Language.nsis.legend (marks (lines.map String.toList)) := rfl
  rw [hscan, Document.mem_get_ofMarks_leaves hleaves]
  constructor
  · rintro ⟨name, i, hm, rfl⟩
    obtain ⟨i, text, code, kind, name, htext, hcode, hdeclares, heq⟩ := mem_marks_iff.1 hm
    cases heq
    exact ⟨i, text, code, name, htext, hcode, hdeclares, rfl⟩
  · rintro ⟨i, text, code, name, htext, hcode, hdeclares, rfl⟩
    exact ⟨_, i, mem_marks_iff.2 ⟨i, text, code, kind, name, htext, hcode, hdeclares, rfl⟩, rfl⟩

end Nsis

end Outliner
