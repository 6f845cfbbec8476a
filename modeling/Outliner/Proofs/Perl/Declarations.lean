import Mathlib.Data.List.TakeWhile
import Mathlib.Tactic.Lemma
import Outliner.ByLine.Perl
import Outliner.Proofs.Words

set_option autoImplicit false

/-!
# What a line of Perl declares

A line of code declares what its first word announces: a package or a subroutine with the qualified
name behind the word, or the variables listed behind `our`. The list ends in front of an equals sign
or a semicolon. Its words are set apart by blanks, commas and parentheses, and a word that is no
variable is passed over. Any other line declares nothing.

## Main definitions

* `Outliner.Perl.Leads` — a word at the front of a text, and what is left behind it.
* `Outliner.Perl.LeadingName` — the qualified name at the front of a text.
* `Outliner.Perl.Variable`, `Outliner.Perl.Lists` — variables, and the variables of a list.
* `Outliner.Perl.Declares` — what a line of code declares.

## Main results

* `Outliner.Perl.listedVariables_eq_iff` — the variables in front of an equals sign or a semicolon.
* `Outliner.Perl.statement_eq_iff` — a line of code is read as what it declares.
-/

namespace Outliner.Perl

/-! ## What is declared -/

/-- The word stands at the front of the text, with blanks or nothing behind it, and the rest is what
is left behind the blanks. -/
def Leads (word text rest : List Char) : Prop :=
  ∃ blanks, text = word ++ blanks ++ rest ∧ blanks.all isBlank = true
    ∧ rest.head?.any isBlank = false ∧ (blanks ≠ [] ∨ rest = [])

/-- The name at the front of the text: of all characters of qualified names that stand there, those
up to the last one that is no separator. -/
def LeadingName (text name : List Char) : Prop :=
  ∃ joints behind, text = name ++ joints ++ behind
    ∧ (∀ c ∈ name, isIdentifierChar c = true ∨ isJoint c = true)
    ∧ (∀ c ∈ joints, isJoint c = true) ∧ name.getLast?.any isJoint = false
    ∧ behind.head?.any (fun c => isIdentifierChar c || isJoint c) = false

/-- A variable: a sigil, then a letter or an underscore, then more of a qualified name. -/
inductive Variable : List Char → Prop where
  /-- The sigil and the characters of the name. -/
  | mk {sigil first : Char} {rest : List Char} (hsigil : sigil ∈ ['$', '@', '%'])
      (hfirst : isAlphabetic first = true ∨ first = '_')
      (hname : ∀ c ∈ first :: rest, isIdentifierChar c = true ∨ c = ':') :
      Variable (sigil :: first :: rest)

/-- The variables of a list of words, in their order. -/
inductive Lists : List Char → List (List Char) → Prop where
  /-- The end of the list. -/
  | nil : Lists [] []
  /-- What stands between words. -/
  | separator {c : Char} {rest : List Char} {names : List (List Char)}
      (hc : separatesVariables c = true) (hrest : Lists rest names) : Lists (c :: rest) names
  /-- A word that is a variable. -/
  | word {word rest : List Char} {names : List (List Char)} (hword : Variable word)
      (hends : rest.head?.all separatesVariables = true) (hrest : Lists rest names) :
      Lists (word ++ rest) (word :: names)
  /-- A word that is none. -/
  | other {word rest : List Char} {names : List (List Char)}
      (hword : word ≠ [] ∧ ¬ Variable word) (hsolid : word.any separatesVariables = false)
      (hends : rest.head?.all separatesVariables = true) (hrest : Lists rest names) :
      Lists (word ++ rest) names

/-- What a line of code declares, its leading blanks removed. -/
inductive Declares (text : List Char) : Statement → Prop where
  /-- A package is named behind its keyword. -/
  | package {rest name : List Char} (hword : Leads "package".toList text rest)
      (hname : LeadingName rest name) : Declares text (.package name)
  /-- So is a subroutine. -/
  | subroutine {rest name : List Char} (hword : Leads "sub".toList text rest)
      (hname : LeadingName rest name) : Declares text (.subroutine name)
  /-- Variables are listed in front of the first equals sign or semicolon. -/
  | vars {listing behind : List Char} {names : List (List Char)}
      (hword : Leads "our".toList text (listing ++ behind))
      (hlisting : ∀ c ∈ listing, c ≠ '=' ∧ c ≠ ';')
      (hbehind : behind.head?.all (fun c => c == '=' || c == ';') = true)
      (hnames : Lists listing names) : Declares text (.vars names)
  /-- No other word declares anything. -/
  | other (hword : ∀ keyword ∈ ["package", "sub", "our"], ∀ rest,
      ¬ Leads keyword.toList text rest) : Declares text .other

/-! ## Names -/

/-- A keyword is found where it leads the text. -/
lemma afterKeyword?_eq_some_iff_leads {keyword text rest : List Char} (hkeyword : keyword ≠ []) :
    afterKeyword? keyword text = some rest ↔ Leads keyword text rest := by
  rw [afterKeyword?_eq_some_iff, Leads]
  exact and_iff_right hkeyword

/-- A keyword is not found where it does not lead the text. -/
lemma afterKeyword?_eq_none_iff_leads {keyword text : List Char} (hkeyword : keyword ≠ []) :
    afterKeyword? keyword text = none ↔ ∀ rest, ¬ Leads keyword text rest := by
  rw [Option.eq_none_iff_forall_ne_some]
  exact forall_congr' fun rest => not_congr (afterKeyword?_eq_some_iff_leads hkeyword)

/-- The qualified name that is read stands at the front of the text.

**Proof sketch.** The characters of qualified names at the front of the text are cut off as a whole,
and the separators at their end are those that stand in front when they are turned around. -/
lemma leadingName_leadingQualifiedName (text : List Char) :
    LeadingName text (leadingQualifiedName text) := by
  let named : Char → Bool := fun c => isIdentifierChar c || isJoint c
  let front := text.takeWhile named
  let joints := (front.reverse.takeWhile isJoint).reverse
  have hfront : leadingQualifiedName text ++ joints = front := by
    have hcut := List.takeWhile_append_dropWhile (p := isJoint) (l := front.reverse)
    have hreverse := congrArg List.reverse hcut
    rwa [List.reverse_append, List.reverse_reverse] at hreverse
  refine ⟨joints, text.dropWhile named, ?_, fun c hc => ?_, fun c hc => ?_, ?_,
    head?_any_dropWhile named text⟩
  · rw [hfront, List.takeWhile_append_dropWhile]
  · have hmem : c ∈ front := hfront ▸ List.mem_append_left joints hc
    simpa [named] using List.mem_takeWhile_imp hmem
  · exact List.mem_takeWhile_imp (List.mem_reverse.1 hc)
  · rw [leadingQualifiedName, List.getLast?_reverse]
    exact head?_any_dropWhile isJoint front.reverse

/-- The qualified name at the front of the text is read.

**Proof sketch.** The name and the separators behind it are what is cut off at the front. Turned
around, the separators are dropped, and nothing of the name is, since it does not end in one. -/
lemma LeadingName.leadingQualifiedName_eq {text name : List Char} (h : LeadingName text name) :
    leadingQualifiedName text = name := by
  obtain ⟨joints, behind, rfl, hname, hjoints, hlast, hbehind⟩ := h
  have hnamed : (name ++ joints).all (fun c => isIdentifierChar c || isJoint c) = true := by
    refine List.all_eq_true.2 fun c hc => ?_
    rcases List.mem_append.1 hc with hc | hc
    · simpa using hname c hc
    · simp [hjoints c hc]
  have hbehindName : (name ++ joints).reverse.dropWhile isJoint = name.reverse := by
    rw [← List.head?_reverse] at hlast
    rw [List.reverse_append]
    exact dropWhile_word (by simpa using hjoints) hlast
  rw [leadingQualifiedName, takeWhile_word hnamed hbehind, hbehindName, List.reverse_reverse]

/-- **The name at the front of a text is read as such.** -/
lemma leadingQualifiedName_eq_iff {text name : List Char} :
    leadingQualifiedName text = name ↔ LeadingName text name := by
  constructor
  · rintro rfl
    exact leadingName_leadingQualifiedName text
  · exact LeadingName.leadingQualifiedName_eq

/-! ## Lists of variables -/

/-- A word is recognized as a variable if it is one. -/
lemma isVariable_iff {word : List Char} : isVariable word = true ↔ Variable word := by
  constructor
  · intro h
    match word, h with
    | sigil :: first :: rest, h =>
      simp only [isVariable, Bool.and_eq_true, Bool.or_eq_true, beq_iff_eq, List.all_eq_true] at h
      exact .mk (by simpa [or_assoc] using h.1.1) h.1.2 h.2
  · rintro ⟨hsigil, hfirst, hname⟩
    simp only [isVariable, Bool.and_eq_true, Bool.or_eq_true, beq_iff_eq, List.all_eq_true]
    exact ⟨⟨by simpa [or_assoc] using hsigil, hfirst⟩, hname⟩

/-- No character of a name separates variables. -/
lemma separatesVariables_of_isIdentifierChar {c : Char} (h : isIdentifierChar c = true) :
    separatesVariables c = false := by
  have hcomma : c ≠ ',' := by rintro rfl; exact absurd h (by decide)
  have hopen : c ≠ '(' := by rintro rfl; exact absurd h (by decide)
  have hclose : c ≠ ')' := by rintro rfl; exact absurd h (by decide)
  simp [separatesVariables, isBlank_of_isIdentifierChar h, hcomma, hopen, hclose]

/-- A variable is one word. -/
lemma Variable.any_separatesVariables {word : List Char} (h : Variable word) :
    word.any separatesVariables = false := by
  obtain ⟨hsigil, -, hname⟩ := h
  rw [List.any_eq_false]
  intro c hc
  rw [Bool.not_eq_true]
  rcases List.mem_cons.1 hc with rfl | hc
  · simp only [List.mem_cons, List.not_mem_nil, or_false] at hsigil
    rcases hsigil with rfl | rfl | rfl <;> decide
  · rcases hname c hc with hc | rfl
    · exact separatesVariables_of_isIdentifierChar hc
    · decide

/-- A word at the front of a list is the first of its pieces, and between words there is nothing of
interest. -/
lemma filter_pieces_append {word rest : List Char}
    (hsolid : word.any separatesVariables = false)
    (hends : rest.head?.all separatesVariables = true) :
    (pieces separatesVariables (word ++ rest)).filter isVariable
      = [word].filter isVariable ++ (pieces separatesVariables rest).filter isVariable := by
  have hword : pieces separatesVariables word = [word] :=
    pieces_of_none (by simpa using hsolid)
  cases rest with
  | nil =>
    have hnone : (pieces separatesVariables []).filter isVariable = [] := rfl
    rw [List.append_nil, hword, hnone, List.append_nil]
  | cons c rest =>
    have hc : separatesVariables c = true := hends
    rw [pieces_append_cons word hc, hword, List.filter_append, pieces, if_pos hc]
    rfl

/-- The variables of a list are those of its pieces.

**Proof sketch.** Induction on the words of the list. -/
lemma Lists.filter_pieces {text : List Char} {names : List (List Char)} (h : Lists text names) :
    (pieces separatesVariables text).filter isVariable = names := by
  induction h with
  | nil => rfl
  | separator hc _ ih =>
    rw [pieces, if_pos hc]
    exact ih
  | word hword hends _ ih =>
    rw [filter_pieces_append hword.any_separatesVariables hends, ih,
      List.filter_cons_of_pos (isVariable_iff.2 hword)]
    rfl
  | other hword hsolid hends _ ih =>
    rw [filter_pieces_append hsolid hends, ih,
      List.filter_cons_of_neg (mt isVariable_iff.1 hword.2)]
    rfl

/-- A character that separates no variables is the first of a word, which ends at the next one that
does. -/
lemma exists_word {c : Char} (hc : separatesVariables c = false) (text : List Char) :
    ∃ word rest, c :: text = word ++ rest ∧ word ≠ [] ∧ word.any separatesVariables = false
      ∧ rest.head?.all separatesVariables = true ∧ rest.length ≤ text.length := by
  let solid : Char → Bool := fun d => !separatesVariables d
  refine ⟨c :: text.takeWhile solid, text.dropWhile solid, ?_, List.cons_ne_nil _ _, ?_, ?_,
    (List.dropWhile_suffix solid).length_le⟩
  · rw [List.cons_append, List.takeWhile_append_dropWhile]
  · have htail : ∀ d ∈ text.takeWhile solid, separatesVariables d = false := fun d hd => by
      simpa [solid] using List.mem_takeWhile_imp hd
    simpa [hc] using htail
  · have hstop := head?_any_dropWhile solid text
    cases hrest : text.dropWhile solid with
    | nil => rfl
    | cons d behind => simpa [hrest, solid] using hstop

/-- Every text is a list of words.

**Proof sketch.** Strong induction on the length of the text, since a whole word is taken off at
once. What stands up to the first separator is a word, unless the separator stands at the front. -/
lemma exists_lists (text : List Char) : ∃ names, Lists text names := by
  induction hlength : text.length using Nat.strongRecOn generalizing text with
  | _ n ih =>
    cases text with
    | nil => exact ⟨[], .nil⟩
    | cons c text =>
      have hshorter : text.length < n := hlength ▸ Nat.lt_succ_self text.length
      cases hc : separatesVariables c with
      | true =>
        obtain ⟨names, hnames⟩ := ih _ hshorter text rfl
        exact ⟨names, .separator hc hnames⟩
      | false =>
        obtain ⟨word, rest, htext, hne, hsolid, hends, hle⟩ := exists_word hc text
        obtain ⟨names, hnames⟩ := ih _ (Nat.lt_of_le_of_lt hle hshorter) rest rfl
        rw [htext]
        by_cases hword : Variable word
        · exact ⟨_, .word hword hends hnames⟩
        · exact ⟨_, .other ⟨hne, hword⟩ hsolid hends hnames⟩

/-- The variables of a list are those of its pieces, and no others. -/
lemma filter_pieces_eq_iff {text : List Char} {names : List (List Char)} :
    (pieces separatesVariables text).filter isVariable = names ↔ Lists text names := by
  constructor
  · rintro rfl
    obtain ⟨names, hnames⟩ := exists_lists text
    rwa [hnames.filter_pieces]
  · exact Lists.filter_pieces

/-- **The variables listed in front of the first equals sign or semicolon.**

**Proof sketch.** The part up to the first equals sign or semicolon is the listing, and its
variables are those of its pieces (`filter_pieces_eq_iff`). -/
theorem listedVariables_eq_iff {text : List Char} {names : List (List Char)} :
    listedVariables text = names ↔ ∃ listing behind, text = listing ++ behind
      ∧ (∀ c ∈ listing, c ≠ '=' ∧ c ≠ ';')
      ∧ behind.head?.all (fun c => c == '=' || c == ';') = true ∧ Lists listing names := by
  let listed : Char → Bool := fun c => c != '=' && c != ';'
  rw [listedVariables, filter_pieces_eq_iff]
  constructor
  · intro h
    refine ⟨_, text.dropWhile listed, List.takeWhile_append_dropWhile.symm, fun c hc => ?_, ?_, h⟩
    · simpa [listed] using List.mem_takeWhile_imp hc
    · have hstop := head?_any_dropWhile listed text
      cases hrest : text.dropWhile listed with
      | nil => rfl
      | cons c behind => simpa [hrest, listed, or_iff_not_imp_left] using hstop
  · rintro ⟨listing, behind, rfl, hlisting, hbehind, h⟩
    have hall : listing.all listed = true := by simpa [listed] using hlisting
    have hstop : behind.head?.any listed = false := by
      cases behind with
      | nil => rfl
      | cons c behind => simpa [listed, or_iff_not_imp_left] using hbehind
    rwa [takeWhile_word hall hstop]

/-! ## Lines -/

/-- What is read from a line of code is declared there.

**Proof sketch.** The keyword that is found leads the line, and if none is found then none does. -/
lemma declares_statement (text : List Char) : Declares text (statement text) := by
  rw [statement]
  split
  · next rest hfound =>
    exact .package ((afterKeyword?_eq_some_iff_leads (by decide)).1 hfound)
      (leadingQualifiedName_eq_iff.1 rfl)
  · next hnotPackage =>
    split
    · next rest hfound =>
      exact .subroutine ((afterKeyword?_eq_some_iff_leads (by decide)).1 hfound)
        (leadingQualifiedName_eq_iff.1 rfl)
    · next hnotSub =>
      split
      · next rest hfound =>
        obtain ⟨listing, behind, rfl, hlisting, hbehind, hnames⟩ :=
          listedVariables_eq_iff.1 (Eq.refl (listedVariables rest))
        exact .vars ((afterKeyword?_eq_some_iff_leads (by decide)).1 hfound) hlisting hbehind hnames
      · next hnotOur =>
        refine .other ?_
        simp only [List.forall_mem_cons, List.not_mem_nil, false_imp_iff, implies_true, and_true]
        exact ⟨(afterKeyword?_eq_none_iff_leads (by decide)).1 hnotPackage,
          (afterKeyword?_eq_none_iff_leads (by decide)).1 hnotSub,
          (afterKeyword?_eq_none_iff_leads (by decide)).1 hnotOur⟩

/-- What a line of code declares is read from it.

**Proof sketch.** The keyword that leads the line is found. At most one keyword leads it, so none
of those looked for earlier is. -/
lemma Declares.statement_eq {text : List Char} {s : Statement} (h : Declares text s) :
    statement text = s := by
  cases h with
  | package hword hname =>
    have hfound := (afterKeyword?_eq_some_iff_leads (by decide)).2 hword
    rw [statement, hfound, ← leadingQualifiedName_eq_iff.2 hname]
  | subroutine hword hname =>
    have hfound := (afterKeyword?_eq_some_iff_leads (by decide)).2 hword
    have hnotPackage : afterKeyword? "package".toList text = none :=
      afterKeyword?_eq_none_of_eq_some (by decide) (by decide) (by decide) hfound
    rw [statement, hnotPackage, hfound, ← leadingQualifiedName_eq_iff.2 hname]
  | vars hword hlisting hbehind hnames =>
    have hfound := (afterKeyword?_eq_some_iff_leads (by decide)).2 hword
    have hnotPackage : afterKeyword? "package".toList text = none :=
      afterKeyword?_eq_none_of_eq_some (by decide) (by decide) (by decide) hfound
    have hnotSub : afterKeyword? "sub".toList text = none :=
      afterKeyword?_eq_none_of_eq_some (by decide) (by decide) (by decide) hfound
    rw [statement, hnotPackage, hnotSub, hfound,
      ← listedVariables_eq_iff.2 ⟨_, _, rfl, hlisting, hbehind, hnames⟩]
  | other hword =>
    have hne : ∀ keyword ∈ ["package", "sub", "our"], keyword.toList ≠ [] := by decide
    have hnone : ∀ keyword ∈ ["package", "sub", "our"],
        afterKeyword? keyword.toList text = none := fun keyword hkeyword =>
      (afterKeyword?_eq_none_iff_leads (hne keyword hkeyword)).2 (hword keyword hkeyword)
    simp only [List.forall_mem_cons] at hnone
    rw [statement, hnone.1, hnone.2.1, hnone.2.2.1]

/-- **A line of code is read as what it declares.** -/
theorem statement_eq_iff {text : List Char} {s : Statement} :
    statement text = s ↔ Declares text s := by
  constructor
  · rintro rfl
    exact declares_statement text
  · exact Declares.statement_eq

end Outliner.Perl
