import Mathlib.Data.List.Basic
import Mathlib.Tactic.Lemma
import Outliner.Scan
import Outliner.Proofs.Checked.ByLine
import Outliner.Proofs.Passage
import Outliner.Proofs.Reading
import Outliner.Proofs.Scan
import Outliner.Proofs.Words

set_option autoImplicit false

/-!
# Arguments in braces

The title of a part of a document and the name of an environment are arguments in braces. Within
braces groups may stand within each other, and a backslash takes the brace behind it along, so an
argument ends at the brace that closes what the groups in it leave open. What is reported is the
text up to that brace, with one space between its words. An argument that is not closed on its line
runs to the end of the line; if a brace stands there, which closes a group in the argument or is
escaped, it is lost.

## Main definitions

* `Outliner.Latex.WellNested` — text in which groups stand within each other.
* `Outliner.Latex.Argument` — what an argument says, told from the text behind its brace.
* `Outliner.Latex.Introduces` — what stands between the backslash of a command and the brace of its
  argument.
* `Outliner.Latex.Whole` — a name that is all that an argument says.

## Main results

* `Outliner.Latex.groupLength_append`, `Outliner.Latex.groupLength_of_unclosed` — a group ends at
  the bracket that closes it, or with the line.
* `Outliner.Latex.argument?_mk` — an argument is read as it is told.
* `Outliner.Latex.Argument.whole_iff` — when all that an argument says is kept.
* `Outliner.Latex.step_found`, `Outliner.Latex.passes_argument` — what is reported is the argument
  of a command, and the argument of a command is reported.
* `Outliner.Language.scan_latex_arguments` — the names of parts and environments.
-/

namespace Outliner

namespace Latex

open Cursor (Passes)

/-! ## Groups -/

/-- The two signs may open and close groups. -/
structure Brackets (opening closing : Char) : Prop where
  /-- They can be told apart. -/
  apart : closing ≠ opening
  /-- The first one does not escape. -/
  opening : opening ≠ '\\'
  /-- Neither does the second. -/
  closing : closing ≠ '\\'

/-- Braces are brackets, and so are square brackets. -/
lemma brackets_braces : Brackets '\x7b' '\x7d' := ⟨by decide, by decide, by decide⟩

/-- Square brackets open and close groups. -/
lemma brackets_square : Brackets '[' ']' := ⟨by decide, by decide, by decide⟩

/-- In the text groups stand side by side and within each other: every bracket that is not escaped
opens a group that is closed, or closes one that was opened. -/
inductive WellNested (opening closing : Char) : List Char → Prop where
  /-- Nothing is opened. -/
  | nil : WellNested opening closing []
  /-- A character that is neither a bracket nor a backslash. -/
  | plain {c : Char} {text : List Char} (hescape : c ≠ '\\') (hopening : c ≠ opening)
      (hclosing : c ≠ closing) (rest : WellNested opening closing text) :
      WellNested opening closing (c :: text)
  /-- A backslash and the character that it takes along. -/
  | escaped (c : Char) {text : List Char} (rest : WellNested opening closing text) :
      WellNested opening closing ('\\' :: c :: text)
  /-- A group. -/
  | group {inside text : List Char} (within : WellNested opening closing inside)
      (rest : WellNested opening closing text) :
      WellNested opening closing (opening :: (inside ++ closing :: text))

/-- No bracket of the text closes the group that was opened in front of it. -/
def Unclosed (opening closing : Char) (text : List Char) : Prop :=
  ∀ content behind, text = content ++ closing :: behind → ¬ WellNested opening closing content

/-- The text closes the given number of groups that were opened in front of it, and what stands
between is well nested. -/
inductive Unwinds (opening closing : Char) : Nat → List Char → Prop where
  /-- No group is left to be closed. -/
  | last {text : List Char} (h : WellNested opening closing text) : Unwinds opening closing 0 text
  /-- The innermost group is closed first. -/
  | more {n : Nat} {text rest : List Char} (h : WellNested opening closing text)
      (further : Unwinds opening closing n rest) :
      Unwinds opening closing (n + 1) (text ++ closing :: rest)

section Groups

variable {opening closing : Char} {content behind text : List Char} {n : Nat}

/-- **Well-nested text is passed over within a group.**

**Proof sketch.** Induction on how the text is nested. A group within the text opens one more group,
its content is passed over, and the bracket that closes it leaves as many open as before. -/
theorem groupLength_append (hb : Brackets opening closing) (h : WellNested opening closing content)
    (inner : Nat) (rest : List Char) :
    groupLength opening closing inner (content ++ rest)
      = content.length + groupLength opening closing inner rest := by
  induction h generalizing inner rest with
  | nil => simp
  | plain hescape hopening hclosing _ ih =>
    rw [List.cons_append, groupLength_cons hescape, if_neg hopening, if_neg hclosing, ih,
      List.length_cons]
    omega
  | escaped c _ ih =>
    rw [List.cons_append, List.cons_append, groupLength, ih, List.length_cons, List.length_cons]
    omega
  | group _ _ ihinside ih =>
    rw [List.cons_append, groupLength_cons hb.opening, if_pos rfl, List.append_assoc, ihinside,
      List.cons_append, groupLength_cons hb.closing, if_neg hb.apart, if_pos rfl]
    simp only [ih, List.length_cons, List.length_append]
    omega

/-- A group ends at the bracket that closes it. -/
lemma groupLength_closed (hb : Brackets opening closing) (h : WellNested opening closing content)
    (behind : List Char) :
    groupLength opening closing 0 (content ++ closing :: behind) = content.length + 1 := by
  rw [groupLength_append hb h, groupLength_cons hb.closing, if_neg hb.apart, if_pos rfl]

/-- A plain character in front leaves the groups open that are open. -/
lemma Unwinds.plain {c : Char} (hescape : c ≠ '\\') (hopening : c ≠ opening)
    (hclosing : c ≠ closing) (h : Unwinds opening closing n text) :
    Unwinds opening closing n (c :: text) := by
  cases h with
  | last h => exact .last (.plain hescape hopening hclosing h)
  | more h further => exact .more (.plain hescape hopening hclosing h) further

/-- So does an escaped one. -/
lemma Unwinds.escaped (c : Char) (h : Unwinds opening closing n text) :
    Unwinds opening closing n ('\\' :: c :: text) := by
  cases h with
  | last h => exact .last (.escaped c h)
  | more h further => exact .more (.escaped c h) further

/-- A bracket opens the innermost of the groups that are closed. -/
lemma Unwinds.opened (h : Unwinds opening closing (n + 1) text) :
    Unwinds opening closing n (opening :: text) := by
  cases h with
  | more h further =>
    cases further with
    | last h' => exact .last (.group h h')
    | @more n inside rest h' further =>
      have hgroup := Unwinds.more (.group h h') further
      rwa [List.cons_append, List.append_assoc, List.cons_append] at hgroup

/-- A group goes on to the end of the line, or a bracket closes it and all groups within it.

**Proof sketch.** Induction along the text, as the length of the group is found in it. A bracket
that opens a group within adds one that has to be closed first, and a bracket that closes one of
them leaves one less. -/
lemma exists_unwinds (inner : Nat) (text : List Char) :
    groupLength opening closing inner text = text.length
      ∨ ∃ content behind, Unwinds opening closing inner content
        ∧ text = content ++ closing :: behind := by
  induction inner, text using groupLength.induct opening closing with
  | case1 inner => exact .inl (by rw [groupLength]; rfl)
  | case2 inner => exact .inl (by rw [groupLength]; rfl)
  | case3 inner head text ih =>
    rcases ih with hlength | ⟨content, behind, hunwinds, rfl⟩
    · exact .inl (by rw [groupLength, hlength]; rfl)
    · exact .inr ⟨_, behind, hunwinds.escaped head, rfl⟩
  | case4 inner text hlast hescape ih =>
    have hne : opening ≠ '\\' := Cursor.ne_backslash hlast hescape
    rcases ih with hlength | ⟨content, behind, hunwinds, rfl⟩
    · exact .inl (by rw [groupLength_cons hne, if_pos rfl, hlength]; rfl)
    · exact .inr ⟨_, behind, hunwinds.opened, rfl⟩
  | case5 text hlast hescape hopening => exact .inr ⟨[], text, .last .nil, rfl⟩
  | case6 text inner hlast hescape hopening ih =>
    have hne : closing ≠ '\\' := Cursor.ne_backslash hlast hescape
    rcases ih with hlength | ⟨content, behind, hunwinds, rfl⟩
    · exact .inl (by rw [groupLength_cons hne, if_neg hopening, if_pos rfl]; simp [hlength])
    · exact .inr ⟨closing :: content, behind, .more .nil hunwinds, rfl⟩
  | case7 inner ch text hlast hescape hopening hclosing ih =>
    have hne : ch ≠ '\\' := Cursor.ne_backslash hlast hescape
    rcases ih with hlength | ⟨content, behind, hunwinds, rfl⟩
    · exact .inl (by rw [groupLength_cons hne, if_neg hopening, if_neg hclosing, hlength]; rfl)
    · exact .inr ⟨_, behind, hunwinds.plain hne hopening hclosing, rfl⟩

/-- **A group that no bracket closes goes on to the end of the line.** -/
theorem groupLength_of_unclosed (h : Unclosed opening closing text) :
    groupLength opening closing 0 text = text.length := by
  rcases exists_unwinds 0 text with hlength | ⟨content, behind, hunwinds, htext⟩
  · exact hlength
  · cases hunwinds with
    | last hcontent => exact absurd hcontent (h content behind htext)

end Groups

/-! ## Words with one space between them -/

/-- Words are what is left of a text without its blanks. -/
lemma flatten_words (text : List Char) : (words text).flatten = text.filter (!isBlank ·) := by
  induction text using words.induct with
  | case1 => rw [words]; rfl
  | case2 c text hblank ih =>
    rw [words, if_pos hblank, ih, List.filter_cons_of_neg (by simp [hblank])]
  | case3 c text hsolid ih =>
    have hword : (text.takeWhile (!isBlank ·)).filter (!isBlank ·) = text.takeWhile (!isBlank ·) :=
      List.filter_eq_self.2 fun d hd => List.all_eq_true.1 List.all_takeWhile d hd
    rw [words, if_neg hsolid, List.flatten_cons, ih,
      List.filter_cons_of_pos (by simpa using hsolid)]
    conv_rhs => rw [← List.takeWhile_append_dropWhile (p := (!isBlank ·)) (l := text),
      List.filter_append, hword]
    rfl

/-- What is put between the parts of a text is not seen where it is left out. -/
lemma filter_intercalate {p : Char → Bool} {between : List Char} (h : between.filter p = [])
    (parts : List (List Char)) :
    (between.intercalate parts).filter p = parts.flatten.filter p := by
  induction parts with
  | nil => rfl
  | cons part parts ih =>
    cases parts with
    | nil => simp [List.intercalate]
    | cons next parts =>
      rw [List.intercalate] at ih ⊢
      rw [List.intersperse_cons_cons]
      simp only [List.flatten_cons, List.filter_append, h, List.nil_append, ih]

/-- Only blanks are changed where words get one space between them. -/
lemma filter_normalized (text : List Char) :
    (normalized text).filter (!isBlank ·) = text.filter (!isBlank ·) := by
  have hspace : [' '].filter (!isBlank ·) = [] := by decide
  rw [normalized, filter_intercalate hspace, flatten_words, List.filter_filter]
  simp

/-- A brace at the end of the text is lost, and it is missed. -/
lemma normalized_dropClosingBrace_iff {text : List Char} :
    normalized (dropClosingBrace text) = normalized text ↔ text.getLast? ≠ some '\x7d' := by
  rw [dropClosingBrace]
  split
  · next hlast =>
    obtain ⟨front, rfl⟩ := List.getLast?_eq_some_iff.1 hlast
    refine iff_of_false (fun heq => ?_) (not_not.2 hlast)
    have hsolid := congrArg (List.filter (!isBlank ·)) heq
    have hbrace : isBlank '\x7d' = false := by decide
    rw [filter_normalized, filter_normalized, List.dropLast_concat, List.filter_append] at hsolid
    simp [hbrace] at hsolid
  · next hlast => exact iff_of_true rfl hlast

/-! ## Arguments -/

/-- Behind the brace of an argument stands the text `rest`, and the argument says `name`; then
follows `behind`. -/
inductive Argument : (rest name behind : List Char) → Prop where
  /-- The argument is closed: it says what stands in front of its brace. -/
  | closed {content : List Char} (h : WellNested '\x7b' '\x7d' content) (behind : List Char) :
      Argument (content ++ '\x7d' :: behind) (normalized content) behind
  /-- The argument is not closed: it says all that follows, but for a brace at the end. -/
  | unclosed {rest : List Char} (h : Unclosed '\x7b' '\x7d' rest) :
      Argument rest (normalized (dropClosingBrace rest)) []

/-- Behind every brace there is an argument. -/
lemma exists_argument (rest : List Char) : ∃ name behind, Argument rest name behind := by
  by_cases h : Unclosed '\x7b' '\x7d' rest
  · exact ⟨_, _, .unclosed h⟩
  · simp only [Unclosed, not_forall, not_not] at h
    obtain ⟨content, behind, rfl, hcontent⟩ := h
    exact ⟨_, _, .closed hcontent behind⟩

/-- **An argument is read as it is told.**

**Proof sketch.** If the argument is closed, the length of its group ends at the closing brace,
which is dropped from what was taken. If it is not, all of the line is taken. -/
theorem argument?_mk {rest name behind : List Char} (h : Argument rest name behind)
    (before : List Char) :
    ∃ passed, rest = passed ++ behind
      ∧ argument? ⟨before, '\x7b' :: rest⟩
        = some (name, ⟨passed.reverse ++ '\x7b' :: before, behind⟩) := by
  have heat : (⟨before, '\x7b' :: rest⟩ : Cursor).eat? ['\x7b']
      = some ⟨'\x7b' :: before, rest⟩ := by
    simp [Cursor.eat?, Cursor.startsWith, startsWith, after?, Cursor.forward]
  cases h with
  | @closed content hcontent behind =>
    refine ⟨content ++ ['\x7d'], by simp, ?_⟩
    have hlength := groupLength_closed brackets_braces hcontent behind
    have hpast : pastGroup '\x7b' '\x7d' ⟨'\x7b' :: before, content ++ '\x7d' :: behind⟩
        = ⟨(content ++ ['\x7d']).reverse ++ '\x7b' :: before, behind⟩ := by
      have hover := Cursor.forward_over ('\x7b' :: before) (content ++ ['\x7d']) behind
      rw [List.length_append, List.append_assoc] at hover
      rw [pastGroup, hlength]
      exact hover
    have htake : (content ++ '\x7d' :: behind).take (content.length + 1) = content ++ ['\x7d'] := by
      simp [List.take_append]
    rw [argument?, heat, Option.map_some]
    simp only [hlength, htake, hpast]
    simp [dropClosingBrace]
  | unclosed hunclosed =>
    refine ⟨rest, by simp, ?_⟩
    have hlength := groupLength_of_unclosed hunclosed
    have hpast : pastGroup '\x7b' '\x7d' ⟨'\x7b' :: before, rest⟩
        = ⟨rest.reverse ++ '\x7b' :: before, []⟩ := by
      have hover := Cursor.forward_over ('\x7b' :: before) rest []
      rw [List.append_nil] at hover
      rw [pastGroup, hlength, hover]
    rw [argument?, heat, Option.map_some]
    simp only [hlength, List.take_length, hpast]

/-- What is read is an argument. -/
lemma exists_argument_of_argument? {c after : Cursor} {name : List Char}
    (h : argument? c = some (name, after)) :
    ∃ rest behind, c.after = '\x7b' :: rest ∧ Argument rest name behind := by
  obtain ⟨inside, heat, -⟩ := Option.map_eq_some_iff.1 h
  have hstarts : c.startsWith ['\x7b'] = true := (Option.ite_none_right_eq_some.1 heat).1
  obtain ⟨rest, hafter⟩ := startsWith_iff.1 hstarts
  obtain ⟨name', behind, hargument⟩ := exists_argument rest
  obtain ⟨passed, -, hread⟩ := argument?_mk hargument c.before
  have hc : (⟨c.before, '\x7b' :: rest⟩ : Cursor) = c := by
    rw [← List.singleton_append, ← hafter]
  rw [hc, h] at hread
  obtain rfl : name = name' := (Prod.mk.inj (Option.some.inj hread)).1
  exact ⟨rest, behind, hafter, hargument⟩

/-! ## Commands with arguments -/

/-- A short title in square brackets, or none. -/
def IsShortTitle (short : List Char) : Prop :=
  short = [] ∨ ∃ content, WellNested '[' ']' content ∧ short = '[' :: (content ++ [']'])

/-- What stands between the backslash of a command and the brace of its argument, where the argument
names an element of the kind. -/
inductive Introduces : Kind → List Char → Prop where
  /-- The command of a part of the document, perhaps with a star and a short title in square
  brackets. -/
  | part {command : String} {star gap short gap' : List Char} (hcommand : command ∈ sectionCommands)
      (hstar : star = [] ∨ star = ['*']) (hgap : gap.all isBlank = true)
      (hshort : IsShortTitle short) (hgap' : gap'.all isBlank = true) :
      Introduces .sections (command.toList ++ (star ++ (gap ++ (short ++ gap'))))
  /-- The command that defines an environment, perhaps with a star. -/
  | environment {star gap : List Char} (hstar : star = [] ∨ star = ['*'])
      (hgap : gap.all isBlank = true) :
      Introduces environments ("newenvironment".toList ++ (star ++ gap))

/-- The element of the kind whose name is the argument, unless the argument says nothing. -/
def leafNamed (kind : Kind) (line : Nat) (name : List Char) : List Mark :=
  if name.isEmpty then [] else [.leaf kind (.ofList name) line]

/-- The cursor after the short title in square brackets that may stand there. -/
def pastShort (c : Cursor) : Cursor :=
  match c.eat? ['['] with
  | some inside => pastGroup '[' ']' inside
  | none => c

/-- A part of a document is named behind a star, blanks and a short title. -/
lemma documentPart_eq (line : Nat) (c : Cursor) :
    documentPart line c
      = named .sections line (pastShort (c.eat ['*']).skipBlanks).skipBlanks := rfl

section Found

variable {kind : Kind} {line : Nat} {c : Cursor} {m : Mark}

/-- What is named at the cursor is named by the argument there. -/
lemma named_found (h : m ∈ (named kind line c).found) :
    ∃ rest name behind, c.after = '\x7b' :: rest ∧ Argument rest name behind
      ∧ m = .leaf kind (.ofList name) line := by
  rw [named] at h
  cases hread : argument? c with
  | none => simp [hread] at h
  | some found =>
    obtain ⟨name, after⟩ := found
    obtain ⟨rest, behind, hafter, hargument⟩ := exists_argument_of_argument? hread
    rw [hread] at h
    dsimp only at h
    split at h
    · exact absurd h List.not_mem_nil
    · exact ⟨rest, name, behind, hafter, hargument, List.mem_singleton.1 h⟩

/-- A sign that may stand at the cursor is passed over. -/
lemma after_eat (sign : Char) (c : Cursor) :
    ∃ text, (text = [] ∨ text = [sign]) ∧ c.after = text ++ (c.eat [sign]).after := by
  rw [Cursor.eat, Cursor.eat?]
  split
  · next hstarts =>
    obtain ⟨rest, hafter⟩ := startsWith_iff.1 hstarts
    refine ⟨[sign], .inr rfl, ?_⟩
    simp [Cursor.after_forward, hafter]
  · exact ⟨[], .inl rfl, rfl⟩

/-- Blanks at the cursor are passed over. -/
lemma after_skipBlanks (c : Cursor) :
    ∃ gap, gap.all isBlank = true ∧ c.after = gap ++ c.skipBlanks.after := by
  have hcut := List.prefix_iff_eq_append.1 (List.takeWhile_prefix isBlank (l := c.after))
  exact ⟨c.after.takeWhile isBlank, List.all_takeWhile, hcut.symm⟩

/-- A star and the blanks behind it are passed over. -/
lemma after_starred (c : Cursor) :
    ∃ star gap, (star = [] ∨ star = ['*']) ∧ gap.all isBlank = true
      ∧ c.after = star ++ (gap ++ (c.eat ['*']).skipBlanks.after) := by
  obtain ⟨star, hstar, heat⟩ := after_eat '*' c
  obtain ⟨gap, hgap, hskip⟩ := after_skipBlanks (c.eat ['*'])
  exact ⟨star, gap, hstar, hgap, by rw [heat, ← hskip]⟩

/-- A short title that may stand at the cursor is passed over. If it is not closed, nothing is
left.

**Proof sketch.** Where no bracket stands, the cursor stays. Where one stands, the group is either
closed, and the title is what it holds, or it runs to the end of the line. -/
lemma after_pastShort (c : Cursor) :
    (pastShort c).after = []
      ∨ ∃ short, IsShortTitle short ∧ c.after = short ++ (pastShort c).after := by
  by_cases hstarts : c.startsWith ['['] = true
  · obtain ⟨rest, hafter⟩ := startsWith_iff.1 hstarts
    have hinside : (c.forward 1).after = rest := by
      rw [Cursor.after_forward, hafter]
      rfl
    have hpast : (pastShort c).after = rest.drop (groupLength '[' ']' 0 rest) := by
      rw [pastShort, Cursor.eat?, if_pos hstarts, ← hinside]
      rfl
    by_cases hunclosed : Unclosed '[' ']' rest
    · left
      rw [hpast, groupLength_of_unclosed hunclosed, List.drop_length]
    · simp only [Unclosed, not_forall, not_not] at hunclosed
      obtain ⟨content, behind, rfl, hcontent⟩ := hunclosed
      refine .inr ⟨'[' :: (content ++ [']']), .inr ⟨content, hcontent, rfl⟩, ?_⟩
      rw [hpast, groupLength_closed brackets_square hcontent, hafter]
      simp [List.drop_append]
  · have hpast : pastShort c = c := by
      rw [pastShort, Cursor.eat?, if_neg hstarts]
    exact .inr ⟨[], .inl rfl, by rw [hpast, List.nil_append]⟩

/-- A part of a document is named by the argument of its command.

**Proof sketch.** The cursor stands behind a star and blanks, then behind a short title, then behind
blanks again; the argument is the one read there. A short title that is not closed leaves no
argument. -/
lemma documentPart_found {command : String} (hcommand : command ∈ sectionCommands)
    (h : m ∈ (documentPart line c).found) :
    ∃ text rest name behind, Introduces .sections (command.toList ++ text)
      ∧ c.after = text ++ '\x7b' :: rest ∧ Argument rest name behind
      ∧ m = .leaf .sections (.ofList name) line := by
  rw [documentPart_eq] at h
  obtain ⟨rest, name, behind, hafter, hargument, hm⟩ := named_found h
  obtain ⟨star, gap, hstar, hgap, hstarred⟩ := after_starred c
  obtain ⟨gap', hgap', hskip⟩ := after_skipBlanks (pastShort (c.eat ['*']).skipBlanks)
  rw [hafter] at hskip
  rcases after_pastShort (c.eat ['*']).skipBlanks with hnone | ⟨short, hshort, hshorter⟩
  · -- behind a short title that is not closed there is no argument
    rw [hskip] at hnone
    simp at hnone
  · refine ⟨star ++ (gap ++ (short ++ gap')), rest, name, behind,
      .part hcommand hstar hgap hshort hgap', ?_, hargument, hm⟩
    rw [hstarred, hshorter, hskip]
    simp only [List.append_assoc]

/-- The definition of a macro reports a macro. -/
lemma definition_found (h : m ∈ (definition line c).found) :
    ∃ name, m = .once .macros name line := by
  simp only [definition] at h
  split at h
  · exact absurd h List.not_mem_nil
  · dsimp only at h
    split at h
    · exact absurd h List.not_mem_nil
    · exact ⟨_, List.mem_singleton.1 h⟩

/-- Beyond a backslash stands what follows it. -/
lemma after_beyond {here : Cursor} (h : c.beyond ['\\'] = (true, here)) :
    ∃ front, c.after = front ++ '\\' :: here.after := by
  rw [Cursor.beyond] at h
  split at h
  · next n hoffset =>
    obtain ⟨-, ⟨rest, hrest⟩, -⟩ := offset?_eq_some_iff.1 hoffset
    obtain rfl := (Prod.mk.inj h).2
    refine ⟨c.after.take n, ?_⟩
    have hhere : (c.forward (n + ['\\'].length)).after = rest := by
      rw [Cursor.after_forward, ← List.drop_drop, ← hrest]
      rfl
    rw [hhere]
    calc c.after = c.after.take n ++ c.after.drop n := (List.take_append_drop n c.after).symm
      _ = c.after.take n ++ '\\' :: rest := by rw [← hrest]; rfl
  · exact absurd (Prod.mk.inj h).1 (by decide)

/-- **What is reported is the argument of a command**, if it is no macro.

**Proof sketch.** The step goes beyond the next backslash and reads a word. By the word it is a
command for parts, one that defines a macro, one that defines an environment, or nothing. -/
theorem step_found {u : Unit} {ch : Char} (h : m ∈ (step line u c ch).found) :
    (∃ name, m = .once .macros name line)
      ∨ ∃ kind front text rest name behind, Introduces kind text
        ∧ c.after = front ++ '\\' :: (text ++ '\x7b' :: rest) ∧ Argument rest name behind
        ∧ m = .leaf kind (.ofList name) line := by
  rw [step] at h
  cases hbeyond : c.beyond ['\\'] with
  | mk found here =>
    rw [hbeyond] at h
    cases found with
    | false => exact absurd h List.not_mem_nil
    | true =>
      obtain ⟨front, hfront⟩ := after_beyond hbeyond
      have hword : here.after = (here.span isAlphabetic).1 ++ (here.span isAlphabetic).2.after :=
        (List.prefix_iff_eq_append.1 (List.takeWhile_prefix isAlphabetic)).symm
      dsimp only at h
      split at h
      · exact absurd h List.not_mem_nil
      split at h
      · next hcommand =>
        obtain ⟨text, rest, name, behind, hintroduces, hafter, hargument, hm⟩ :=
          documentPart_found (List.contains_iff_mem.1 hcommand) h
        refine .inr ⟨_, front, _, rest, name, behind, hintroduces, ?_, hargument, hm⟩
        rw [hfront, hword, hafter, String.toList_ofList, List.append_assoc]
      split at h
      · exact .inl (definition_found h)
      split at h
      · next hcommand =>
        obtain ⟨rest, name, behind, hafter, hargument, hm⟩ := named_found h
        obtain ⟨star, gap, hstar, hgap, hstarred⟩ := after_starred (here.span isAlphabetic).2
        have hletters : (here.span isAlphabetic).1 = "newenvironment".toList := by
          rw [← hcommand, String.toList_ofList]
        refine .inr ⟨_, front, _, rest, name, behind, .environment hstar hgap, ?_, hargument, hm⟩
        rw [hfront, hword, hletters, hstarred, hafter]
        simp only [List.append_assoc]
      · exact absurd h List.not_mem_nil

/-- What is reported of a line, if it is no macro, is the argument of a command on that line. -/
lemma lineMarks_found (line : Nat) (text : List Char) : ∀ m ∈ lineMarks line text,
    (∃ name, m = .once .macros name line)
      ∨ ∃ kind front command rest name behind, Introduces kind command
        ∧ uncomment text = front ++ '\\' :: (command ++ '\x7b' :: rest)
        ∧ Argument rest name behind ∧ m = .leaf kind (.ofList name) line := by
  refine (Cursor.walk_invariant (J := fun _ c => c.line = uncomment text)
    (fun u c ch hch hline => ⟨?_, fun m hm => ?_⟩) (Cursor.line_start _)).2
  · exact (step_runs line hch).advances.line.trans hline
  · refine (step_found hm).imp id ?_
    rintro ⟨kind, front, command, rest, name, behind, hintroduces, hafter, hargument, hm⟩
    refine ⟨kind, c.consumed ++ front, command, rest, name, behind, hintroduces, ?_, hargument, hm⟩
    rw [← hline, Cursor.line, hafter, List.append_assoc]

end Found

/-! ## What is passed over -/

section Passages

variable {star gap rest : List Char}

/-- A sign that stands at the cursor is passed over. -/
lemma eat_sign {sign : Char} (hstar : star = [] ∨ star = [sign]) (hrest : rest.head? ≠ some sign)
    (before : List Char) :
    (⟨before, star ++ rest⟩ : Cursor).eat [sign] = ⟨star.reverse ++ before, rest⟩ := by
  obtain rfl | rfl := hstar
  · have hnone : (⟨before, rest⟩ : Cursor).startsWith [sign] = false := by
      rw [Bool.eq_false_iff]
      intro hstarts
      obtain ⟨tail, htail⟩ := startsWith_iff.1 hstarts
      obtain rfl : rest = sign :: tail := htail
      exact hrest rfl
    rw [List.nil_append, Cursor.eat, Cursor.eat?, hnone]
    rfl
  · simp [Cursor.eat, Cursor.eat?, Cursor.startsWith, startsWith, after?, Cursor.forward]

/-- Blanks at the cursor are passed over. -/
lemma skipBlanks_gap (hgap : gap.all isBlank = true) (hrest : rest.head?.any isBlank = false)
    (before : List Char) :
    (⟨before, gap ++ rest⟩ : Cursor).skipBlanks = ⟨gap.reverse ++ before, rest⟩ :=
  congrArg Prod.snd (Cursor.span_word hgap hrest before)

/-- Behind blanks comes another blank or what stands behind all of them. -/
lemma head?_gap (hgap : gap.all isBlank = true) {c : Char} (h : (gap ++ rest).head? = some c) :
    isBlank c = true ∨ rest.head? = some c := by
  cases gap with
  | nil => exact .inr h
  | cons d gap =>
    rw [List.all_cons, Bool.and_eq_true] at hgap
    obtain rfl : d = c := Option.some.inj h
    exact .inl hgap.1

/-- A star and the blanks behind it are passed over. -/
lemma starred_mk (hstar : star = [] ∨ star = ['*']) (hgap : gap.all isBlank = true)
    (hrest : rest.head?.any isBlank = false) (hsign : rest.head? ≠ some '*') (before : List Char) :
    ((⟨before, star ++ (gap ++ rest)⟩ : Cursor).eat ['*']).skipBlanks
      = ⟨(star ++ gap).reverse ++ before, rest⟩ := by
  have hhead : (gap ++ rest).head? ≠ some '*' := by
    intro h
    rcases head?_gap hgap h with hblank | hhead
    · exact absurd hblank (by decide)
    · exact hsign hhead
  rw [eat_sign hstar hhead, skipBlanks_gap hgap hrest, List.reverse_append, List.append_assoc]

/-- The argument of a command for parts is found behind a star, blanks and a short title.

**Proof sketch.** Without a short title the blanks on both its sides are one gap. With one, the
title is a closed group, which is passed over as a whole. -/
lemma documentPart_mk {short gap' : List Char} (hstar : star = [] ∨ star = ['*'])
    (hgap : gap.all isBlank = true)
    (hshort : IsShortTitle short) (hgap' : gap'.all isBlank = true) (line : Nat)
    (before rest : List Char) :
    documentPart line ⟨before, (star ++ (gap ++ (short ++ gap'))) ++ '\x7b' :: rest⟩
      = named .sections line
        ⟨(star ++ (gap ++ (short ++ gap'))).reverse ++ before, '\x7b' :: rest⟩ := by
  have hbrace : ('\x7b' :: rest).head?.any isBlank = false := by
    show isBlank '\x7b' = false
    decide
  obtain rfl | ⟨content, hcontent, rfl⟩ := hshort
  · have hgaps : (gap ++ gap').all isBlank = true := by rw [List.all_append, hgap, hgap']; rfl
    have hstarred := starred_mk hstar hgaps hbrace (by simp) before
    have htext : star ++ (gap ++ ([] ++ gap')) ++ '\x7b' :: rest
        = star ++ ((gap ++ gap') ++ '\x7b' :: rest) := by simp
    have hpast : ∀ before, (pastShort ⟨before, '\x7b' :: rest⟩).skipBlanks
        = ⟨before, '\x7b' :: rest⟩ := fun before =>
      skipBlanks_gap (show ([] : List Char).all isBlank = true from rfl) hbrace before
    rw [documentPart_eq, htext, hstarred, hpast]
    rfl
  · have hsquare : ('[' :: (content ++ ']' :: (gap' ++ '\x7b' :: rest))).head?.any isBlank
        = false := by
      show isBlank '[' = false
      decide
    have hstarred := starred_mk hstar hgap hsquare (by simp) before
    have htext : star ++ (gap ++ ('[' :: (content ++ [']']) ++ gap')) ++ '\x7b' :: rest
        = star ++ (gap ++ '[' :: (content ++ ']' :: (gap' ++ '\x7b' :: rest))) := by simp
    have hpast : ∀ before, pastShort ⟨before, '[' :: (content ++ ']' :: (gap' ++ '\x7b' :: rest))⟩
        = ⟨(content ++ [']']).reverse ++ '[' :: before, gap' ++ '\x7b' :: rest⟩ := by
      intro before
      have hover := Cursor.forward_over ('[' :: before) (content ++ [']']) (gap' ++ '\x7b' :: rest)
      rw [List.length_append, List.append_assoc] at hover
      show pastGroup '[' ']' ⟨'[' :: before, content ++ ']' :: (gap' ++ '\x7b' :: rest)⟩ = _
      rw [pastGroup, groupLength_closed brackets_square hcontent]
      exact hover
    rw [documentPart_eq, htext, hstarred, hpast, skipBlanks_gap hgap' hbrace]
    simp

/-- An element is named by the argument at the cursor. -/
lemma named_mk {name behind : List Char} (h : Argument rest name behind) (kind : Kind) (line : Nat)
    (before : List Char) :
    ∃ passed, rest = passed ++ behind
      ∧ named kind line ⟨before, '\x7b' :: rest⟩
        = { state := (), cursor := ⟨passed.reverse ++ '\x7b' :: before, behind⟩,
            found := leafNamed kind line name } := by
  obtain ⟨passed, hrest, hread⟩ := argument?_mk h before
  exact ⟨passed, hrest, by rw [named, hread]; rfl⟩

/-- No blank is a letter. -/
lemma isAlphabetic_of_isBlank {c : Char} (h : isBlank c = true) : isAlphabetic c = false := by
  have hname := isIdentifierChar_of_isBlank h
  rw [isIdentifierChar, isAlphanumeric, Bool.or_eq_false_iff, Bool.or_eq_false_iff] at hname
  exact hname.1.1

/-- A command ends at the star or the blank behind it, or at what stands behind them. -/
lemma head?_starred (hstar : star = [] ∨ star = ['*']) (hgap : gap.all isBlank = true)
    (hrest : rest.head?.any isAlphabetic = false) :
    (star ++ (gap ++ rest)).head?.any isAlphabetic = false := by
  obtain rfl | rfl := hstar
  · cases gap with
    | nil => exact hrest
    | cons c gap =>
      rw [List.all_cons, Bool.and_eq_true] at hgap
      exact isAlphabetic_of_isBlank hgap.1
  · show isAlphabetic '*' = false
    decide

/-- What a step does at a command is known by the letters of the command.

**Proof sketch.** The step goes beyond the backslash, which comes next, and the letters end where
the rest begins. What it then does depends on the letters alone. -/
lemma step_mk {letters : List Char} (hletters : letters.all isAlphabetic = true)
    (hsome : letters ≠ []) (hrest : rest.head?.any isAlphabetic = false) (line : Nat)
    (before : List Char) (ch : Char) :
    step line () ⟨before, '\\' :: (letters ++ rest)⟩ ch =
      let after : Cursor := ⟨letters.reverse ++ '\\' :: before, rest⟩
      let command := String.ofList letters
      if sectionCommands.contains command then documentPart line after
      else if macroCommands.contains command then definition line after
      else if command = "newenvironment" then named environments line (after.eat ['*']).skipBlanks
      else { state := (), cursor := after } := by
  have hbeyond : (⟨before, '\\' :: (letters ++ rest)⟩ : Cursor).beyond ['\\']
      = (true, ⟨'\\' :: before, letters ++ rest⟩) := by
    simp [Cursor.beyond, offset?, startsWith, after?, Cursor.forward]
  have hspan := Cursor.span_word hletters hrest ('\\' :: before)
  have hempty : letters.isEmpty = false := by simpa using hsome
  rw [step, hbeyond]
  simp only [hspan, hempty]
  rfl

/-- A step at the command of a part goes to the brace of its argument.

**Proof sketch.** What stands behind the letters of the command begins with a star, a blank, a
bracket or the brace, and none of them is a letter. So the step is the one of the command
(`step_mk`), and its argument is found behind what precedes it. -/
lemma step_part {word : String} {short gap' : List Char} (hword : word ∈ sectionCommands)
    (hstar : star = [] ∨ star = ['*']) (hgap : gap.all isBlank = true)
    (hshort : IsShortTitle short) (hgap' : gap'.all isBlank = true) (line : Nat)
    (before rest : List Char) (ch : Char) :
    step line () ⟨before,
        '\\' :: (word.toList ++ (star ++ (gap ++ (short ++ gap'))) ++ '\x7b' :: rest)⟩ ch
      = named .sections line
        ⟨('\\' :: (word.toList ++ (star ++ (gap ++ (short ++ gap'))))).reverse ++ before,
          '\x7b' :: rest⟩ := by
  have hletters : ∀ word ∈ sectionCommands,
      word.toList.all isAlphabetic = true ∧ word.toList ≠ [] := by decide
  have hbrace : ('\x7b' :: rest).head?.any isAlphabetic = false := by
    show isAlphabetic '\x7b' = false
    decide
  have hbehind : (short ++ (gap' ++ '\x7b' :: rest)).head?.any isAlphabetic = false := by
    obtain rfl | ⟨content, -, rfl⟩ := hshort
    · exact head?_starred (.inl (rfl : ([] : List Char) = [])) hgap' hbrace
    · show isAlphabetic '[' = false
      decide
  have hends : (star ++ (gap ++ (short ++ gap')) ++ '\x7b' :: rest).head?.any isAlphabetic
      = false := by
    simp only [List.append_assoc]
    exact head?_starred hstar hgap hbehind
  rw [List.append_assoc, step_mk (hletters word hword).1 (hletters word hword).2 hends]
  simp only [String.ofList_toList, List.contains_iff_mem.2 hword, if_true]
  rw [documentPart_mk hstar hgap hshort hgap']
  simp

/-- So does a step at the command that defines an environment.

**Proof sketch.** As for parts, with a star and blanks only. The word is neither a command for parts
nor one that defines a macro. -/
lemma step_environment (hstar : star = [] ∨ star = ['*']) (hgap : gap.all isBlank = true)
    (line : Nat) (before rest : List Char) (ch : Char) :
    step line () ⟨before,
        '\\' :: ("newenvironment".toList ++ (star ++ gap) ++ '\x7b' :: rest)⟩ ch
      = named environments line
        ⟨('\\' :: ("newenvironment".toList ++ (star ++ gap))).reverse ++ before,
          '\x7b' :: rest⟩ := by
  have hbrace : ('\x7b' :: rest).head?.any isBlank = false := by
    show isBlank '\x7b' = false
    decide
  have hends : ((star ++ gap) ++ '\x7b' :: rest).head?.any isAlphabetic = false := by
    rw [List.append_assoc]
    refine head?_starred hstar hgap ?_
    show isAlphabetic '\x7b' = false
    decide
  have hpart : sectionCommands.contains "newenvironment" = false := by decide
  have hdefines : macroCommands.contains "newenvironment" = false := by decide
  rw [List.append_assoc, step_mk (by decide) (by decide) hends]
  simp only [String.ofList_toList, hpart, hdefines, Bool.false_eq_true, if_false, if_true]
  rw [List.append_assoc, starred_mk hstar hgap hbrace (by simp)]
  simp

/-- **The argument of a command is reported**, unless it says nothing: a walk that comes to the
command goes on behind the argument.

**Proof sketch.** The step at the command goes to the brace of its argument, by either form, and
from there behind the argument. -/
theorem passes_argument {kind : Kind} {command name behind : List Char}
    (hintroduces : Introduces kind command) (hargument : Argument rest name behind) (line : Nat)
    (before : List Char) :
    ∃ passed, rest = passed ++ behind ∧ Passes (step line) () before
      ('\\' :: (command ++ '\x7b' :: passed)) behind () (leafNamed kind line name) := by
  have hstep : ∀ ch, step line () ⟨before, '\\' :: (command ++ '\x7b' :: rest)⟩ ch
      = named kind line ⟨('\\' :: command).reverse ++ before, '\x7b' :: rest⟩ := by
    cases hintroduces with
    | part hcommand hstar hgap hshort hgap' =>
      exact step_part hcommand hstar hgap hshort hgap' line before rest
    | environment hstar hgap => exact step_environment hstar hgap line before rest
  obtain ⟨passed, hrest, hnamed⟩ :=
    named_mk hargument kind line (('\\' :: command).reverse ++ before)
  refine ⟨passed, hrest, Passes.of_step ?_⟩
  have htext : '\\' :: (command ++ '\x7b' :: passed) ++ behind
      = '\\' :: (command ++ '\x7b' :: rest) := by
    rw [hrest]
    simp
  rw [htext, hstep, hnamed]
  simp

end Passages

/-! ## What arguments say -/

/-- The name is all that the argument says: what stands in front of the brace that closes it, or all
that follows if no brace does. -/
def Whole (rest name : List Char) : Prop :=
  (∃ content behind, WellNested '\x7b' '\x7d' content ∧ rest = content ++ '\x7d' :: behind
    ∧ name = normalized content)
  ∨ Unclosed '\x7b' '\x7d' rest ∧ name = normalized rest

/-- **All that an argument says is kept**, unless it is left open and a brace stands at its end. -/
theorem Argument.whole_iff {rest name behind : List Char} (h : Argument rest name behind) :
    Whole rest name ↔ (Unclosed '\x7b' '\x7d' rest → rest.getLast? ≠ some '\x7d') := by
  cases h with
  | @closed content hcontent =>
    exact iff_of_true (.inl ⟨content, behind, hcontent, rfl, rfl⟩)
      fun hunclosed => absurd hcontent (hunclosed content behind rfl)
  | unclosed hunclosed =>
    rw [← normalized_dropClosingBrace_iff]
    constructor
    · rintro (⟨content, behind, hcontent, hrest, -⟩ | ⟨-, hname⟩) -
      · exact absurd hcontent (hunclosed content behind hrest)
      · exact hname
    · intro hname
      exact .inr ⟨hunclosed, hname hunclosed⟩

/-- What a line says behind a command that the walk comes to is reported.

**Proof sketch.** The walk passes the front of the line, then the command with its argument, and
what it finds there is among the marks of the line. -/
lemma mem_lineMarks {kind : Kind} {text front command rest name behind : List Char} {line : Nat}
    {found : List Mark} (htext : uncomment text = front ++ '\\' :: (command ++ '\x7b' :: rest))
    (hfront : Passes (step line) () [] front ('\\' :: (command ++ '\x7b' :: rest)) () found)
    (hintroduces : Introduces kind command) (hargument : Argument rest name behind)
    (hname : name ≠ []) : Mark.leaf kind (.ofList name) line ∈ lineMarks line text := by
  obtain ⟨passed, hrest, hpasses⟩ :=
    passes_argument hintroduces hargument line (front.reverse ++ [])
  have hcommand : '\\' :: (command ++ '\x7b' :: rest)
      = '\\' :: (command ++ '\x7b' :: passed) ++ behind := by
    rw [hrest]
    simp
  rw [hcommand] at htext hfront
  have hboth := hfront.append hpasses
  rw [Passes, List.append_assoc, ← htext] at hboth
  have hleaf : Mark.leaf kind (.ofList name) line ∈ leafNamed kind line name := by
    simp [leafNamed, hname]
  rw [lineMarks, Cursor.start, hboth]
  exact List.mem_append_left _ (List.mem_append_right _ hleaf)

end Latex

namespace Language

/-- **The names of parts and environments.** Each of them is what the argument of its command says,
on its line up to the comment; and all that an argument says is kept, unless no brace closes it and
the line ends with one all the same, that of a group within or an escaped one. The argument of each
command to which the walk along a line comes is reported, if it says anything.

**Proof sketch.** The first part is `lineMarks_found`, carried from the marks to the occurrences of
the document. The second one is `Argument.whole_iff`, and the third one is `mem_lineMarks`: a leaf
that is marked occurs in the document. -/
theorem scan_latex_arguments (lines : List String) :
    (∀ o ∈ (latex.scan lines).occurrences,
      o.tag.kind = .sections ∨ o.tag.kind = Latex.environments →
      ∃ text front command rest behind, lines[o.tag.line]? = some text
        ∧ Latex.uncomment text.toList = front ++ '\\' :: (command ++ '\x7b' :: rest)
        ∧ Latex.Introduces o.tag.kind command ∧ Latex.Argument rest o.tag.name.toList behind)
    ∧ (∀ rest name behind, Latex.Argument rest name behind →
      (Latex.Whole rest name ↔
        (Latex.Unclosed '\x7b' '\x7d' rest → rest.getLast? ≠ some '\x7d')))
    ∧ ∀ line text front command rest name behind kind found, lines[line]? = some text →
      Latex.uncomment text.toList = front ++ '\\' :: (command ++ '\x7b' :: rest) →
      Cursor.Passes (Latex.step line) () [] front ('\\' :: (command ++ '\x7b' :: rest)) () found →
      Latex.Introduces kind command → Latex.Argument rest name behind → name ≠ [] →
      ∃ o ∈ (latex.scan lines).occurrences, o.tag.kind = kind ∧ o.tag.name = .ofList name
        ∧ o.tag.line = line := by
  refine ⟨?named, fun rest name behind hargument => hargument.whole_iff, ?reported⟩
  case named =>
    intro o ho hkind
    -- what is marked as anything but a macro is named by an argument
    have hmarks : ∀ m ∈ latex.marks (lines.map String.toList), m.All fun r => r.tag.kind = .macros
        ∨ ∃ text front command rest behind, lines[r.tag.line]? = some text
          ∧ Latex.uncomment text.toList = front ++ '\\' :: (command ++ '\x7b' :: rest)
          ∧ Latex.Introduces r.tag.kind command ∧ Latex.Argument rest r.tag.name.toList behind := by
      intro m hm
      obtain ⟨line, text, htext, hfound⟩ := mem_eachLine hm
      rw [List.getElem?_map] at htext
      obtain ⟨text, hline, rfl⟩ := Option.map_eq_some_iff.1 htext
      rcases Latex.lineMarks_found line _ m hfound with ⟨name, rfl⟩ |
        ⟨kind, front, command, rest, name, behind, hintroduces, hrest, hargument, rfl⟩
      · exact Mark.all_once.2 (.inl rfl)
      · refine Mark.all_leaf.2 (.inr ⟨text, front, command, rest, behind, hline, hrest,
          hintroduces, ?_⟩)
        rwa [String.toList_ofList]
    obtain ⟨r, hr, hof⟩ := exists_report hmarks ho
    rw [hof.tag, Tag.kind_heldBy] at hkind ⊢
    rw [Tag.line_heldBy, Tag.name_heldBy]
    rcases hr with hdefined | hargument
    · rw [hdefined] at hkind
      exact absurd hkind (by decide)
    · exact hargument
  case reported =>
    intro line text front command rest name behind kind found hline htext hpasses hintroduces
      hargument hname
    have hleaf := Latex.mem_lineMarks htext hpasses hintroduces hargument hname
    have htoList : (lines.map String.toList)[line]? = some text.toList := by
      rw [List.getElem?_map, hline]
      rfl
    have hmarks : Mark.leaf kind (.ofList name) line ∈ latex.marks (lines.map String.toList) :=
      mem_eachLine_of_mem htoList hleaf
    obtain ⟨o, ho, hof⟩ := Document.exists_occurrence_of_leaf hmarks latex.legend
    rw [← occurrences_scan] at ho
    exact ⟨o, ho, by rw [hof.tag, Tag.kind_heldBy], by rw [hof.tag, Tag.name_heldBy],
      by rw [hof.tag, Tag.line_heldBy]⟩

/-- A group within an argument belongs to its title. -/
theorem scan_latex_arguments_nested :
    let lines := ["\\section*\x7ba \x7bb\x7d\x7d"]
    let o : Occurrence := ⟨{ name := "a \x7bb\x7d", line := 0, kind := .sections }, .sections, []⟩
    o ∈ (latex.scan lines).occurrences
      ∧ (∃ text front command rest behind, lines[o.tag.line]? = some text
        ∧ Latex.uncomment text.toList = front ++ '\\' :: (command ++ '\x7b' :: rest)
        ∧ Latex.Introduces o.tag.kind command ∧ Latex.Argument rest o.tag.name.toList behind) := by
  intro lines o
  have ho : o ∈ (latex.scan lines).occurrences := by decide +kernel
  exact ⟨ho, (scan_latex_arguments lines).1 o ho (.inl rfl)⟩

/-- The title of a part is cut short where the brace that ends the line closes a group within it.

**Proof sketch.** Two braces behind the argument would close it only at the second one, so it is not
closed. Its last brace is dropped, as the one that would close it. -/
theorem scan_latex_open_argument :
    (latex.scan ["\\section\x7ba \x7bb\x7d"]).occurrences
        = [⟨{ name := "a \x7bb", line := 0, kind := .sections }, .sections, []⟩]
      ∧ Latex.Unclosed '\x7b' '\x7d' "a \x7bb\x7d".toList
      ∧ ¬ Latex.Whole "a \x7bb\x7d".toList "a \x7bb".toList := by
  have hunclosed : Latex.Unclosed '\x7b' '\x7d' "a \x7bb\x7d".toList := by
    intro content behind htext hcontent
    -- with two more braces behind it, the argument goes on to the second one
    have hlength := Latex.groupLength_closed Latex.brackets_braces hcontent
      (behind ++ "\x7d\x7d".toList)
    have hcontent : content.length < "a \x7bb\x7d".toList.length := by
      rw [htext, List.length_append, List.length_cons]
      omega
    rw [← List.cons_append, ← List.append_assoc, ← htext] at hlength
    have hgoes : Latex.groupLength '\x7b' '\x7d' 0
        ("a \x7bb\x7d".toList ++ "\x7d\x7d".toList) = 6 := by
      decide
    rw [hgoes] at hlength
    have hfive : "a \x7bb\x7d".toList.length = 5 := by decide
    omega
  have hname : Latex.normalized (Latex.dropClosingBrace "a \x7bb\x7d".toList)
      = "a \x7bb".toList := by
    decide +kernel
  have hargument := Latex.Argument.unclosed hunclosed
  rw [hname] at hargument
  exact ⟨by decide +kernel, hunclosed,
    fun hwhole => hargument.whole_iff.1 hwhole hunclosed (by decide)⟩

end Language

end Outliner
