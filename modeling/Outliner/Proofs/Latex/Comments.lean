import Mathlib.Algebra.Ring.Parity
import Mathlib.Data.List.Basic
import Mathlib.Tactic.Lemma
import Outliner.Scan
import Outliner.Proofs.Checked.ByLine
import Outliner.Proofs.LooksAhead

set_option autoImplicit false

/-!
# Comments of a document

A percent sign begins a comment unless it is escaped. Backslashes escape each other, so a sign is
escaped exactly if the number of backslashes directly in front of it is odd, and how many signs were
escaped before makes no difference. What is read of a line is the longest beginning that holds no
sign of a comment. An escaped sign is a character like any other: outside arguments, what stands
behind it is read like a line of its own.

## Main definitions

* `Outliner.Latex.trailingBackslashes` — the number of backslashes at the end of a text.
* `Outliner.Latex.HoldsComment` — a comment begins in the text.
* `Outliner.Latex.AgreeToComment` — two lines that differ only in what their comments say.

## Main results

* `Outliner.Latex.holdsComment_iff` — a comment is cut off, and nothing else is.
* `Outliner.Latex.uncomment_of_agreeToComment` — what a comment says is not read.
* `Outliner.Latex.lineMarks_escaped` — behind an escaped sign the line is read on.
* `Outliner.Language.scan_latex_comment` — what comments hide, and what they do not.
-/

namespace Outliner

namespace Latex

/-! ## Escaped signs -/

/-- The number of backslashes at the end of the text. -/
def trailingBackslashes (text : List Char) : Nat := (text.reverse.takeWhile (· == '\\')).length

/-- The empty text ends in no backslash. -/
@[simp] lemma trailingBackslashes_nil : trailingBackslashes [] = 0 := rfl

/-- The backslashes at the end go on with a backslash and end with any other character. -/
@[simp] lemma trailingBackslashes_concat (text : List Char) (c : Char) :
    trailingBackslashes (text ++ [c]) = if c = '\\' then trailingBackslashes text + 1 else 0 := by
  by_cases h : c = '\\' <;> simp [trailingBackslashes, h]

/-- Whether the character behind the text is escaped, if the first one is or is not. -/
def escapedAfter (escaped : Bool) (text : List Char) : Bool :=
  text.foldl (fun escaped c => c == '\\' && !escaped) escaped

/-- A character is escaped if and only if an odd number of backslashes stands in front of it. -/
lemma escapedAfter_iff (text : List Char) :
    escapedAfter false text = true ↔ Odd (trailingBackslashes text) := by
  induction text using List.reverseRecOn with
  | nil => simp [escapedAfter]
  | append_singleton text c ih =>
    rw [escapedAfter] at ih
    rw [escapedAfter, List.foldl_concat, trailingBackslashes_concat]
    by_cases h : c = '\\'
    · simp [h, Nat.odd_add_one, ← ih]
    · simp [h]

/-! ## What is left of a line -/

/-- A comment begins in the text: behind an even number of backslashes, perhaps none, stands a
percent sign. -/
def HoldsComment (text : List Char) : Prop :=
  ∃ before after, text = before ++ '%' :: after ∧ Even (trailingBackslashes before)

/-- At the sign of a comment the line is cut. -/
lemma uncommentFrom_sign (line : List Char) : uncommentFrom false ('%' :: line) = [] := by
  simp [uncommentFrom]

/-- Any other character is left, and escapes the next one if it is a backslash that is not escaped
itself. -/
lemma uncommentFrom_cons {escaped : Bool} {c : Char} (h : ¬ (c = '%' ∧ escaped = false))
    (line : List Char) :
    uncommentFrom escaped (c :: line) = c :: uncommentFrom (c == '\\' && !escaped) line := by
  by_cases hc : c = '\\'
  · simp [uncommentFrom, hc]
  · have hplain : (c == '\\') = false := by simpa using hc
    simp [uncommentFrom, hc, h, hplain]

section Uncomment

variable {escaped : Bool} {a b : List Char}

/-- Where no comment begins in the first part of a line, the second part is read as well. -/
lemma uncommentFrom_append_of_eq (h : uncommentFrom escaped a = a) :
    uncommentFrom escaped (a ++ b) = a ++ uncommentFrom (escapedAfter escaped a) b := by
  induction a generalizing escaped with
  | nil => rfl
  | cons c a ih =>
    by_cases hsign : c = '%' ∧ escaped = false
    · obtain ⟨rfl, rfl⟩ := hsign
      rw [uncommentFrom_sign] at h
      exact absurd h (by simp)
    · rw [uncommentFrom_cons hsign] at h
      rw [List.cons_append, uncommentFrom_cons hsign, ih (List.cons.inj h).2]
      rfl

/-- Where a comment begins in the first part of a line, the second part belongs to it. -/
lemma uncommentFrom_append_of_ne (h : uncommentFrom escaped a ≠ a) :
    uncommentFrom escaped (a ++ b) = uncommentFrom escaped a := by
  induction a generalizing escaped with
  | nil => exact absurd rfl h
  | cons c a ih =>
    by_cases hsign : c = '%' ∧ escaped = false
    · obtain ⟨rfl, rfl⟩ := hsign
      rw [List.cons_append, uncommentFrom_sign, uncommentFrom_sign]
    · rw [uncommentFrom_cons hsign] at h
      rw [List.cons_append, uncommentFrom_cons hsign, uncommentFrom_cons hsign, ih]
      intro heq
      exact h (by rw [heq])

/-- No comment begins in what is left of a line. -/
lemma uncommentFrom_idem (escaped : Bool) (line : List Char) :
    uncommentFrom escaped (uncommentFrom escaped line) = uncommentFrom escaped line := by
  induction line generalizing escaped with
  | nil => rfl
  | cons c line ih =>
    by_cases hsign : c = '%' ∧ escaped = false
    · obtain ⟨rfl, rfl⟩ := hsign
      rw [uncommentFrom_sign, uncommentFrom]
    · rw [uncommentFrom_cons hsign, uncommentFrom_cons hsign, ih]

/-- A line is cut at a sign that is not escaped. -/
lemma exists_sign (h : uncommentFrom escaped a ≠ a) :
    ∃ before after, a = before ++ '%' :: after ∧ escapedAfter escaped before = false := by
  induction a generalizing escaped with
  | nil => exact absurd rfl h
  | cons c a ih =>
    by_cases hsign : c = '%' ∧ escaped = false
    · obtain ⟨rfl, rfl⟩ := hsign
      exact ⟨[], a, rfl, rfl⟩
    · rw [uncommentFrom_cons hsign] at h
      obtain ⟨before, after, rfl, hescaped⟩ := ih fun heq => h (by rw [heq])
      exact ⟨c :: before, after, rfl, hescaped⟩

end Uncomment

/-- A character behind an even number of backslashes is not escaped. -/
lemma escapedAfter_of_even {text : List Char} (h : Even (trailingBackslashes text)) :
    escapedAfter false text = false := by
  rwa [Bool.eq_false_iff, Ne, escapedAfter_iff, Nat.not_odd_iff_even]

/-- The text behind a sign of a comment is cut off with it. -/
lemma uncomment_append_sign {before : List Char} (h : Even (trailingBackslashes before))
    (after : List Char) : uncomment (before ++ '%' :: after) = uncomment before := by
  by_cases heq : uncommentFrom false before = before
  · rw [uncomment, uncommentFrom_append_of_eq heq, escapedAfter_of_even h, uncommentFrom_sign,
      List.append_nil, uncomment, heq]
  · exact uncommentFrom_append_of_ne heq

/-- **A comment is cut off, and nothing else is.** -/
lemma holdsComment_iff {text : List Char} : HoldsComment text ↔ uncomment text ≠ text := by
  constructor
  · rintro ⟨before, after, rfl, heven⟩ heq
    have hlength := (uncommentFrom_isPrefix false before).length_le
    rw [← uncomment, ← uncomment_append_sign heven after, heq, List.length_append,
      List.length_cons] at hlength
    omega
  · intro h
    obtain ⟨before, after, rfl, hescaped⟩ := exists_sign h
    refine ⟨before, after, rfl, ?_⟩
    rwa [← Nat.not_odd_iff_even, ← escapedAfter_iff, Bool.not_eq_true]

/-- A line without a comment is read as it is. -/
lemma uncomment_eq_self {text : List Char} (h : ¬ HoldsComment text) : uncomment text = text :=
  Classical.not_not.1 fun hne => h (holdsComment_iff.2 hne)

/-- No comment begins in what is left of a line. -/
lemma not_holdsComment_uncomment (line : List Char) : ¬ HoldsComment (uncomment line) := by
  rw [holdsComment_iff, not_not]
  exact uncommentFrom_idem false line

/-- A beginning of a line in which no comment begins is read. -/
lemma isPrefix_uncomment {line p : List Char} (hp : p <+: line) (h : ¬ HoldsComment p) :
    p <+: uncomment line := by
  obtain ⟨rest, rfl⟩ := hp
  rw [uncomment, uncommentFrom_append_of_eq (uncomment_eq_self h)]
  exact List.prefix_append _ _

/-- An escaped sign cuts nothing off: what follows it is left as on a line of its own. -/
lemma uncomment_append_escaped {before : List Char} (h : Odd (trailingBackslashes before))
    (hbefore : ¬ HoldsComment before) (after : List Char) :
    uncomment (before ++ '%' :: after) = before ++ '%' :: uncomment after := by
  have hescaped : escapedAfter false before = true := (escapedAfter_iff before).2 h
  rw [uncomment, uncommentFrom_append_of_eq (uncomment_eq_self hbefore), hescaped]
  simp [uncommentFrom, uncomment]

end Latex

namespace Latex

open Cursor (Passes)

/-! ## Behind an escaped sign -/

/-- Passing over a group looks ahead. -/
lemma looksAhead_pastGroup (opening closing : Char) :
    Cursor.LooksAhead (pastGroup opening closing) :=
  fun text => ⟨groupLength opening closing 0 text, fun _ => rfl⟩

/-- An element that is named by its argument looks ahead. -/
lemma looksAhead_named (kind : Kind) (line : Nat) : Cursor.Step.LooksAhead (named kind line) := by
  have hinside := Cursor.Step.LooksAhead.move (looksAhead_pastGroup '\x7b' '\x7d') () fun text =>
    let name := normalized (dropClosingBrace (text.take (groupLength '\x7b' '\x7d' 0 text)))
    if name.isEmpty then [] else [Mark.leaf kind (.ofList name) line]
  refine (hinside.eat? ['\x7b'] (.move .stay () fun _ => [])).congr fun c => ?_
  rw [named, argument?]
  cases c.eat? ['\x7b'] with
  | none => rfl
  | some inside => rfl

/-- A part of a document looks ahead. -/
lemma looksAhead_documentPart (line : Nat) : Cursor.Step.LooksAhead (documentPart line) := by
  have hstarred := (Cursor.LooksAhead.eat ['*']).comp .skipBlanks
  have hshortened := hstarred.comp ((looksAhead_pastGroup '[' ']').eat? ['['] .stay)
  exact (looksAhead_named .sections line).after (hshortened.comp .skipBlanks)

/-- The definition of a macro looks ahead.

**Proof sketch.** Whether a brace stands in front of the macro decides what is done behind it. Both
ways are put together from moves that look ahead: skipping blanks, eating a sign and reading a word.
-/
lemma looksAhead_definition (line : Nat) : Cursor.Step.LooksAhead (definition line) := by
  have hstarred := (Cursor.LooksAhead.eat ['*']).comp .skipBlanks
  -- the macro, where a brace stands in front of it and where none does
  have hdefined : ∀ braced : Bool, Cursor.Step.LooksAhead fun c =>
      (c.skipBlanks.eat? ['\\']).elim
        ({ state := (), cursor := c.skipBlanks } : Cursor.Step Unit Mark) fun there =>
          let word := there.span fun ch => isAlphabetic ch || ch == '@'
          { state := ()
            cursor := if braced then word.2.skipBlanks.eat ['\x7d'] else word.2
            found := if word.1.isEmpty then [] else [.once .macros (.ofList word.1) line] } := by
    intro braced
    have hclosing : Cursor.LooksAhead fun c =>
        if braced then c.skipBlanks.eat ['\x7d'] else c := by
      cases braced with
      | false => exact .stay
      | true => exact Cursor.LooksAhead.skipBlanks.comp (.eat ['\x7d'])
    have hname : ∀ word : List Char, Cursor.Step.LooksAhead fun c =>
        ({ state := ()
           cursor := if braced then c.skipBlanks.eat ['\x7d'] else c
           found := if word.isEmpty then [] else [.once .macros (.ofList word) line] } :
          Cursor.Step Unit Mark) :=
      fun word => .move hclosing () fun _ => _
    exact ((Cursor.Step.LooksAhead.span _ hname).eat? ['\\']
      (.move .stay () fun _ => [])).after .skipBlanks
  refine (((hdefined true).eat? ['\x7b'] (hdefined false)).after hstarred).congr fun c => ?_
  rcases Option.eq_none_or_eq_some ((c.eat ['*']).skipBlanks.eat? ['\x7b']) with h | ⟨inside, h⟩
  · have heat : (c.eat ['*']).skipBlanks.eat ['\x7b'] = (c.eat ['*']).skipBlanks := by
      rw [Cursor.eat, h, Option.getD_none]
    simp only [definition, heat, h, Option.isSome_none, Option.elim_none]
    cases (c.eat ['*']).skipBlanks.skipBlanks.eat? ['\\'] <;> rfl
  · have heat : (c.eat ['*']).skipBlanks.eat ['\x7b'] = inside := by
      rw [Cursor.eat, h, Option.getD_some]
    simp only [definition, heat, h, Option.isSome_some, Option.elim_some]
    cases inside.skipBlanks.eat? ['\\'] <;> rfl

/-- A step looks ahead.

**Proof sketch.** The step goes beyond the next backslash and reads a word, and what follows depends
on the word alone. Each command looks ahead. -/
lemma looksAhead_step (line : Nat) (u : Unit) (ch : Char) :
    Cursor.Step.LooksAhead (step line u · ch) := by
  have hstarred := (Cursor.LooksAhead.eat ['*']).comp .skipBlanks
  have hcommand : ∀ word : List Char, Cursor.Step.LooksAhead fun c =>
      let command := String.ofList word
      if word.isEmpty then ({ state := (), cursor := c.next } : Cursor.Step Unit Mark)
      else if sectionCommands.contains command then documentPart line c
      else if macroCommands.contains command then definition line c
      else if command = "newenvironment" then named environments line (c.eat ['*']).skipBlanks
      else { state := (), cursor := c } := by
    intro word
    dsimp only
    split_ifs
    · exact .move (fun _ => ⟨1, fun _ => rfl⟩) () fun _ => []
    · exact looksAhead_documentPart line
    · exact looksAhead_definition line
    · exact (looksAhead_named environments line).after hstarred
    · exact .move .stay () fun _ => []
  refine ((Cursor.Step.LooksAhead.span isAlphabetic hcommand).beyond ['\\']
    (.move .stay () fun _ => [])).congr fun c => ?_
  rw [step]
  rcases c.beyond ['\\'] with ⟨_ | _, here⟩ <;> rfl

/-- A step goes beyond the next backslash.

**Proof sketch.** The next backslash is as far away as the front is long, by induction on the front.
-/
lemma beyond_backslash {front : List Char} (hfront : '\\' ∉ front) (before rest : List Char) :
    (⟨before, front ++ '\\' :: rest⟩ : Cursor).beyond ['\\']
      = (true, ⟨'\\' :: (front.reverse ++ before), rest⟩) := by
  have hoffset : offset? ['\\'] (front ++ '\\' :: rest) = some front.length := by
    induction front with
    | nil => simp [offset?, startsWith, after?]
    | cons c front ih =>
      rw [List.mem_cons, not_or] at hfront
      obtain ⟨hne, hfront⟩ := hfront
      have hstarts : startsWith ['\\'] (c :: (front ++ '\\' :: rest)) = false :=
        Cursor.startsWith_of_ne (Ne.symm hne) [] _ []
      rw [List.cons_append, offset?, hstarts, ih hfront]
      rfl
  have hover := Cursor.forward_over before (front ++ ['\\']) rest
  rw [List.append_assoc, List.length_append] at hover
  rw [Cursor.beyond, hoffset]
  refine Prod.ext rfl (hover.trans ?_)
  simp

/-- Text without backslashes is passed over up to the next backslash.

**Proof sketch.** The first step from the front of the text goes beyond the same backslash as the
step from the backslash itself, so both walks go on from the same place. -/
lemma passes_plain {front : List Char} (hfront : '\\' ∉ front) (line : Nat)
    (before rest : List Char) :
    Passes (step line) () before front ('\\' :: rest) () [] := by
  cases front with
  | nil => exact Passes.nil
  | cons c front =>
    -- a step from the front of the text and one from the backslash go to the same place
    have hthere := beyond_backslash List.not_mem_nil ((c :: front).reverse ++ before) rest
    have hsame : step line () ⟨before, c :: (front ++ '\\' :: rest)⟩ c
        = step line () ⟨(c :: front).reverse ++ before, '\\' :: rest⟩ '\\' := by
      rw [List.nil_append] at hthere
      rw [step, step, ← List.cons_append, beyond_backslash hfront, hthere]
      rfl
    have hmoves : ∀ (d : Cursor) (ch : Char), d.peek? = some ch →
        (step line () d ch).cursor.after.length < d.after.length := fun d ch hch =>
      Cursor.length_after_of_advances hch (step_runs line hch).advances
    have hbehind : (⟨(c :: front).reverse ++ before, '\\' :: rest⟩ : Cursor).after
        = '\\' :: rest := rfl
    rw [Passes, List.cons_append, Cursor.walk_step _ _ rfl (hmoves _ _ rfl),
      Cursor.walk_step _ _ hbehind (hmoves _ _ rfl), hsame]
    rfl

/-- An escaped percent sign outside arguments is passed over as a control symbol. -/
lemma passes_escaped (line : Nat) (before rest : List Char) :
    Passes (step line) () before ['\\', '%'] rest () [] := by
  refine Passes.of_step ?_
  have hsign : isAlphabetic '%' = false := by decide
  have hbeyond : (⟨before, '\\' :: ['%'] ++ rest⟩ : Cursor).beyond ['\\']
      = (true, ⟨'\\' :: before, '%' :: rest⟩) :=
    beyond_backslash List.not_mem_nil before ('%' :: rest)
  rw [step, hbeyond]
  simp [Cursor.span, hsign, Cursor.next, Cursor.forward]

/-- **Behind an escaped sign the line is read on.** Where the sign stands outside arguments, what
follows it is read like a line of its own.

**Proof sketch.** The sign is escaped, so nothing is hidden in front of it and what follows is left
as on a line of its own. The walk passes the front and the two characters of the sign, and reads on
from there, where it looks ahead only. -/
theorem lineMarks_escaped {line : Nat} {front after : List Char} {found : List Mark}
    (hfront : ¬ HoldsComment front) (heven : Even (trailingBackslashes front))
    (hpasses : Passes (step line) () [] front ('\\' :: '%' :: uncomment after) () found) :
    lineMarks line (front ++ '\\' :: '%' :: after) = found ++ lineMarks line after := by
  have hfront' : ¬ HoldsComment (front ++ ['\\']) := by
    rw [holdsComment_iff, not_not, uncomment, uncommentFrom_append_of_eq (uncomment_eq_self hfront)]
    rfl
  have hodd : Odd (trailingBackslashes (front ++ ['\\'])) := by
    rw [trailingBackslashes_concat, if_pos rfl]
    exact heven.add_one
  have htext : uncomment (front ++ '\\' :: '%' :: after)
      = front ++ ('\\' :: '%' :: uncomment after) := by
    have hleft := uncomment_append_escaped hodd hfront' after
    rwa [List.append_assoc, List.append_assoc] at hleft
  have hboth : Passes (step line) () [] (front ++ ['\\', '%']) (uncomment after) () (found ++ []) :=
    hpasses.append (passes_escaped line _ _)
  rw [Passes, List.append_assoc, List.append_nil found] at hboth
  rw [lineMarks, htext]
  show (Cursor.walk (step line) () ⟨[], front ++ (['\\', '%'] ++ uncomment after)⟩).2 = _
  rw [hboth, Cursor.walk_of_looksAhead (looksAhead_step line) () _ []]
  rfl

/-! ## Documents -/

/-- The lines agree up to the sign of a comment, if they do not agree altogether: they differ only
in what a comment says. -/
def AgreeToComment (a b : List Char) : Prop :=
  a = b ∨ ∃ before x y, Even (trailingBackslashes before)
    ∧ a = before ++ '%' :: x ∧ b = before ++ '%' :: y

/-- **What a comment says is not read.** -/
lemma uncomment_of_agreeToComment {a b : List Char} (h : AgreeToComment a b) :
    uncomment a = uncomment b := by
  obtain rfl | ⟨before, x, y, heven, rfl, rfl⟩ := h
  · rfl
  · rw [uncomment_append_sign heven, uncomment_append_sign heven]

end Latex

namespace Language

/-- **What comments hide, and what they do not.** What is read of a line is its longest beginning in
which no comment begins. So two documents are outlined alike if their lines differ only behind signs
of comments, whatever stands there. An escaped sign hides nothing: what follows it is left as on a
line of its own; and where the sign stands outside arguments, so that the line is passed over up to
it, what follows it is also read as on a line of its own.

**Proof sketch.** The first part is how a line is read up to its comment. For the second one, lines
that agree up to a comment are left the same. The others are `uncomment_append_escaped` and
`lineMarks_escaped`. -/
theorem scan_latex_comment :
    (∀ line, Latex.uncomment line <+: line ∧ ¬ Latex.HoldsComment (Latex.uncomment line)
      ∧ ∀ p, p <+: line → ¬ Latex.HoldsComment p → p <+: Latex.uncomment line)
    ∧ (∀ lines lines' : List String,
      List.Forall₂ (fun a b => Latex.AgreeToComment a.toList b.toList) lines lines' →
        latex.scan lines = latex.scan lines')
    ∧ (∀ before after, Odd (Latex.trailingBackslashes before) → ¬ Latex.HoldsComment before →
      Latex.uncomment (before ++ '%' :: after) = before ++ '%' :: Latex.uncomment after)
    ∧ ∀ (line : Nat) (front after : List Char) (found : List Mark),
      ¬ Latex.HoldsComment front → Even (Latex.trailingBackslashes front) →
      Cursor.Passes (Latex.step line) () [] front ('\\' :: '%' :: Latex.uncomment after) () found →
      Latex.lineMarks line (front ++ '\\' :: '%' :: after)
        = found ++ Latex.lineMarks line after := by
  refine ⟨?longest, ?documents, ?escaped, ?behind⟩
  case longest =>
    intro line
    exact ⟨Latex.uncommentFrom_isPrefix false line, Latex.not_holdsComment_uncomment line,
      fun p hp hnone => Latex.isPrefix_uncomment hp hnone⟩
  case documents =>
    intro lines lines' hagree
    have hread : ∀ i a b, Latex.AgreeToComment a b → Latex.lineMarks i a = Latex.lineMarks i b := by
      intro i a b hline
      rw [Latex.lineMarks, Latex.lineMarks, Latex.uncomment_of_agreeToComment hline]
    have hmarks : Latex.marks (lines.map String.toList) = Latex.marks (lines'.map String.toList) :=
      eachLine_congr hread (List.forall₂_map_left_iff.2 (List.forall₂_map_right_iff.2 hagree))
    simp only [scan, marks, hmarks]
  case escaped =>
    intro before after hodd hnone
    exact Latex.uncomment_append_escaped hodd hnone after
  case behind =>
    intro line front after found hnone heven hpasses
    exact Latex.lineMarks_escaped hnone heven hpasses

/-- Two backslashes in front of a percent sign leave it a sign of a comment, and one backslash does
not.

**Proof sketch.** Both backslashes belong to the front of the comment. The text in front of the
escaped sign has no command, so the walk comes to the sign. -/
theorem scan_latex_comment_parity :
    List.Forall₂ (fun a b => Latex.AgreeToComment a.toList b.toList)
        ["\\section{A}\\\\% \\section{B}"] ["\\section{A}\\\\%"]
      ∧ latex.scan ["\\section{A}\\\\% \\section{B}"] = latex.scan ["\\section{A}\\\\%"]
      ∧ Latex.lineMarks 1 "50\\% \\section{C}".toList
        = Latex.lineMarks 1 " \\section{C}".toList := by
  have hagree : List.Forall₂ (fun a b : String => Latex.AgreeToComment a.toList b.toList)
      ["\\section{A}\\\\% \\section{B}"] ["\\section{A}\\\\%"] :=
    .cons (.inr ⟨"\\section{A}\\\\".toList, " \\section{B}".toList, [], by decide, by decide,
      by decide⟩) .nil
  have hfront : ¬ Latex.HoldsComment "50".toList := by
    rw [Latex.holdsComment_iff, not_not]
    decide
  have hpasses : Cursor.Passes (Latex.step 1) () [] "50".toList
      ('\\' :: '%' :: Latex.uncomment " \\section{C}".toList) () [] :=
    Latex.passes_plain (by decide) 1 [] _
  exact ⟨hagree, scan_latex_comment.2.1 _ _ hagree, scan_latex_comment.2.2.2 1 "50".toList
    " \\section{C}".toList [] hfront (by decide) hpasses⟩

end Language

end Outliner
