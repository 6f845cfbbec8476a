import Mathlib.Tactic.Lemma
import Outliner.ByLine.Perl
import Outliner.Proofs.Passage
import Outliner.Proofs.Words

set_option autoImplicit false

/-!
# Embedded documentation

A source is cleaned by making every line of its embedded documentation empty and by leaving out what
follows its code. Documentation begins at a line of code and goes on through the next line that ends
documentation, whatever stands in between; if there is none, it goes on to the end of the source. A
source and what it is cleaned to make the same marks.

## Main definitions

* `Outliner.Perl.IsCode` — a line at which neither documentation begins nor the code ends.
* `Outliner.Perl.Cleans` — a source and what it is cleaned to.

## Main results

* `Outliner.Perl.exists_cleans`, `Outliner.Perl.Cleans.isCode` — every source can be cleaned, and
  then all its lines are code.
* `Outliner.Perl.Cleans.marks_eq` — a source is read like what it is cleaned to.
-/

namespace Outliner.Perl

/-- At the line neither documentation begins nor the code ends. -/
def IsCode (text : List Char) : Prop :=
  beginsDocumentation text = false ∧ isEndMarker (trimStart text) = false

instance (text : List Char) : Decidable (IsCode text) := inferInstanceAs (Decidable (_ ∧ _))

/-- The lines are cleaned: those of embedded documentation are made empty, and those behind the end
of the code are left out. -/
inductive Cleans : (lines cleaned : List (List Char)) → Prop where
  /-- There are no lines. -/
  | nil : Cleans [] []
  /-- A line of code stays. -/
  | code {text : List Char} {lines cleaned : List (List Char)} (htext : IsCode text)
      (rest : Cleans lines cleaned) : Cleans (text :: lines) (text :: cleaned)
  /-- Documentation goes on through the next line that ends documentation. -/
  | documentation {first last : List Char} {body lines cleaned : List (List Char)}
      (hfirst : beginsDocumentation first = true)
      (hbody : ∀ text ∈ body, endsDocumentation text = false)
      (hlast : endsDocumentation last = true) (rest : Cleans lines cleaned) :
      Cleans (first :: (body ++ last :: lines))
        ((first :: (body ++ [last])).map (fun _ => []) ++ cleaned)
  /-- Documentation that is not ended goes on to the end of the source. -/
  | unended {first : List Char} {body : List (List Char)}
      (hfirst : beginsDocumentation first = true)
      (hbody : ∀ text ∈ body, endsDocumentation text = false) :
      Cleans (first :: body) ((first :: body).map fun _ => [])
  /-- Behind the end of the code nothing stays. -/
  | ended {text : List Char} (hfront : beginsDocumentation text = false)
      (htext : isEndMarker (trimStart text) = true) (lines : List (List Char)) :
      Cleans (text :: lines) []

/-! ## Cleaned sources -/

/-- An empty line is a line of code. -/
lemma isCode_nil : IsCode [] := ⟨rfl, rfl⟩

/-- **Every source can be cleaned.**

**Proof sketch.** Induction on the number of lines. Where documentation begins, the lines behind it
are cut at the first one that ends documentation. -/
theorem exists_cleans (lines : List (List Char)) : ∃ cleaned, Cleans lines cleaned := by
  induction hlength : lines.length using Nat.strong_induction_on generalizing lines with
  | _ n ih =>
    cases lines with
    | nil => exact ⟨[], .nil⟩
    | cons first lines =>
      cases hfirst : beginsDocumentation first with
      | true =>
        have hbody : ∀ text ∈ lines.takeWhile (!endsDocumentation ·),
            endsDocumentation text = false :=
          fun text htext => by simpa using List.all_eq_true.1 List.all_takeWhile text htext
        have hcut := List.takeWhile_append_dropWhile (p := (!endsDocumentation ·)) (l := lines)
        cases hrest : lines.dropWhile (!endsDocumentation ·) with
        -- no line ends the documentation
        | nil =>
          rw [hrest, List.append_nil] at hcut
          rw [hcut] at hbody
          exact ⟨_, .unended hfirst hbody⟩
        | cons last rest =>
          -- the source goes on behind the line that ends it
          have hlast : endsDocumentation last = true := by
            have hhead := List.head?_dropWhile_not (!endsDocumentation ·) lines
            rw [hrest] at hhead
            simpa using hhead
          have hshort : rest.length < n := by
            have hparts := congrArg List.length hcut
            rw [hrest, List.length_append, List.length_cons] at hparts
            rw [List.length_cons] at hlength
            omega
          obtain ⟨cleaned, hcleaned⟩ := ih rest.length hshort rest rfl
          rw [← hcut, hrest]
          exact ⟨_, .documentation hfirst hbody hlast hcleaned⟩
      | false =>
        cases hends : isEndMarker (trimStart first) with
        | true => exact ⟨[], .ended hfirst hends lines⟩
        | false =>
          obtain ⟨cleaned, hcleaned⟩ := ih lines.length (by simp [← hlength]) lines rfl
          exact ⟨first :: cleaned, .code ⟨hfirst, hends⟩ hcleaned⟩

/-- **What a source is cleaned to is code.** -/
theorem Cleans.isCode {lines cleaned : List (List Char)} (h : Cleans lines cleaned) :
    ∀ text ∈ cleaned, IsCode text := by
  have hempty : ∀ block : List (List Char), ∀ text ∈ block.map fun _ => ([] : List Char),
      IsCode text := by
    intro block text htext
    obtain ⟨_, -, rfl⟩ := List.mem_map.1 htext
    exact isCode_nil
  induction h with
  | nil => exact fun _ htext => absurd htext List.not_mem_nil
  | code htext _ ih => exact List.forall_mem_cons.2 ⟨htext, ih⟩
  | documentation _ _ _ _ ih => exact List.forall_mem_append.2 ⟨hempty _, ih⟩
  | unended _ _ => exact hempty _
  | ended _ _ _ => exact fun _ htext => absurd htext List.not_mem_nil

/-! ## Reading -/

section Reading

variable {state : State} {first : Nat}

/-- Lines at which nothing is found and after which the state is the same are passed over. -/
lemma readLines_silent {body : List (List Char)}
    (h : ∀ text ∈ body, ∀ line, readLine state line text = (state, [])) :
    readLines readLine first state body = (state, []) := by
  induction body generalizing first with
  | nil => rfl
  | cons text body ih =>
    obtain ⟨htext, hbody⟩ := List.forall_mem_cons.1 h
    exact readLines_cons_of (htext first) (ih hbody)

/-- Where code is read, empty lines are passed over. -/
lemma readLines_empty (inPackage : Bool) (block : List (List Char)) :
    readLines readLine first ⟨.code, inPackage⟩ (block.map fun _ => [])
      = (⟨.code, inPackage⟩, []) := by
  refine readLines_silent fun text htext line => ?_
  obtain ⟨_, -, rfl⟩ := List.mem_map.1 htext
  rfl

/-- Within documentation nothing is read. -/
lemma readLines_body {body : List (List Char)} (inPackage : Bool)
    (hbody : ∀ text ∈ body, endsDocumentation text = false) :
    readLines readLine first ⟨.documentation, inPackage⟩ body
      = (⟨.documentation, inPackage⟩, []) := by
  refine readLines_silent fun text htext line => ?_
  simp [readLine, hbody text htext]

/-- A line begins documentation. -/
lemma readLine_begins {text : List Char} (h : beginsDocumentation text = true) (inPackage : Bool)
    (line : Nat) :
    readLine ⟨.code, inPackage⟩ line text = (⟨.documentation, inPackage⟩, []) := by
  simp [readLine, h]

/-- A line that ends documentation is part of it. -/
lemma readLine_ends {text : List Char} (h : endsDocumentation text = true) (inPackage : Bool)
    (line : Nat) :
    readLine ⟨.documentation, inPackage⟩ line text = (⟨.code, inPackage⟩, []) := by
  simp [readLine, h]

/-- What is declared by a line of code is all that is read of it.

**Proof sketch.** An empty line and a comment are passed over. As they do not begin with a character
of names, no keyword is found on them, and their statement declares nothing either. -/
lemma readLine_code {text : List Char} (h : IsCode text) (inPackage : Bool) (line : Nat) :
    readLine ⟨.code, inPackage⟩ line text
      = declare ⟨.code, inPackage⟩ line (statement (trimStart text)) := by
  have hother : ∀ code : List Char, code.head?.any isIdentifierChar = false →
      statement code = .other := by
    intro code hcode
    have hnone : ∀ keyword : List Char, keyword.all isIdentifierChar = true → keyword ≠ [] →
        afterKeyword? keyword code = none := by
      intro keyword hkeyword hne
      have hword : ([] : List Char).all isIdentifierChar = true := rfl
      exact afterKeyword?_of_name hkeyword hword hcode hne.symm
    rw [statement, hnone _ (by decide) (by decide), hnone _ (by decide) (by decide),
      hnone _ (by decide) (by decide)]
  rw [readLine]
  simp only [h.1, h.2, Bool.false_eq_true, if_false]
  split
  · next hnothing =>
    -- an empty line and a comment declare nothing
    have hcode : (trimStart text).head?.any isIdentifierChar = false := by
      cases hcode : trimStart text with
      | nil => rfl
      | cons c rest =>
        rw [hcode] at hnothing
        obtain ⟨rest', hrest'⟩ : ∃ rest', c :: rest = '#' :: rest' := by
          simpa [Language.comments, CommentStyle.isLineComment, startsWith_iff] using hnothing
        rw [hrest']
        show isIdentifierChar '#' = false
        decide
    rw [hother _ hcode]
    rfl
  · rfl

/-- A line of code leaves the reader at the code. -/
lemma mode_declare (inPackage : Bool) (line : Nat) (s : Statement) :
    ∃ inPackage', (declare ⟨.code, inPackage⟩ line s).1 = ⟨.code, inPackage'⟩ := by
  cases s with
  | package name =>
    rw [declare]
    split
    · exact ⟨false, rfl⟩
    · split
      · exact ⟨inPackage, rfl⟩
      · exact ⟨true, rfl⟩
  | subroutine name =>
    rw [declare]
    split <;> exact ⟨inPackage, rfl⟩
  | vars names => exact ⟨inPackage, rfl⟩
  | other => exact ⟨inPackage, rfl⟩

/-- **A source is read like what it is cleaned to.**

**Proof sketch.** Induction on how the source is cleaned, for every line number and package. A line
of code is read the same in both. A block of documentation is read without a mark, and so are the
empty lines that stand for it. Behind the end of the code nothing is read at all. -/
theorem Cleans.marks_eq {lines cleaned : List (List Char)} (h : Cleans lines cleaned) :
    marks lines = marks cleaned := by
  suffices hread : ∀ first inPackage, (readLines readLine first ⟨.code, inPackage⟩ lines).2
      = (readLines readLine first ⟨.code, inPackage⟩ cleaned).2 from hread 0 false
  induction h with
  | nil => exact fun _ _ => rfl
  | @code text lines cleaned htext _ ih =>
    intro first inPackage
    obtain ⟨inPackage', hstate⟩ := mode_declare inPackage first (statement (trimStart text))
    rw [readLines, readLines, readLine_code htext]
    simp only [hstate, ih]
  | @documentation opening closing body lines cleaned hfirst hbody hlast _ ih =>
    intro first inPackage
    have hblock : readLines readLine first ⟨.code, inPackage⟩ (opening :: (body ++ [closing]))
        = (⟨.code, inPackage⟩, []) :=
      readLines_cons_of (readLine_begins hfirst inPackage first) (readLines_append_of
        (readLines_body inPackage hbody) (readLines_single (readLine_ends hlast inPackage _)))
    have hlines : opening :: (body ++ closing :: lines)
        = (opening :: (body ++ [closing])) ++ lines := by simp
    rw [hlines, readLines_append, hblock, readLines_append, readLines_empty, List.length_map]
    simp only [ih]
  | @unended opening body hfirst hbody =>
    intro first inPackage
    rw [readLines_empty, readLines_cons_of (readLine_begins hfirst inPackage first)
      (readLines_body inPackage hbody)]
    rfl
  | @ended text hfront htext lines =>
    intro first inPackage
    have hends : readLine ⟨.code, inPackage⟩ first text = (⟨.ended, inPackage⟩, []) := by
      simp [readLine, hfront, htext]
    rw [readLines_cons_of hends (readLines_silent fun _ _ _ => rfl)]
    rfl

end Reading

end Outliner.Perl
