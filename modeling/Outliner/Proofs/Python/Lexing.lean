import Mathlib.Tactic.Lemma
import Outliner.Proofs.Python.Statements
import Outliner.Proofs.Reports.ByCharacter
import Outliner.Proofs.Words

set_option autoImplicit false

/-!
# Plain lines of a Python source

A line on which no comment, string, bracket or backslash stands has no effect on how the lines after
it are read. Over the characters of such a line that are no equals signs the walk just goes on, so
that the walk along a longer line can be followed from one sign to the next.

## Main definitions

* `Outliner.Python.isPlain` — whether a character begins and ends nothing.
* `Outliner.Python.isInert` — whether a character means nothing by itself.

## Main results

* `Outliner.Python.walk_front` — the walk goes on over characters that mean nothing.
* `Outliner.Python.lexical_scanLine_of_plain` — a plain line leaves the lexical state as it is.
* `Outliner.Python.scanLine_assignment`, `Outliner.Python.lexical_scanLine_parameters` — what is
  read on the line of an assignment and on that of a function.
-/

namespace Outliner.Python

/-! ## Plain characters -/

/-- The characters that begin a comment, a string, an escape or a bracket, or end a bracket. -/
def signs : List Char := ['#', '"', '\'', '\\', '(', ')', '[', ']', '\x7b', '\x7d']

/-- Whether the character begins and ends nothing, wherever it stands outside strings. -/
def isPlain (c : Char) : Bool := !signs.contains c

/-- Whether the character means nothing by itself, wherever it stands outside strings. -/
def isInert (c : Char) : Bool := isPlain c && c != '='

/-- What makes no difference is plain and no equals sign. -/
lemma isInert_iff {c : Char} : isInert c = true ↔ isPlain c = true ∧ c ≠ '=' := by
  rw [isInert, Bool.and_eq_true, bne_iff_ne]

/-- No character of a name makes a difference. -/
lemma isInert_of_isIdentifierChar {c : Char} (h : isIdentifierChar c = true) :
    isInert c = true := by
  have hsigns : ('=' :: signs).any isIdentifierChar = false := by decide
  have hnot : c ∉ '=' :: signs := fun hc => List.any_eq_false.1 hsigns c hc h
  rw [List.mem_cons, not_or] at hnot
  exact isInert_iff.2 ⟨by simpa [isPlain] using hnot.2, hnot.1⟩

section Steps

variable {begins : Bool} {s : Scan} {ch : Char}

/-- Only an equals sign among the plain characters has a meaning of its own. -/
lemma step_of_plain (hstring : s.lexical.string = none) (hplain : isPlain ch = true) (c : Cursor) :
    step begins s c ch =
      if ch = '=' then
        { state :=
            if begins && isPlainSign c && s.lexical.brackets == 0 && s.target.isNone then
              { s with target := some c.consumed }
            else s
          cursor := c.next.eat ['='] }
      else { state := s, cursor := c.next } := by
  simp only [isPlain, signs, Bool.not_eq_true', List.contains_eq_mem, decide_eq_false_iff_not,
    List.mem_cons, not_or] at hplain
  obtain ⟨h1, h2, h3, h4, h5, h6, h7, h8, h9, h10, -⟩ := hplain
  simp only [step, hstring, codeStep, h1, h2, h3, h4, h5, h6, h7, h8, h9, h10, if_false, or_self]

/-- A step over one character. -/
lemma walk_over {s' : Scan} {before rest : List Char}
    (hstep : step begins s ⟨before, ch :: rest⟩ ch
      = { state := s', cursor := ⟨ch :: before, rest⟩ }) :
    (Cursor.walk (step begins) s ⟨before, ch :: rest⟩).1
      = (Cursor.walk (step begins) s' ⟨ch :: before, rest⟩).1 := by
  have hmoves : (step begins s ⟨before, ch :: rest⟩ ch).cursor.after.length
      < (ch :: rest).length := by
    rw [hstep]
    exact Nat.lt_succ_self rest.length
  rw [Cursor.walk_step _ _ rfl hmoves, hstep]

/-- **The walk goes on over characters that mean nothing by themselves.**

**Proof sketch.** Induction on these characters. Each of them is one step that leaves the state as
it is. -/
lemma walk_front (hstring : s.lexical.string = none) {front : List Char}
    (hfront : front.all isInert = true) (before rest : List Char) :
    (Cursor.walk (step begins) s ⟨before, front ++ rest⟩).1
      = (Cursor.walk (step begins) s ⟨front.reverse ++ before, rest⟩).1 := by
  induction front generalizing before with
  | nil => rfl
  | cons ch front ih =>
    rw [List.all_cons, Bool.and_eq_true, isInert_iff] at hfront
    obtain ⟨⟨hplain, hsign⟩, hfront⟩ := hfront
    have hhere : step begins s ⟨before, ch :: (front ++ rest)⟩ ch
        = { state := s, cursor := ⟨ch :: before, front ++ rest⟩ } := by
      rw [step_of_plain hstring hplain, if_neg hsign]
      rfl
    rw [List.cons_append, walk_over hhere, ih hfront (ch :: before), List.reverse_cons, List.append_assoc]
    rfl

/-- Such characters up to the end of the line leave the state as it is. -/
lemma walk_rest (hstring : s.lexical.string = none) {rest : List Char}
    (hrest : rest.all isInert = true) (before : List Char) :
    (Cursor.walk (step begins) s ⟨before, rest⟩).1 = s := by
  have hend : (⟨rest.reverse ++ before, []⟩ : Cursor).after = [] := rfl
  rw [← List.append_nil rest, walk_front hstring hrest, Cursor.walk_end _ _ hend]

end Steps

/-! ## Lines -/

/-- **A plain line leaves the lexical state as it is**, but for a continuation.

**Proof sketch.** Each step leaves it as it is, since the character of the step stands on the
line. -/
lemma lexical_scanLine_of_plain {before : Lexical} (hstring : before.string = none)
    {line : List Char} (hline : line.all isPlain = true) :
    (scanLine before line).lexical = { before with continued := false } := by
  let next : Lexical := { before with continued := false }
  have hstep : ∀ s c ch, c.peek? = some ch → (c.line = line ∧ s.lexical = next) →
      ((step before.atStatement s c ch).cursor.line = line
        ∧ (step before.atStatement s c ch).state.lexical = next)
      ∧ ∀ x ∈ (step before.atStatement s c ch).found, True := by
    rintro s c ch hch ⟨rfl, hs⟩
    have hmem : ch ∈ c.line := c.after_suffix.subset (List.mem_of_head? hch)
    refine ⟨⟨step_staysOn before.atStatement s c ch, ?_⟩, fun _ _ => trivial⟩
    rw [step_of_plain (by rw [hs]; exact hstring) (List.all_eq_true.1 hline ch hmem)]
    split
    · dsimp only
      split <;> exact hs
    · exact hs
  obtain ⟨⟨last, -, hlast⟩, -⟩ := Cursor.walk_invariant
    (J := fun (s : Scan) c => c.line = line ∧ s.lexical = next) hstep
    (s := { lexical := next }) ⟨Cursor.line_start line, rfl⟩
  exact hlast

/-- A line of such characters assigns nothing. -/
lemma scanLine_of_inert {line : List Char} (hline : line.all isInert = true) :
    scanLine {} line = { lexical := {} } :=
  walk_rest rfl hline []

variable {front : List Char}

/-- What stands before a blank and an equals sign is assigned to.

**Proof sketch.** The front and the blank are passed over (`walk_front`), the equals sign is plain
and assigns to what stands before it, and what is behind it makes no difference. -/
lemma scanLine_assignment (hfront : front.all isInert = true) :
    scanLine {} (front ++ [' ', '=', ' ', '0'])
      = { lexical := {}, target := some (front ++ [' ']) } := by
  have hblank : (front ++ [' ']).all isInert = true := by
    rw [List.all_append, hfront]
    rfl
  have hsplit : front ++ [' ', '=', ' ', '0'] = (front ++ [' ']) ++ ['=', ' ', '0'] := by
    rw [List.append_assoc]
    rfl
  have hassigns : ∀ before rest, isPlainSign ⟨' ' :: before, '=' :: ' ' :: rest⟩ = true :=
    fun before rest => rfl
  have hsign : step true { lexical := {} } ⟨' ' :: front.reverse, ['=', ' ', '0']⟩ '='
      = { state := { lexical := {}, target := some (front ++ [' ']) }
          cursor := ⟨'=' :: ' ' :: front.reverse, [' ', '0']⟩ } := by
    have htarget : (' ' :: front.reverse).reverse = front ++ [' '] := by
      rw [List.reverse_cons, List.reverse_reverse]
    rw [step_of_plain rfl (by decide), if_pos rfl, hassigns, ← htarget]
    rfl
  rw [hsplit]
  show (Cursor.walk (step true) _ ⟨[], _⟩).1 = _
  rw [walk_front rfl hblank, List.reverse_append, List.append_nil]
  show (Cursor.walk (step true) _ ⟨' ' :: front.reverse, ['=', ' ', '0']⟩).1 = _
  rw [walk_over hsign, walk_rest rfl (by decide)]

/-- The parameters of a function leave the lexical state as it is. -/
lemma lexical_scanLine_parameters (hfront : front.all isInert = true) :
    (scanLine {} (front ++ "(self):".toList)).lexical = {} := by
  have hopen : ∀ before rest, step true { lexical := {} } ⟨before, '(' :: rest⟩ '('
      = { state := { lexical := { brackets := 1 } }, cursor := ⟨'(' :: before, rest⟩ } :=
    fun before rest => rfl
  have hclose : ∀ before rest, step true { lexical := { brackets := 1 } } ⟨before, ')' :: rest⟩ ')'
      = { state := { lexical := {} }, cursor := ⟨')' :: before, rest⟩ } :=
    fun before rest => rfl
  have hself : "(self):".toList = '(' :: ("self".toList ++ ')' :: [':']) := by decide
  rw [hself]
  show (Cursor.walk (step true) _ ⟨[], _⟩).1.lexical = _
  rw [walk_front rfl hfront, walk_over (hopen _ _), walk_front rfl (by decide),
    walk_over (hclose _ _), walk_rest rfl (by decide)]

end Outliner.Python
