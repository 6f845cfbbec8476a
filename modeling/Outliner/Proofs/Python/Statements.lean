import Mathlib.Tactic.Lemma
import Outliner.ByCharacter.Python

set_option autoImplicit false

/-!
# Statement lines as the reader of a Python source sees them

Reading a line does two things: it follows strings, brackets and continuations from the beginning of
the line to its end, and if it takes a statement to begin on the line it settles what is left and
what is declared. The first decides which lines are taken for statement lines and does not depend on
the second. So to the reader a source is a page, on which each line is blank as far as scopes go or
holds a statement with its indentation.

## Main definitions

* `Outliner.Python.StatementLine`, `Outliner.Python.Page` — a line on which a statement begins, and
  what stands on each line of a source.
* `Outliner.Python.statementLine?` — what the reader takes for a statement line.
* `Outliner.Python.readStatement` — what a statement line does.
* `Outliner.Python.lexicalBefore`, `Outliner.Python.readBefore` — what is carried to a line of a
  source.
* `Outliner.Python.readPage` — the page that the reader makes of a source.

## Main results

* `Outliner.Python.readLine_eq` — reading a line is following it and reading its statement.
* `Outliner.Python.readBefore_succ` — reading one more line of a source.
-/

namespace Outliner.Python

/-! ## Lines -/

/-- A line on which a statement begins. -/
structure StatementLine where
  /-- The width of its indentation. -/
  indent : Nat
  /-- What the statement declares. -/
  statement : Statement
deriving DecidableEq, Repr

/-- What the reader takes for a statement line in the given lexical state: a line that is neither
blank nor a comment, where what it carries along tells of no string, bracket or continuation. -/
def statementLine? (before : Lexical) (text : List Char) : Option StatementLine :=
  let code := trimStart text
  if !before.atStatement || code.isEmpty || startsWith ['#'] code then none
  else some ⟨indentWidth text tabWidth, statement code (scanLine before text).target⟩

/-- The state after a statement line and its marks. -/
def readStatement (state : State) (line : Nat) (s : StatementLine) : State × List Mark :=
  let (settled, left) := settle s.indent state
  if settled.function.isSome then (settled, left)
  else
    let (declared, marks) := declare s.indent line settled s.statement
    (declared, left ++ marks)

/-- The state with another lexical state. -/
def State.lexically (lexical : Lexical) (state : State) : State := { state with lexical := lexical }

/-- **Reading a line is following it and reading its statement**, if there is one. -/
lemma readLine_eq (state : State) (line : Nat) (text : List Char) :
    readLine state line text =
      let next := state.lexically (scanLine state.lexical text).lexical
      match statementLine? state.lexical text with
      | none => (next, [])
      | some s => readStatement next line s := by
  simp only [readLine, statementLine?]
  split <;> rfl

/-- Reading a statement leaves the lexical state alone. -/
lemma lexical_readStatement (state : State) (line : Nat) (s : StatementLine) :
    (readStatement state line s).1.lexical = state.lexical := by
  obtain ⟨indent, statement⟩ := s
  simp only [readStatement]
  split
  · rfl
  · rcases statement with (_ | name) | (_ | name) | name | _ <;> rfl

/-! ## Pages -/

/-- What stands on each line of a source. Lines on which no statement begins hold nothing, and
neither do those beyond the end. -/
abbrev Page := Nat → Option StatementLine

/-- The lexical state before a line of the source. -/
def lexicalBefore (lines : List (List Char)) (k : Nat) : Lexical :=
  (lines.take k).foldl (fun before text => (scanLine before text).lexical) {}

/-- The page that the reader makes of a source. -/
def readPage (lines : List (List Char)) : Page := fun k =>
  lines[k]?.bind (statementLine? (lexicalBefore lines k))

/-- The state before a line of the source, and the marks of the lines before it. -/
def readBefore (lines : List (List Char)) (k : Nat) : State × List Mark :=
  readLines readLine 0 {} (lines.take k)

/-- After the last line the marks of the source are read. -/
lemma readBefore_length (lines : List (List Char)) :
    (readBefore lines lines.length).2 = marks lines := by
  rw [readBefore, List.take_length, marks]

/-- Reading one more line of a source. -/
lemma readBefore_succ {lines : List (List Char)} {k : Nat} {text : List Char}
    (htext : lines[k]? = some text) :
    readBefore lines (k + 1) =
      ((readLine (readBefore lines k).1 k text).1,
        (readBefore lines k).2 ++ (readLine (readBefore lines k).1 k text).2) :=
  readLines_take_succ readLine {} htext

/-- The lexical state after one more line of a source. -/
lemma lexicalBefore_succ {lines : List (List Char)} {k : Nat} {text : List Char}
    (htext : lines[k]? = some text) :
    lexicalBefore lines (k + 1) = (scanLine (lexicalBefore lines k) text).lexical := by
  obtain ⟨hk, rfl⟩ := List.getElem?_eq_some_iff.1 htext
  rw [lexicalBefore, List.take_succ_eq_append_getElem hk, List.foldl_append]
  rfl

/-- The lexical state is carried from line to line. -/
lemma lexical_readBefore {lines : List (List Char)} {k : Nat} (hk : k ≤ lines.length) :
    (readBefore lines k).1.lexical = lexicalBefore lines k := by
  induction k with
  | zero => rfl
  | succ k ih =>
    have htext : lines[k]? = some lines[k] := List.getElem?_eq_getElem hk
    have hbefore := ih (Nat.le_of_succ_le hk)
    rw [readBefore_succ htext, lexicalBefore_succ htext, readLine_eq, hbefore]
    dsimp only
    split
    · rfl
    · exact lexical_readStatement _ _ _

end Outliner.Python
