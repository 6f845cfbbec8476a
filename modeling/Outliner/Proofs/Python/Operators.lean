import Mathlib.Tactic.Lemma
import Outliner.Proofs.Python.Scopes
import Outliner.Proofs.Reports.ByCharacter
import Outliner.Proofs.Words

set_option autoImplicit false

/-!
# Operators that end in an equals sign

A statement that begins with a name and goes on with a comparison or with an assignment that
combines an operator with the equals sign declares nothing, whatever comes after it. The reader may
well find a sign by itself further on. But what stands before that sign holds the operator, and so
does what is left of it when an annotation is cut off, since the name in front is no keyword.

## Main definitions

* `Outliner.Python.operators` — the operators.
* `Outliner.Python.OperatorLine` — a line on which a name stands before an operator.

## Main results

* `Outliner.Python.exists_of_target` — what is assigned to stands before a single equals sign.
* `Outliner.Language.scan_python_operator` — such a line declares nothing.
-/

namespace Outliner

namespace Python

/-! ## The lines -/

/-- The comparisons that end in an equals sign, and the assignments that combine it with another
operator. -/
def operators : List String :=
  ["+=", "-=", "*=", "/=", "//=", "%=", "**=", "&=", "|=", "^=", "@=", "<<=", ">>=", "==", "!=",
    "<=", ">="]

/-- A line on which a name stands before an operator. -/
structure OperatorLine where
  /-- The indentation. -/
  indent : List Char
  /-- The name. -/
  name : List Char
  /-- What stands between the name and the operator. -/
  gap : List Char
  /-- The operator. -/
  operator : String
  /-- What comes after the operator. -/
  rest : List Char
  /-- The indentation is blank. -/
  isBlank_indent : indent.all isBlank = true
  /-- The name is an identifier. -/
  isIdentifier_name : isIdentifier name = true
  /-- It is not reserved. -/
  not_isKeyword : isKeyword name = false
  /-- Nothing stands between the name and the operator but blanks. -/
  isBlank_gap : gap.all isBlank = true
  /-- The operator is one of those. -/
  mem_operators : operator ∈ operators

namespace OperatorLine

variable (l : OperatorLine)

/-- What stands on the line before the operator. -/
def front : List Char := l.indent ++ (l.name ++ l.gap)

/-- The text of the line. -/
def text : List Char := l.front ++ (l.operator.toList ++ l.rest)

/-- The text from the name on, where the operator begins with `sign`. -/
def code (sign : Char) (rest : List Char) : List Char := l.name ++ (l.gap ++ sign :: rest)

end OperatorLine

/-! ## Signs -/

/-- The characters with which operators begin. -/
def operatorSigns : List Char := "+-*/%&|^@<>=!".toList

/-- These characters are no blanks and no colons, and they stand in no names. -/
lemma operatorSigns_apart {sign : Char} (h : sign ∈ operatorSigns) :
    isBlank sign = false ∧ isIdentifierChar sign = false ∧ sign ≠ ':' := by
  have hall :
      operatorSigns.all (fun c => !isBlank c && !isIdentifierChar c && c != ':') = true := by
    decide
  simpa [and_assoc] using List.all_eq_true.1 hall sign h

/-- An operator begins with such a character. If this is an equals sign, the operator is two of
them. -/
lemma operators_begin : ∀ operator ∈ operators,
    operator.toList.head?.any operatorSigns.contains = true
      ∧ (operator.toList.head? = some '=' → operator.toList = ['=', '=']) := by
  decide

/-- A name holds none of these characters. -/
lemma isIdentifier_of_mem {sign : Char} {text : List Char} (hsign : sign ∈ operatorSigns)
    (h : sign ∈ text) : isIdentifier text = false := by
  refine Bool.eq_false_iff.2 fun hname => ?_
  have hchar := List.all_eq_true.1 (all_of_isIdentifier hname) sign h
  rw [(operatorSigns_apart hsign).2.1] at hchar
  exact absurd hchar (by decide)

namespace OperatorLine

variable (l : OperatorLine)

/-- What follows the front of the line. -/
lemma exists_sign : ∃ sign ∈ operatorSigns, ∃ rest, l.operator.toList ++ l.rest = sign :: rest
    ∧ (sign = '=' → rest.head? = some '=') := by
  obtain ⟨hsign, hdouble⟩ := operators_begin l.operator l.mem_operators
  cases hoperator : l.operator.toList with
  | nil => simp [hoperator] at hsign
  | cons sign rest =>
    rw [hoperator] at hsign hdouble
    refine ⟨sign, by simpa using hsign, rest ++ l.rest, rfl, ?_⟩
    rintro rfl
    rw [(List.cons_eq_cons.1 (hdouble rfl)).2]
    rfl

/-- No equals sign and no colon stands before the operator. -/
lemma not_mem_front {c : Char} (hblank : isBlank c = false) (hname : isIdentifierChar c = false) :
    c ∉ l.front := by
  intro hmem
  simp only [front, List.mem_append] at hmem
  rcases hmem with h | h | h
  · exact absurd (List.all_eq_true.1 l.isBlank_indent c h) (by simp [hblank])
  · exact absurd (List.all_eq_true.1 (all_of_isIdentifier l.isIdentifier_name) c h)
      (by simp [hname])
  · exact absurd (List.all_eq_true.1 l.isBlank_gap c h) (by simp [hblank])

/-- After the name comes no character of a name. -/
lemma head?_gap {sign : Char} {rest : List Char} (hsign : sign ∈ operatorSigns) :
    (l.gap ++ sign :: rest).head?.any isIdentifierChar = false := by
  cases hgap : l.gap with
  | nil => simpa using (operatorSigns_apart hsign).2.1
  | cons c gap =>
    have hc : c ∈ l.gap := hgap ▸ List.mem_cons_self
    exact isIdentifierChar_of_isBlank (List.all_eq_true.1 l.isBlank_gap c hc)

end OperatorLine

/-! ## What is assigned to -/

/-- The text before an assignment sign, if one was found, goes on with a single equals sign. -/
def Scan.Assigns (line : List Char) (s : Scan) : Prop :=
  ∀ target, s.target = some target → ∃ rest, line = target ++ '=' :: rest ∧ rest.head? ≠ some '='

/-- A step leaves what is assigned to alone, or it finds a single equals sign. -/
lemma target_step (begins : Bool) (s : Scan) (c : Cursor) (ch : Char) :
    (step begins s c ch).state.target = s.target
      ∨ ch = '=' ∧ isPlainSign c = true
        ∧ (step begins s c ch).state.target = some c.consumed := by
  unfold step
  split
  · simp only [stringStep]
    repeat' split
    all_goals exact .inl rfl
  · simp only [codeStep]
    repeat' split
    any_goals exact .inl rfl
    next hsign htarget =>
      simp only [Bool.and_eq_true] at htarget
      exact .inr ⟨hsign, htarget.1.1.2, rfl⟩

/-- **What is assigned to stands before a single equals sign.**

**Proof sketch.** A step that finds the sign finds it at the cursor, and looks at the character
after it. -/
lemma exists_of_target {before : Lexical} {line target : List Char}
    (h : (scanLine before line).target = some target) :
    ∃ rest, line = target ++ '=' :: rest ∧ rest.head? ≠ some '=' := by
  have hstep : ∀ s c ch, c.peek? = some ch → (c.line = line ∧ s.Assigns line) →
      ((step before.atStatement s c ch).cursor.line = line
        ∧ (step before.atStatement s c ch).state.Assigns line)
      ∧ ∀ x ∈ (step before.atStatement s c ch).found, True := by
    rintro s c ch hch ⟨rfl, hs⟩
    refine ⟨⟨step_staysOn before.atStatement s c ch, fun target htarget => ?_⟩,
      fun _ _ => trivial⟩
    rcases target_step before.atStatement s c ch with hsame | ⟨rfl, hplain, hfound⟩
    · exact hs target (hsame ▸ htarget)
    · obtain rfl : c.consumed = target := Option.some.inj (hfound.symm.trans htarget)
      obtain ⟨rest, hrest⟩ := List.head?_eq_some_iff.1 hch
      refine ⟨rest, by rw [Cursor.line, hrest], ?_⟩
      simp only [isPlainSign, Cursor.peekAt?, hrest, Bool.and_eq_true, bne_iff_ne] at hplain
      simpa [List.head?_eq_getElem?] using hplain.2
  have hstart : Scan.Assigns line { lexical := { before with continued := false } } := by
    intro target htarget
    exact absurd htarget (by simp)
  obtain ⟨⟨last, -, hlast⟩, -⟩ := Cursor.walk_invariant
    (J := fun (s : Scan) c => c.line = line ∧ s.Assigns line) hstep ⟨Cursor.line_start line, hstart⟩
  exact hlast target h

namespace OperatorLine

variable (l : OperatorLine)

/-- What is assigned to holds the name, what stands between it and the operator, and the first
character of the operator.

**Proof sketch.** No equals sign stands before the operator. If one is its first character, it is
not single. -/
lemma exists_of_target {before : Lexical} {target : List Char}
    (h : (scanLine before l.text).target = some target) :
    ∃ sign ∈ operatorSigns, ∃ rest, target = l.front ++ sign :: rest := by
  obtain ⟨further, hsplit, hsingle⟩ := Python.exists_of_target h
  obtain ⟨sign, hsign, rest, hrest, hdouble⟩ := l.exists_sign
  have hfront : '=' ∉ l.front := l.not_mem_front (by decide) (by decide)
  rw [text, hrest] at hsplit
  have hnot : ¬ (sign = '=' ∧ rest = further) := fun ⟨hsame, hfurther⟩ =>
    hsingle (hfurther ▸ hdouble hsame)
  rcases List.append_eq_append_iff.1 hsplit with
    ⟨between, rfl, hbetween⟩ | ⟨between, hlong, hbetween⟩
  · cases between with
    | nil => exact absurd (List.cons_eq_cons.1 hbetween) hnot
    | cons c between =>
      obtain ⟨rfl, -⟩ := List.cons_eq_cons.1 hbetween
      exact ⟨sign, hsign, between, rfl⟩
  · cases between with
    | nil =>
      obtain ⟨hsame, hfurther⟩ := List.cons_eq_cons.1 hbetween
      exact absurd ⟨hsame.symm, hfurther.symm⟩ hnot
    | cons c between =>
      obtain ⟨rfl, -⟩ := List.cons_eq_cons.1 hbetween
      rw [hlong] at hfront
      simp at hfront

/-! ## From the name on -/

section Code

variable {sign : Char} (hsign : sign ∈ operatorSigns) (rest : List Char)

/-- Without its indentation the line begins with the name. -/
lemma trimStart_front (sign : Char) (rest : List Char) :
    trimStart (l.front ++ sign :: rest) = l.code sign rest := by
  obtain ⟨c, tail, hname, hc⟩ := exists_cons_of_isIdentifier l.isIdentifier_name
  rw [front, List.append_assoc, trimStart_blanks l.isBlank_indent, List.append_assoc, code, hname,
    List.cons_append, trimStart_cons (isBlank_of_isIdentifierChar hc)]

/-- What the line holds behind its indentation begins with the name. -/
lemma trimStart_code (sign : Char) (rest : List Char) :
    trimStart (l.code sign rest) = l.code sign rest := by
  obtain ⟨c, tail, hname, hc⟩ := exists_cons_of_isIdentifier l.isIdentifier_name
  rw [code, hname, List.cons_append, trimStart_cons (isBlank_of_isIdentifierChar hc)]

include hsign

/-- Blanks at the end come after the operator. -/
lemma trimEnd_code : trimEnd (l.code sign rest) = l.code sign (trimEnd rest) := by
  rw [code, ← List.append_assoc, trimEnd_append_cons (operatorSigns_apart hsign).1,
    List.append_assoc, code]

/-- Colons come after the operator. -/
lemma takeWhile_code :
    (l.code sign rest).takeWhile (· != ':') = l.code sign (rest.takeWhile (· != ':')) := by
  have hfront : ':' ∉ l.front := l.not_mem_front (by decide) (by decide)
  have hcolon : ∀ c ∈ l.name ++ l.gap, (c != ':') = true := by
    intro c hc
    refine bne_iff_ne.2 ?_
    rintro rfl
    exact hfront (List.mem_append_right _ hc)
  have hhere : (sign != ':') = true := bne_iff_ne.2 (operatorSigns_apart hsign).2.2
  rw [code, ← List.append_assoc, List.takeWhile_append_of_pos hcolon,
    List.takeWhile_cons_of_pos (p := (· != ':')) hhere, List.append_assoc, code]

/-- The first identifier is the name. -/
lemma firstIdentifier?_code : firstIdentifier? (l.code sign rest) = some l.name :=
  firstIdentifier?_name l.isIdentifier_name (l.head?_gap hsign)

/-- A name with an operator behind it is no identifier. -/
lemma isIdentifier_code : isIdentifier (l.code sign rest) = false :=
  isIdentifier_of_mem hsign (by simp [code])

/-- What the line seems to assign to is no identifier, since the operator stands in it.

**Proof sketch.** A colon can only follow the operator. What stands before the colon begins with the
name, which is no keyword, and so it is kept. -/
lemma isIdentifier_assignedName :
    isIdentifier (assignedName (l.front ++ sign :: rest)) = false := by
  have htext : trim (l.front ++ sign :: rest) = l.code sign (trimEnd rest) := by
    rw [trim, trimStart_front, l.trimEnd_code hsign]
  simp only [assignedName, htext]
  split
  · rw [l.takeWhile_code hsign, trimStart_code, l.firstIdentifier?_code hsign, Option.any_some,
      l.not_isKeyword, if_neg (by decide), l.trimEnd_code hsign]
    exact l.isIdentifier_code hsign _
  · exact l.isIdentifier_code hsign _

/-- The line begins with no keyword. -/
lemma afterKeyword?_code (keyword : List Char) (hkeyword : isKeyword keyword = true)
    (hchars : keyword.all isIdentifierChar = true) :
    afterKeyword? keyword (l.code sign rest) = none := by
  refine afterKeyword?_of_name hchars (all_of_isIdentifier l.isIdentifier_name)
    (l.head?_gap hsign) ?_
  rintro hname
  have hnot := l.not_isKeyword
  rw [hname, hkeyword] at hnot
  exact absurd hnot (by decide)

end Code

/-- A line on which a name stands before an operator declares nothing.

**Proof sketch.** The first word is no keyword, because it is a name that goes on as an operator. If
the line assigns to anything, what stands before the equals sign ends in the operator and is no
identifier. -/
lemma statement_eq (before : Lexical) :
    statement (trimStart l.text) (scanLine before l.text).target = .other := by
  obtain ⟨sign, hsign, rest, hrest, -⟩ := l.exists_sign
  have htext : trimStart l.text = l.code sign rest := by
    rw [text, hrest, trimStart_front]
  have hclass := l.afterKeyword?_code hsign rest "class".toList (by decide) (by decide)
  have hasync := l.afterKeyword?_code hsign rest "async".toList (by decide) (by decide)
  have hdef := l.afterKeyword?_code hsign rest "def".toList (by decide) (by decide)
  rw [htext, statement.eq_def, hclass]
  simp only [hasync, Option.getD_none, hdef]
  split
  · rfl
  · next target htarget =>
    obtain ⟨sign, hsign, rest, rfl⟩ := l.exists_of_target htarget
    rw [l.isIdentifier_assignedName hsign rest]
    rfl

/-- So what the line holds, if a statement begins on it, declares nothing. -/
lemma statement_of_statementLine? {before : Lexical} {s : StatementLine}
    (h : statementLine? before l.text = some s) : s.statement = .other := by
  simp only [statementLine?] at h
  split at h
  · exact absurd h (by simp)
  · obtain rfl := Option.some.inj h
    exact l.statement_eq before

end OperatorLine

end Python

namespace Language

/-- **A line on which a name stands before an operator declares nothing**, whatever comes after the
operator.

**Proof sketch.** If a statement begins on the line, it declares nothing
(`Python.OperatorLine.statement_eq`), and so nothing is reported of the line. -/
theorem scan_python_operator {lines : List String} {k : Nat} (line : Python.OperatorLine)
    (hline : lines[k]? = some (.ofList line.text)) :
    ∀ o ∈ (python.scan lines).occurrences, o.tag.line ≠ k := by
  rintro o ho rfl
  have hreported := reported?_of_mem_scan ho
  rw [Python.reported?, Option.bind_eq_some_iff] at hreported
  obtain ⟨s, hs, hreported⟩ := hreported
  rw [Python.readPage, List.getElem?_map, hline, Option.map_some, String.toList_ofList,
    Option.bind_some] at hs
  rw [line.statement_of_statementLine? hs] at hreported
  split at hreported
  · exact absurd hreported (by simp)
  · exact absurd hreported (by simp [Python.Statement.report?])

/-- An equals sign by itself behind an operator and a colon, below a line that declares a
variable. -/
theorem scan_python_operator_annotated :
    let line : Python.OperatorLine :=
      ⟨[], "x".toList, [' '], "+=", " a: b = 1".toList, by decide, by decide, by decide, by decide,
        by decide⟩
    let lines := ["x = 1", "x += a: b = 1"]
    let o : Occurrence := ⟨⟨"x", 0, .vars, none⟩, .vars, []⟩
    lines[1]? = some (.ofList line.text) ∧ o ∈ (python.scan lines).occurrences
      ∧ o.tag.line ≠ 1 := by
  intro line lines o
  have hline : lines[1]? = some (.ofList line.text) := by decide
  have ho : o ∈ (python.scan lines).occurrences := by
    decide +kernel
  exact ⟨hline, ho, scan_python_operator line hline o ho⟩

end Language

end Outliner
