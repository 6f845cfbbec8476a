import Mathlib.Tactic.Lemma
import Outliner.Scan
import Outliner.Proofs.Forest
import Outliner.Proofs.Python.Lexing

set_option autoImplicit false

/-!
# Printed Python sources

A forest of classes, functions and variables is printed line by line, four more spaces for each
class around. Reading what was printed gives the forest back: each item with its name, its line and
its members, and nothing of what the bodies of functions say.

The reader leaves a block when the next statement stands outside it, so after the lines of an item
some classes may still be open. They are those that a statement at the level of the item would
leave; with the marks that leave them, what was read are the marks of the item.

## Main definitions

* `Outliner.Python.Item` — a class, a function or a variable that can be printed.
* `Outliner.Python.Item.lines`, `Outliner.Python.linesOf` — printing.
* `Outliner.Python.Item.construct`, `Outliner.Python.constructsOf` — what is declared.
* `Outliner.Python.Reads` — lines at a level that are read as the given marks.

## Main results

* `Outliner.Python.Item.Printable.reads` — the lines of an item are read as the item.
* `Outliner.Language.scan_python_printed` — the document of a printed forest is the forest.
-/

namespace Outliner

namespace Python

/-! ## Printing -/

/-- An identifier that is not reserved. -/
structure Name where
  /-- The characters of the name. -/
  text : List Char
  /-- They are an identifier. -/
  identifier : isIdentifier text = true
  /-- It is not reserved. -/
  free : isKeyword text = false

/-- What can be printed. -/
inductive Item where
  /-- A class with its members. -/
  | classOf (name : Name) (members : List Item)
  /-- A function with the lines of its body. -/
  | function (name : Name) (body : List (List Char))
  /-- A variable. -/
  | variable (name : Name)

/-- The spaces in front of what stands in the given number of classes. -/
def margin (level : Nat) : List Char := List.replicate (4 * level) ' '

/-- The first line of a class. -/
def classLine (level : Nat) (name : Name) : List Char :=
  margin level ++ ("class ".toList ++ (name.text ++ ":".toList))

/-- The first line of a function. -/
def functionLine (level : Nat) (name : Name) : List Char :=
  margin level ++ ("def ".toList ++ (name.text ++ "(self):".toList))

/-- The line of a variable. -/
def variableLine (level : Nat) (name : Name) : List Char :=
  margin level ++ (name.text ++ " = 0".toList)

/-- The line of a class without members. -/
def passLine (level : Nat) : List Char := margin level ++ "pass".toList

mutual

/-- The lines of an item in the given number of classes. -/
def Item.lines (level : Nat) : Item → List (List Char)
  | .classOf name members =>
    classLine level name
      :: (if members.isEmpty then [passLine (level + 1)] else linesOf (level + 1) members)
  | .function name body => functionLine level name :: body
  | .variable name => [variableLine level name]

/-- The lines of a forest in the given number of classes. -/
def linesOf (level : Nat) : List Item → List (List Char)
  | [] => []
  | item :: items => item.lines level ++ linesOf level items

end

mutual

/-- What an item declares that is printed in the given number of classes, from the given line on. -/
def Item.construct (level line : Nat) : Item → Construct
  | .classOf name members =>
    .branch (classHeader name.text line) (constructsOf (level + 1) (line + 1) members)
  | .function name _ =>
    .leaf (if level = 0 then .functions else .methods) (.ofList name.text) line
  | .variable name => .leaf .vars (.ofList name.text) line

/-- What a forest declares that is printed in the given number of classes, from the given line
on. -/
def constructsOf (level line : Nat) : List Item → List Construct
  | [] => []
  | item :: items =>
    item.construct level line :: constructsOf level (line + (item.lines level).length) items

end

/-- A line that may stand in the body of a function in the given number of classes, whatever it
says. -/
structure IsBodyLine (level : Nat) (line : List Char) : Prop where
  /-- The line is not blank. -/
  nonblank : trimStart line ≠ []
  /-- It is indented deeper than the function. -/
  deeper : 4 * level < indentWidth line tabWidth
  /-- It holds no quote, bracket, backslash or number sign. -/
  plain : line.all isPlain = true

instance (level : Nat) (line : List Char) : Decidable (IsBodyLine level line) :=
  decidable_of_iff
    (trimStart line ≠ [] ∧ 4 * level < indentWidth line tabWidth ∧ line.all isPlain = true)
    ⟨fun h => ⟨h.1, h.2.1, h.2.2⟩, fun h => ⟨h.nonblank, h.deeper, h.plain⟩⟩

/-- The item can be printed in the given number of classes: the bodies of its functions stand deeper
than these. -/
inductive Item.Printable : Nat → Item → Prop
  /-- A class can be printed if its members can be printed in it. -/
  | ofClass {level : Nat} {name : Name} {members : List Item}
      (hmembers : ∀ item ∈ members, Printable (level + 1) item) :
      Printable level (.classOf name members)
  /-- A function can be printed if each line can stand in its body. -/
  | ofFunction {level : Nat} {name : Name} {body : List (List Char)}
      (hbody : ∀ line ∈ body, IsBodyLine level line) : Printable level (.function name body)
  /-- A variable can be printed. -/
  | ofVariable {level : Nat} {name : Name} : Printable level (.variable name)

/-! ## Statements of printed lines -/

variable {level : Nat} {state : State} {left : List Mark}

/-- No name holds a blank. -/
lemma Name.any_isBlank (name : Name) : name.text.any isBlank = false :=
  any_isBlank_of_isIdentifier name.identifier

/-- No character of a name makes a difference to the reader. -/
lemma Name.all_isInert (name : Name) : name.text.all isInert = true :=
  all_of_isIdentifierChar (fun _ => isInert_of_isIdentifierChar) name.identifier

/-- A name is none of the words that begin a statement. -/
lemma Name.ne_of_isKeyword (name : Name) {word : List Char} (h : isKeyword word = true) :
    name.text ≠ word := by
  rintro rfl
  rw [name.free] at h
  exact absurd h (by decide)

/-- A word that begins a statement, with a name after it. -/
lemma afterKeyword?_name {word : List Char} (hword : word ≠ []) (name : Name) (rest : List Char) :
    afterKeyword? word (word ++ ' ' :: (name.text ++ rest)) = some (name.text ++ rest) := by
  obtain ⟨c, tail, htext, hc⟩ := exists_cons_of_isIdentifier name.identifier
  refine afterKeyword?_space hword ?_
  rw [htext]
  exact isBlank_of_isIdentifierChar hc

/-- A name behind a keyword is the declared one. -/
lemma declaredName?_name (name : Name) {rest : List Char}
    (hrest : rest.head?.any isIdentifierChar = false) :
    declaredName? (name.text ++ rest) = some name.text := by
  rw [declaredName?, firstIdentifier?_name name.identifier hrest]
  exact Option.filter_eq_some_iff.2 ⟨rfl, name.identifier⟩

/-- A class is read as such. -/
lemma statement_class (name : Name) (target : Option (List Char)) :
    statement ("class ".toList ++ (name.text ++ ":".toList)) target
      = .classOf (some name.text) := by
  have hword : "class ".toList ++ (name.text ++ ":".toList)
      = "class".toList ++ ' ' :: (name.text ++ ":".toList) := rfl
  unfold statement
  rw [hword, afterKeyword?_name (by decide)]
  dsimp only
  rw [declaredName?_name name (by decide)]

/-- So is a function. -/
lemma statement_function (name : Name) (target : Option (List Char)) :
    statement ("def ".toList ++ (name.text ++ "(self):".toList)) target
      = .function (some name.text) := by
  have hword : "def ".toList ++ (name.text ++ "(self):".toList)
      = "def".toList ++ ' ' :: (name.text ++ "(self):".toList) := rfl
  have hnot : ∀ word : List Char, word.any isBlank = false → "def".toList ≠ word →
      afterKeyword? word ("def".toList ++ ' ' :: (name.text ++ "(self):".toList)) = none :=
    fun word hsolid hne => afterKeyword?_of_ne hsolid (by decide) rfl hne
  unfold statement
  rw [hword, hnot _ (by decide) (by decide), hnot _ (by decide) (by decide),
    Option.getD_none, afterKeyword?_name (by decide)]
  dsimp only
  rw [declaredName?_name name (by decide)]

/-- What is assigned to is the name. -/
lemma assignedName_name (name : Name) :
    assignedName (margin level ++ (name.text ++ [' '])) = name.text := by
  have htrim : trim (margin level ++ (name.text ++ [' '])) = name.text := by
    obtain ⟨c, tail, htext, hc⟩ := exists_cons_of_isIdentifier name.identifier
    have hstart := trimStart_indented (4 * level) (isBlank_of_isIdentifierChar hc) (tail ++ [' '])
    rw [trim, margin, htext, List.cons_append, hstart, ← List.cons_append, ← htext,
      trimEnd_blank (by decide) name.any_isBlank]
  have hcolon : name.text.contains ':' = false := by
    rw [List.contains_eq_mem, decide_eq_false_iff_not]
    intro hmem
    exact absurd (List.all_eq_true.1 (all_of_isIdentifier name.identifier) _ hmem) (by decide)
  rw [assignedName, htrim]
  simp only [hcolon, Bool.false_eq_true, if_false]

/-- An assignment is read as a variable. -/
lemma statement_variable (name : Name) :
    statement (name.text ++ " = 0".toList) (some (margin level ++ (name.text ++ [' '])))
      = .variable name.text := by
  have hnot : ∀ word : List Char, word.any isBlank = false → isKeyword word = true →
      afterKeyword? word (name.text ++ " = 0".toList) = none :=
    fun word hsolid hkeyword => afterKeyword?_of_ne hsolid name.any_isBlank (by decide)
      (name.ne_of_isKeyword hkeyword)
  unfold statement
  rw [hnot _ (by decide) (by decide), hnot _ (by decide) (by decide), Option.getD_none,
    hnot _ (by decide) (by decide)]
  simp only [assignedName_name, name.identifier, name.free, Bool.not_false, Bool.and_self, if_true]

/-- A line that does nothing declares nothing. -/
lemma statement_pass : statement "pass".toList none = .other := by decide

/-! ## Levels -/

/-- The indentations of the given number of classes, each in the one before, the innermost first. -/
def around : Nat → List Nat
  | 0 => []
  | level + 1 => 4 * level :: around level

/-- A statement at a level or deeper leaves no class that stands around the level. -/
lemma settle_around {indent : Nat} (h : 4 * level ≤ indent) (function : Option Nat) :
    settle indent { classes := around level, function := function }
      = ({ classes := around level, function := function.filter (· < indent) }, []) := by
  cases level with
  | zero => rfl
  | succ level =>
    have hless : decide (indent ≤ 4 * level) = false := decide_eq_false (by omega)
    simp [settle, around, hless]

/-- A statement around a class leaves the class. -/
lemma settle_around_succ : settle (4 * level) { classes := around (level + 1) }
    = ({ classes := around level }, [.leave]) := by
  have houter := settle_around (Nat.le_refl (4 * level)) none
  simp only [settle, Prod.mk.injEq, State.mk.injEq, true_and, List.replicate_eq_nil_iff] at houter
  obtain ⟨⟨hclasses, -⟩, hleft⟩ := houter
  simp [settle, around, hclasses, hleft]

/-- What meets a test at the front of a list meets a weaker test there, and further items may. -/
lemma takeWhile_dropWhile_of_imp {α : Type} {strong weak : α → Bool}
    (h : ∀ a, strong a = true → weak a = true) (l : List α) :
    l.takeWhile weak = l.takeWhile strong ++ (l.dropWhile strong).takeWhile weak
      ∧ l.dropWhile weak = (l.dropWhile strong).dropWhile weak := by
  induction l with
  | nil => exact ⟨rfl, rfl⟩
  | cons a l ih =>
    by_cases ha : strong a = true
    · simpa [ha, h a ha] using ih
    · simp [ha]

/-- What a statement leaves is left too where a deeper statement comes first.

**Proof sketch.** What is indented as much as the deeper statement is indented as much as the other
one, so the classes left by the first are among those left by the second. The same comparison
decides about the function. -/
lemma settle_settle {outer inner : Nat} (h : outer ≤ inner) (state : State) :
    settle outer state = ((settle outer (settle inner state).1).1,
      (settle inner state).2 ++ (settle outer (settle inner state).1).2) := by
  have hdeeper : ∀ indent, decide (inner ≤ indent) = true → decide (outer ≤ indent) = true := by
    intro indent hindent
    exact decide_eq_true (Nat.le_trans h (of_decide_eq_true hindent))
  obtain ⟨htake, hdrop⟩ := takeWhile_dropWhile_of_imp hdeeper state.classes
  obtain ⟨lexical, classes, function⟩ := state
  simp only [settle, Prod.mk.injEq, State.mk.injEq, true_and]
  refine ⟨⟨hdrop, ?_⟩, ?_⟩
  · rw [Option.filter_filter]
    congr 1
    funext indent
    have hless : indent < outer → indent < inner := fun hindent => Nat.lt_of_lt_of_le hindent h
    simpa using hless
  · rw [htake, List.length_append, List.replicate_add]

/-! ## Reading what was printed -/

/-- A statement at the level would leave what the marks tell, and then stand in the classes around
the level and in nothing else. -/
def SettlesAt (level : Nat) (state : State) (left : List Mark) : Prop :=
  settle (4 * level) state = ({ classes := around level }, left)

/-- A statement at a level, on a line that leaves the lexical state as it is, is declared among what
stands around the level; what is open deeper is left first.

**Proof sketch.** The line begins a statement, since its first character is one of names and so
neither blank nor the sign of a comment. Its indentation is four columns for each level, and what is
deeper is settled as the state says. -/
lemma readLine_at (hstate : SettlesAt level state left) {code : List Char}
    (hcode : code.head?.any isIdentifierChar = true)
    (hlexical : (scanLine {} (margin level ++ code)).lexical = {}) (line : Nat) :
    readLine state line (margin level ++ code) =
      let declared := declare (4 * level) line { classes := around level }
        (statement code (scanLine {} (margin level ++ code)).target)
      (declared.1, left ++ declared.2) := by
  obtain ⟨lexical, classes, function⟩ := state
  obtain rfl : lexical = {} := congrArg (fun result => result.1.lexical) hstate
  cases code with
  | nil => simp at hcode
  | cons c rest =>
    have hc : isIdentifierChar c = true := by simpa using hcode
    have hblank := isBlank_of_isIdentifierChar hc
    have hsign : startsWith ['#'] (c :: rest) = false := by
      rw [Bool.eq_false_iff]
      intro hstarts
      obtain ⟨tail, htail⟩ := startsWith_iff.1 hstarts
      obtain ⟨rfl, -⟩ := List.cons_eq_cons.1 htail
      exact absurd hc (by decide)
    have hline : statementLine? {} (margin level ++ c :: rest) = some ⟨4 * level,
        statement (c :: rest) (scanLine {} (margin level ++ c :: rest)).target⟩ := by
      simp only [statementLine?, margin, trimStart_indented _ hblank,
        indentWidth_indented _ _ hblank, hsign]
      rfl
    rw [readLine_eq]
    dsimp only
    rw [hline, hlexical]
    show readStatement { classes := classes, function := function } line _ = _
    rw [SettlesAt] at hstate
    rw [readStatement, hstate]
    rfl

/-- No space of a margin makes a difference to the reader. -/
lemma all_isInert_margin (level : Nat) : (margin level).all isInert = true :=
  List.all_eq_true.2 fun c hc => by
    rw [List.eq_of_mem_replicate hc]
    decide

/-- A name begins with a character of a name. -/
lemma Name.head (name : Name) (rest : List Char) :
    (name.text ++ rest).head?.any isIdentifierChar = true := by
  obtain ⟨c, tail, htext, hc⟩ := exists_cons_of_isIdentifier name.identifier
  rw [htext]
  exact hc

/-- The first line of a class enters it. -/
lemma readLine_class (hstate : SettlesAt level state left) (name : Name) (line : Nat) :
    readLine state line (classLine level name)
      = ({ classes := around (level + 1) }, left ++ [.enter (classHeader name.text line)]) := by
  have hinert : (margin level ++ ("class ".toList ++ (name.text ++ ":".toList))).all isInert
      = true := by
    simp only [List.all_append, all_isInert_margin, name.all_isInert]
    decide
  have hscan := scanLine_of_inert hinert
  rw [classLine, readLine_at hstate rfl (by rw [hscan]), statement_class]
  rfl

/-- The first line of a function reports it, as a method if there are classes around. -/
lemma readLine_function (hstate : SettlesAt level state left) (name : Name) (line : Nat) :
    readLine state line (functionLine level name)
      = ({ classes := around level, function := some (4 * level) }, left
        ++ [.leaf (if level = 0 then .functions else .methods) (.ofList name.text) line]) := by
  have hinert : (margin level ++ ("def ".toList ++ name.text)).all isInert = true := by
    simp only [List.all_append, all_isInert_margin, name.all_isInert]
    decide
  have hscan := lexical_scanLine_parameters hinert
  rw [List.append_assoc, List.append_assoc] at hscan
  rw [functionLine, readLine_at hstate rfl hscan, statement_function]
  cases level <;> rfl

/-- The line of a variable reports it. -/
lemma readLine_variable (hstate : SettlesAt level state left) (name : Name) (line : Nat) :
    readLine state line (variableLine level name)
      = ({ classes := around level }, left ++ [.leaf .vars (.ofList name.text) line]) := by
  have hinert : (margin level ++ name.text).all isInert = true := by
    rw [List.all_append, all_isInert_margin, name.all_isInert, Bool.and_self]
  have hscan := scanLine_assignment hinert
  rw [List.append_assoc, List.append_assoc] at hscan
  have hlexical : (scanLine {} (margin level ++ (name.text ++ " = 0".toList))).lexical = {} :=
    congrArg Scan.lexical hscan
  have htarget : (scanLine {} (margin level ++ (name.text ++ " = 0".toList))).target
      = some (margin level ++ (name.text ++ [' '])) := congrArg Scan.target hscan
  rw [variableLine, readLine_at hstate (name.head _) hlexical, htarget, statement_variable]
  rfl

/-- The line of a class without members reports nothing. -/
lemma readLine_pass (hstate : SettlesAt level state left) (line : Nat) :
    readLine state line (passLine level) = ({ classes := around level }, left ++ []) := by
  have hinert : (margin level ++ "pass".toList).all isInert = true := by
    rw [List.all_append, all_isInert_margin]
    decide
  have hscan := scanLine_of_inert hinert
  rw [passLine, readLine_at hstate rfl (by rw [hscan]), hscan]
  show (_, left ++ (declare _ _ _ (statement "pass".toList none)).2) = _
  rw [statement_pass]
  rfl

/-- A line of the body of a function is passed over.

**Proof sketch.** The line holds a statement that is deeper than the function, so the function stays
open and the statement is local. -/
lemma readLine_body {text : List Char} (h : IsBodyLine level text) (line : Nat) :
    readLine { classes := around level, function := some (4 * level) } line text
      = ({ classes := around level, function := some (4 * level) }, []) := by
  have hempty : (trimStart text).isEmpty = false := by
    rw [List.isEmpty_eq_false_iff]
    exact h.nonblank
  have hcomment : startsWith ['#'] (trimStart text) = false := by
    rw [Bool.eq_false_iff]
    intro hstarts
    obtain ⟨rest, hrest⟩ := startsWith_iff.1 hstarts
    have hmem : '#' ∈ trimStart text := by
      rw [hrest]
      exact List.mem_cons_self
    exact absurd (List.all_eq_true.1 h.plain '#' ((trimStart_suffix text).subset hmem)) (by decide)
  have hline : statementLine? {} text
      = some ⟨indentWidth text tabWidth, statement (trimStart text) (scanLine {} text).target⟩ := by
    simp only [statementLine?, hempty, hcomment]
    rfl
  have hlexical : (scanLine {} text).lexical = {} := lexical_scanLine_of_plain rfl h.plain
  rw [readLine_eq]
  dsimp only
  rw [hline, hlexical]
  show readStatement { classes := around level, function := some (4 * level) } line _ = _
  have hopen : (some (4 * level)).filter (· < indentWidth text tabWidth) = some (4 * level) := by
    simp [h.deeper]
  rw [readStatement, settle_around (Nat.le_of_lt h.deeper), hopen]
  rfl

/-- The body of a function is passed over. -/
lemma readLines_body {body : List (List Char)} (h : ∀ text ∈ body, IsBodyLine level text)
    (line : Nat) :
    readLines readLine line { classes := around level, function := some (4 * level) } body
      = ({ classes := around level, function := some (4 * level) }, []) := by
  induction body generalizing line with
  | nil => rfl
  | cons text body ih =>
    obtain ⟨hhere, hrest⟩ := List.forall_mem_cons.1 h
    rw [readLines, readLine_body hhere, ih hrest]
    rfl

/-- The lines are read, from the given line on, as the given marks where a statement at the level
may stand: with what is open deeper left before and after them, these are the marks. -/
def Reads (level line : Nat) (lines : List (List Char)) (marks : List Mark) : Prop :=
  ∀ state left, SettlesAt level state left →
    ∃ left', SettlesAt level (readLines readLine line state lines).1 left'
      ∧ (readLines readLine line state lines).2 ++ left' = left ++ marks

namespace Reads

variable {line : Nat} {a b : List (List Char)} {m n : List Mark}

/-- Nothing is read as nothing. -/
lemma nil : Reads level line [] [] := fun _ left hstate =>
  ⟨left, hstate, (List.append_nil left).symm⟩

/-- What is read line by line is read one after the other. -/
lemma append (ha : Reads level line a m) (hb : Reads level (line + a.length) b n) :
    Reads level line (a ++ b) (m ++ n) := by
  intro state left hstate
  obtain ⟨left', hstate', hmarks⟩ := ha state left hstate
  obtain ⟨left'', hstate'', hmarks'⟩ := hb _ left' hstate'
  refine ⟨left'', ?_, ?_⟩
  · rw [readLines_append]
    exact hstate''
  · rw [readLines_append, List.append_assoc, hmarks', ← List.append_assoc, hmarks,
      List.append_assoc]

/-- A line after which only the classes around the level are open. -/
lemma of_line {text : List Char} (h : ∀ {state left}, SettlesAt level state left →
    readLine state line text = ({ classes := around level }, left ++ m)) :
    Reads level line [text] m := by
  intro state left hstate
  refine ⟨[], ?_, ?_⟩
  · rw [readLines, h hstate]
    exact settle_around (Nat.le_refl _) none
  · rw [readLines, h hstate, List.append_nil]
    exact List.append_nil _

/-- The line of a variable is read as the variable. -/
lemma of_variable (name : Name) :
    Reads level line [variableLine level name] [.leaf .vars (.ofList name.text) line] :=
  of_line fun hstate => readLine_variable hstate name line

/-- The line of a class without members is read as nothing. -/
lemma of_pass : Reads level line [passLine level] [] :=
  of_line fun hstate => readLine_pass hstate line

/-- The lines of a function are read as the function. -/
lemma of_function (name : Name) {body : List (List Char)}
    (h : ∀ text ∈ body, IsBodyLine level text) : Reads level line (functionLine level name :: body)
      [.leaf (if level = 0 then .functions else .methods) (.ofList name.text) line] := by
  intro state left hstate
  refine ⟨[], ?_, ?_⟩
  · rw [readLines, readLine_function hstate, readLines_body h]
    show settle (4 * level) _ = _
    rw [settle_around (Nat.le_refl _), Option.filter_some_neg (by simp)]
  · rw [readLines, readLine_function hstate, readLines_body h, List.append_nil]
    exact List.append_nil _

/-- The lines of a class are read as the class, entered and left around its members.

**Proof sketch.** After the members a statement at the level of the class leaves what a statement
among the members would leave, and then the class. -/
lemma of_class (name : Name) (h : Reads (level + 1) (line + 1) b m) :
    Reads level line (classLine level name :: b)
      (.enter (classHeader name.text line) :: (m ++ [.leave])) := by
  intro state left hstate
  obtain ⟨left', hinner, hmarks⟩ :=
    h { classes := around (level + 1) } [] (settle_around (Nat.le_refl _) none)
  have hwidth : 4 * level ≤ 4 * (level + 1) := Nat.mul_le_mul_left 4 (Nat.le_succ level)
  refine ⟨left' ++ [.leave], ?_, ?_⟩
  · rw [readLines, readLine_class hstate]
    show settle (4 * level) _ = _
    rw [SettlesAt] at hinner
    rw [settle_settle hwidth, hinner, settle_around_succ]
  · rw [List.nil_append] at hmarks
    rw [readLines, readLine_class hstate, ← hmarks]
    simp

end Reads

/-! ## Forests -/

/-- If each item of a forest is read as the item, the forest is read as the forest. -/
lemma reads_linesOf {items : List Item}
    (h : ∀ item ∈ items, ∀ line, Reads level line (item.lines level)
      (item.construct level line).marks) (line : Nat) :
    Reads level line (linesOf level items)
      (Construct.marksOf (constructsOf level line items)) := by
  induction items generalizing line with
  | nil =>
    rw [linesOf, constructsOf, Construct.marksOf]
    exact Reads.nil
  | cons item items ih =>
    obtain ⟨hitem, hitems⟩ := List.forall_mem_cons.1 h
    rw [linesOf, constructsOf, Construct.marksOf]
    exact (hitem line).append (ih hitems _)

/-- **The lines of an item are read as the item.**

**Proof sketch.** Induction on the item. The members of a class are printed one level deeper, one
line further on. -/
theorem Item.Printable.reads {item : Item} (h : item.Printable level) (line : Nat) :
    Reads level line (item.lines level) (item.construct level line).marks := by
  induction h generalizing line with
  | @ofClass level name members hmembers ih =>
    rw [Item.lines, Item.construct, Construct.marks]
    refine Reads.of_class name ?_
    cases members with
    | nil =>
      rw [constructsOf, Construct.marksOf]
      exact Reads.of_pass
    | cons item members => exact reads_linesOf ih (line + 1)
  | @ofFunction level name body hbody =>
    rw [Item.lines, Item.construct, Construct.marks]
    exact Reads.of_function name hbody
  | @ofVariable level name =>
    rw [Item.lines, Item.construct, Construct.marks]
    exact Reads.of_variable name

end Python

/-- **Reading a printed forest gives the forest**: each class with its members, each function and
each variable, in the order in which they were printed, on the lines on which they were printed, and
nothing of what the bodies of functions say. -/
theorem Language.scan_python_printed {items : List Python.Item}
    (hitems : ∀ item ∈ items, item.Printable 0) :
    python.scan ((Python.linesOf 0 items).map String.ofList)
      = Document.ofForest Python.legend (Python.constructsOf 0 0 items) := by
  obtain ⟨left, hsettled, hmarks⟩ :=
    Python.reads_linesOf (fun item hitem => (hitems item hitem).reads) 0 {} [] rfl
  have hlines : ((Python.linesOf 0 items).map String.ofList).map String.toList
      = Python.linesOf 0 items := by simp [Function.comp_def]
  obtain ⟨n, rfl⟩ : ∃ n, left = List.replicate n .leave :=
    ⟨_, (congrArg Prod.snd hsettled).symm⟩
  show Document.ofMarks Python.legend (Python.marks _) = _
  rw [hlines, ← Document.ofMarks_forest, ← List.nil_append (Construct.marksOf _), ← hmarks,
    Document.ofMarks_leave]
  rfl

namespace Python

/-- A class in a class, and bodies that look like declarations. -/
def disguised : List Item :=
  [.classOf ⟨"A".toList, by decide, by decide⟩
    [.classOf ⟨"B".toList, by decide, by decide⟩ [],
      .function ⟨"m".toList, by decide, by decide⟩ ["        class C:".toList, "\tx = 1".toList]],
    .function ⟨"f".toList, by decide, by decide⟩ [" def g:".toList],
    .variable ⟨"x".toList, by decide, by decide⟩]

end Python

/-- Classes and functions in the bodies of functions are not reported.

**Proof sketch.** The items are printable, their lines are those of the source, and the expected
document is computed from the items. -/
theorem Language.scan_python_printed_disguised :
    (∀ item ∈ Python.disguised, item.Printable 0)
      ∧ python.scan ["class A:", "    class B:", "        pass", "    def m(self):",
          "        class C:", "\tx = 1", "def f(self):", " def g:", "x = 0"]
        = Document.ofForest Python.legend
          [.branch (Python.classHeader "A".toList 0)
              [.branch (Python.classHeader "B".toList 1) [], .leaf .methods "m" 3],
            .leaf .functions "f" 6, .leaf .vars "x" 8] := by
  have hprintable : ∀ item ∈ Python.disguised, item.Printable 0 := by
    refine List.forall_mem_cons.2 ⟨.ofClass ?_, List.forall_mem_cons.2 ⟨.ofFunction ?_, ?_⟩⟩
    · refine List.forall_mem_cons.2 ⟨.ofClass (List.forall_mem_nil _), ?_⟩
      exact List.forall_mem_singleton.2 (.ofFunction (by decide))
    · decide
    · exact List.forall_mem_singleton.2 .ofVariable
  have hlines : (Python.linesOf 0 Python.disguised).map String.ofList
      = ["class A:", "    class B:", "        pass", "    def m(self):",
          "        class C:", "\tx = 1", "def f(self):", " def g:", "x = 0"] := by decide
  refine ⟨hprintable, ?_⟩
  rw [← hlines, Language.scan_python_printed hprintable]
  rfl

end Outliner
