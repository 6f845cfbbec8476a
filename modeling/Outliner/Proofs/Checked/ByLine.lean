import Outliner.ByLine.Ini
import Outliner.ByLine.Latex
import Outliner.ByLine.Nsis
import Outliner.ByLine.Perl
import Outliner.ByLine.Shell
import Outliner.ByLine.Tcl
import Outliner.Proofs.Checked.Cursor
import Outliner.Proofs.Checked.Reading

set_option autoImplicit false

/-!
# Line readers with checks

What is read off a line by itself, as a program reads it that keeps texts as bytes: with each cut,
each difference and each loop. Nothing goes wrong on any line, and the marks are those of the
readers.

## Main definitions

* `Outliner.Shell.run`, `Outliner.Ini.run`, `Outliner.Nsis.run`, `Outliner.Perl.run`,
  `Outliner.Latex.run`, `Outliner.Tcl.run` — the programs.

## Main results

* `Outliner.Shell.run_eq`, `Outliner.Ini.run_eq`, `Outliner.Nsis.run_eq`, `Outliner.Perl.run_eq`,
  `Outliner.Latex.run_eq`, `Outliner.Tcl.run_eq` — nothing goes wrong.
-/

namespace Outliner

open Checked

/-! ## Shell scripts -/

namespace Shell

/-- The name that a line gives in the place where a declaration has one. What follows a name is cut
off behind it. -/
def runDeclaredName (text : List Char) : Run (List Char) := do
  match ← Checked.afterKeyword? "function".toList text with
  | some rest => front isNameChar rest
  | none =>
    let name ← front isNameChar text
    if startsWithParentheses (← sliceFrom text (byteLength name)) then return name else return []

/-- The function that a line declares. -/
def runFunctionName? (line : List Char) : Run (Option (List Char)) := do
  let text := trimStart line
  if text.isEmpty || Language.shell.comments.isLineComment text then return none
  else
    let name ← runDeclaredName text
    return if name.isEmpty || keywords.contains (.ofList name) || startsWith ['-'] name then none
      else some name

/-- The marks of one line. -/
def runLine (line : Nat) (text : List Char) : Run (List Mark) := do
  let name? ← runFunctionName? text
  return (name?.map fun name => .once .functions (.ofList name) line).toList

/-- The marks of a script. -/
def run (lines : List (List Char)) : Run (List Mark) := Checked.eachLine runLine lines

/-- Reading the name of a function of a shell script runs. -/
lemma runDeclaredName_eq (text : List Char) : runDeclaredName text = .ok (declaredName text) := by
  rw [runDeclaredName, Checked.afterKeyword?_eq, ok_bind, declaredName]
  cases afterKeyword? "function".toList text with
  | some rest => exact front_eq isNameChar rest
  | none =>
    simp only [front_eq, ok_bind, sliceFrom_takeWhile]
    split
    · rfl
    · rfl

/-- Reading whether a line declares a function runs. -/
lemma runFunctionName?_eq (line : List Char) :
    runFunctionName? line = .ok (functionName? line) := by
  rw [runFunctionName?, functionName?, runDeclaredName_eq, ok_bind]
  split
  · rfl
  · rfl

/-- Nothing goes wrong in a shell script. -/
theorem run_eq (lines : List (List Char)) : run lines = .ok (marks lines) := by
  refine eachLine_eq (fun line text => ?_) lines
  rw [runLine, runFunctionName?_eq]
  rfl

end Shell

/-! ## Configuration files -/

namespace Ini

/-- The key in front of the first separator, where the line is cut. -/
def runKeyName? (text : List Char) : Run (Option (List Char)) := do
  match byteIndex? isSeparator text with
  | none => return none
  | some stop =>
    let name := trim (← sliceTo text stop)
    return if name.isEmpty then none else some name

/-- What a line declares, if it declares something. -/
def runDeclared? (line : List Char) : Run (Option Entry) := do
  let text := trim line
  if text.isEmpty || Language.ini.comments.isLineComment text then return none
  else match text with
    | '[' :: header => return (headerName? header).map .header
    | _ => return (← runKeyName? text).map .key

/-- The marks of one line. -/
def runLine (line : Nat) (text : List Char) : Run (List Mark) := do
  match ← runDeclared? text with
  | none => return []
  | some (.header name) =>
    return [.leave, .enter {
      group := .sections
      tag := { name := .ofList name, line := line, kind := .sections }
      labels := [(.vars, "Keys")] }]
  | some (.key name) => return [.leaf .vars (.ofList name) line]

/-- The marks of a file. -/
def run (lines : List (List Char)) : Run (List Mark) := Checked.eachLine runLine lines

/-- Reading the name of a key runs. -/
lemma runKeyName?_eq (text : List Char) : runKeyName? text = .ok (keyName? text) := by
  rw [runKeyName?, byteIndex?_eq, keyName?]
  cases text.any isSeparator with
  | false => rfl
  | true =>
    change (do let name := trim (← sliceTo text _); pure _) = _
    rw [sliceTo_takeWhile]
    rfl

/-- Reading what a line of a configuration file declares runs. -/
lemma runDeclared?_eq (line : List Char) : runDeclared? line = .ok ( entry? line) := by
  rw [runDeclared?, entry?]
  generalize trim line = text
  rw [runKeyName?_eq]
  split
  · rfl
  · cases text with
    | nil => rfl
    | cons c header =>
      by_cases hc : c = '['
      · subst hc
        rfl
      · simp [hc]

/-- Nothing goes wrong in a configuration file. -/
theorem run_eq (lines : List (List Char)) : run lines = .ok (marks lines) := by
  refine eachLine_eq (fun line text => ?_) lines
  rw [runLine, runDeclared?_eq, ok_bind, lineMarks]
  cases entry? text with
  | none => rfl
  | some found => cases found <;> rfl

end Ini

/-! ## Installer scripts -/

namespace Nsis

/-- The text after the first end of a block comment, where it is cut, without its leading blanks. -/
def runAfterComment? (text : List Char) : Run (Option (List Char)) := do
  match byteOffset? "*/".toList text with
  | none => return none
  | some stop => return some (trimStart (← sliceFrom text (stop + 2)))

/-- The code of a line outside block comments, without its leading blanks, or nothing if a comment
is open at the end of the line. -/
def runUncomment (inComment : Bool) (line : List Char) : Run (Option (List Char)) := do
  let text := trimStart line
  match ← (if inComment then runAfterComment? text else return some text) with
  | none => return none
  | some code => if startsWith "/*".toList code then runAfterComment? code else return some code

/-- One pass of the loop that takes arguments off a text: it goes over blanks and takes one argument
to those found before, if it is not empty. -/
def runArgument (so : List (List Char) × List Char) :
    Run (List (List Char) ⊕ List (List Char) × List Char) :=
  match trimStart so.2 with
  | [] => return .inl so.1
  | c :: text =>
    if beginsComment c then return .inl so.1
    else if isQuote c then
      let argument := text.takeWhile (· != c)
      return .inr
        (so.1 ++ (if argument.isEmpty then [] else [argument]), (text.dropWhile (· != c)).drop 1)
    else
      return .inr (so.1 ++ [c :: text.takeWhile (!isBlank ·)], text.dropWhile (!isBlank ·))

/-- The arguments in a text. -/
def runArguments (text : List Char) : Run (List (List Char)) :=
  loop (·.2.length) runArgument ([], text)

/-- What follows the keyword and the blanks after it. The keyword is looked for in a copy of the
text in small letters; how much of it is left there is taken from the end of the text. -/
def runAfterKeywordAnyCase? (keyword : String) (text : List Char) : Run (Option (List Char)) := do
  match ← Checked.afterKeyword? keyword.toList (text.map Char.toLower) with
  | none => return none
  | some rest => return some (← sliceFrom text (← minus (byteLength text) (byteLength rest)))

/-- What follows the keyword of a section or, failing that, of a group of sections. -/
def runAfterSection? (text : List Char) : Run (Option (List Char)) := do
  match ← runAfterKeywordAnyCase? "section" text with
  | some rest => return some rest
  | none => runAfterKeywordAnyCase? "sectiongroup" text

/-- The kind and the name that a line of code declares. -/
def runDeclaration? (code : List Char) : Run (Option (Kind × List Char)) := do
  match ← runAfterKeywordAnyCase? "function" code with
  | some rest => return (← runArguments rest).head?.map (.functions, ·)
  | none =>
    match ← runAfterSection? code with
    | some rest => return ((← runArguments rest).find? (!startsWith ['/'] ·)).map (.sections, ·)
    | none =>
      match ← runAfterKeywordAnyCase? "!macro" code with
      | some rest => return (← runArguments rest).head?.map (.macros, ·)
      | none => return none

/-- Whether a block comment is open after a line, and the marks of the line. -/
def runLine (inComment : Bool) (line : Nat) (text : List Char) : Run (Bool × List Mark) := do
  match ← runUncomment inComment text with
  | none => return (true, [])
  | some code =>
    if code.isEmpty || Language.nsis.comments.isLineComment code then return (false, [])
    else
      let declared ← runDeclaration? code
      return (false, (declared.map fun (kind, name) => .leaf kind (.ofList name) line).toList)

/-- The marks of a script. -/
def run (lines : List (List Char)) : Run (List Mark) :=
  Prod.snd <$> Checked.readLines runLine 0 false lines

/-- Looking for the end of a comment runs. -/
lemma runAfterComment?_eq (text : List Char) :
    runAfterComment? text = .ok (afterComment? text) := by
  rw [runAfterComment?, byteOffset?_eq, afterComment?, afterFirst?]
  cases h : offset? "*/".toList text with
  | none => rfl
  | some n =>
    have hcut : sliceFrom text (byteLength (text.take n) + 2) = .ok (text.drop (n + 2)) :=
      sliceFrom_offset h
    change (do pure (some (trimStart (← sliceFrom text _)))) = _
    rw [hcut]
    rfl

/-- Taking the comments out of a line runs. -/
lemma runUncomment_eq (inComment : Bool) (line : List Char) :
    runUncomment inComment line = .ok (uncomment inComment line) := by
  have hstart :
      (if inComment then runAfterComment? (trimStart line) else return some (trimStart line))
      = .ok (if inComment then afterComment? (trimStart line) else some (trimStart line)) := by
    rw [runAfterComment?_eq, apply_ite Except.ok]
    rfl
  rw [runUncomment, uncomment]
  simp only [hstart, ok_bind]
  cases if inComment then afterComment? (trimStart line) else some (trimStart line) with
  | none => rfl
  | some code =>
    change (if _ then _ else _) = Except.ok (if _ then _ else _)
    rw [runAfterComment?_eq, apply_ite Except.ok]
    rfl

/-- A pass at a character that is not blank. -/
lemma runArgument_cons {c : Char} (hblank : ¬isBlank c = true) (found : List (List Char))
    (text : List Char) :
    runArgument (found, c :: text)
      = if beginsComment c then .ok (.inl found)
        else if isQuote c then
          .ok (.inr
            (found ++ (if (text.takeWhile (· != c)).isEmpty then [] else [text.takeWhile (· != c)]),
              (text.dropWhile (· != c)).drop 1))
        else
          .ok (.inr (found ++ [c :: text.takeWhile (!isBlank ·)],
            text.dropWhile (!isBlank ·))) := by
  rw [runArgument, trimStart, List.dropWhile_cons_of_neg hblank]
  rfl

/-- What is left behind a run of characters is shorter than the text in which the run begins. -/
lemma length_drop_dropWhile_lt (p : Char → Bool) (n : Nat) (c : Char) (text : List Char) :
    ((text.dropWhile p).drop n).length < (c :: text).length := by
  have hdrop : (text.dropWhile p).length ≤ text.length := length_dropWhile_le p text
  rw [List.length_drop, List.length_cons]
  omega

/-- **The arguments are taken off a text one by one.**

**Proof sketch.** Induction on the text, as its arguments are read: each case of the reader is a
pass of the loop, but for a blank, over which the pass goes that takes what follows it. -/
lemma loop_runArgument (found : List (List Char)) (text : List Char) :
    loop (·.2.length) runArgument (found, text) = .ok (found ++ arguments text) := by
  induction text using arguments.induct generalizing found with
  | case1 =>
    rw [arguments, List.append_nil]
    exact loop_of_result rfl
  | case2 c text hblank ih =>
    rw [arguments, if_pos hblank]
    refine loop_of_le ?_ (Nat.le_succ _) (ih found)
    rw [runArgument, runArgument, trimStart, List.dropWhile_cons_of_pos hblank]
    rfl
  | case3 c text hblank hcomment =>
    rw [arguments, if_neg hblank, if_pos hcomment, List.append_nil]
    refine loop_of_result ?_
    rw [runArgument_cons hblank, if_pos hcomment]
  | case4 c text hblank hcomment hquote argument hempty ih =>
    rw [arguments, if_neg hblank, if_neg hcomment, if_pos hquote, if_pos hempty, ← ih found]
    refine loop_of_next ?_ (length_drop_dropWhile_lt _ 1 c text)
    rw [runArgument_cons hblank, if_neg hcomment, if_pos hquote, if_pos hempty, List.append_nil]
  | case5 c text hblank hcomment hquote argument hempty ih =>
    rw [arguments, if_neg hblank, if_neg hcomment, if_pos hquote, if_neg hempty,
      List.append_cons, ← ih]
    refine loop_of_next ?_ (length_drop_dropWhile_lt _ 1 c text)
    rw [runArgument_cons hblank, if_neg hcomment, if_pos hquote, if_neg hempty]
  | case6 c text hblank hcomment hquote ih =>
    rw [arguments, if_neg hblank, if_neg hcomment, if_neg hquote, List.append_cons, ← ih]
    refine loop_of_next ?_ (length_drop_dropWhile_lt _ 0 c text)
    rw [runArgument_cons hblank, if_neg hcomment, if_neg hquote]

/-- Reading the arguments of a command runs. -/
lemma runArguments_eq (text : List Char) : runArguments text = .ok (arguments text) :=
  loop_runArgument [] text

/-- Looking for a keyword in any letters runs. -/
lemma runAfterKeywordAnyCase?_eq (keyword : String) (text : List Char) :
    runAfterKeywordAnyCase? keyword text = .ok (afterKeywordAnyCase? keyword text) := by
  rw [runAfterKeywordAnyCase?, afterKeywordAnyCase?, afterKeyword?_eq, ok_bind]
  cases h : Outliner.afterKeyword? keyword.toList (text.map Char.toLower) with
  | none => rfl
  | some rest =>
    obtain ⟨hle, hcut⟩ := sliceFrom_lowered (afterKeyword?_suffix h)
    simp only [minus_of_le hle, hcut, ok_bind]
    rfl

/-- Looking for the keyword of a section runs. -/
lemma runAfterSection?_eq (text : List Char) :
    runAfterSection? text
      = .ok ((afterKeywordAnyCase? "section" text).or
          (afterKeywordAnyCase? "sectiongroup" text)) := by
  rw [runAfterSection?, runAfterKeywordAnyCase?_eq, ok_bind, runAfterKeywordAnyCase?_eq]
  cases afterKeywordAnyCase? "section" text with
  | none => rfl
  | some rest => rfl

/-- Reading what a line of an installer script declares runs. -/
lemma runDeclaration?_eq (code : List Char) : runDeclaration? code = .ok (declaration? code) := by
  rw [runDeclaration?, declaration?]
  simp only [runAfterKeywordAnyCase?_eq, runAfterSection?_eq, ok_bind, runArguments_eq]
  cases afterKeywordAnyCase? "function" code with
  | some rest => rfl
  | none =>
    cases (afterKeywordAnyCase? "section" code).or (afterKeywordAnyCase? "sectiongroup" code) with
    | some rest => rfl
    | none =>
      cases afterKeywordAnyCase? "!macro" code with
      | some rest => rfl
      | none => rfl

/-- Reading a line runs. -/
lemma runLine_eq (inComment : Bool) (line : Nat) (text : List Char) :
    runLine inComment line text = .ok (readLine inComment line text) := by
  rw [runLine, runUncomment_eq, ok_bind, readLine]
  cases uncomment inComment text with
  | none => rfl
  | some code =>
    simp only [runDeclaration?_eq, ok_bind]
    split
    · rfl
    · rfl

/-- Nothing goes wrong in an installer script. -/
theorem run_eq (lines : List (List Char)) : run lines = .ok (marks lines) := by
  rw [run, readLines_eq runLine_eq]
  rfl

end Nsis

/-! ## Perl sources -/

namespace Perl

/-- The qualified name at the front of the text, which is cut behind it, without separators at its
end. -/
def runLeadingQualifiedName (text : List Char) : Run (List Char) := do
  let name ← front (fun c => isIdentifierChar c || isJoint c) text
  return (name.reverse.dropWhile isJoint).reverse

/-- Whether the text is a variable. Its sigil is cut off. -/
def runIsVariable (text : List Char) : Run Bool := do
  match text with
  | sigil :: first :: _ =>
    if (sigil == '$' || sigil == '@' || sigil == '%') && (isAlphabetic first || first == '_') then
      return (← sliceFrom text 1).all fun c => isIdentifierChar c || c == ':'
    else return false
  | _ => return false

/-- The variables listed before the first equals sign or semicolon. -/
def runListedVariables (text : List Char) : Run (List (List Char)) :=
  Checked.filter runIsVariable
    (pieces separatesVariables (text.takeWhile fun c => c != '=' && c != ';'))

/-- What a line of code declares, its leading blanks removed. -/
def runStatement (text : List Char) : Run Statement := do
  match ← Checked.afterKeyword? "package".toList text with
  | some rest => return .package (← runLeadingQualifiedName rest)
  | none =>
    match ← Checked.afterKeyword? "sub".toList text with
    | some rest => return .subroutine (← runLeadingQualifiedName rest)
    | none =>
      match ← Checked.afterKeyword? "our".toList text with
      | some rest => return .vars (← runListedVariables rest)
      | none => return .other

/-- Whether the line begins embedded documentation. Its equals sign is cut off. -/
def runBeginsDocumentation (line : List Char) : Run Bool := do
  if startsWith ['='] line then return (← sliceFrom line 1).head?.any Char.isAlpha
  else return false

/-- The state after a line and its marks. -/
def runLine (state : State) (line : Nat) (text : List Char) : Run (State × List Mark) := do
  match state.mode with
  | .ended => return (state, [])
  | .documentation =>
    return (if endsDocumentation text then { state with mode := .code } else state, [])
  | .code =>
    if ← runBeginsDocumentation text then return ({ state with mode := .documentation }, [])
    else
      let code := trimStart text
      if isEndMarker code then return ({ state with mode := .ended }, [])
      else if code.isEmpty || Language.perl.comments.isLineComment code then return (state, [])
      else return declare state line (← runStatement code)

/-- The marks of a source. -/
def run (lines : List (List Char)) : Run (List Mark) :=
  Prod.snd <$> Checked.readLines runLine 0 {} lines

/-- Reading a qualified name runs. -/
lemma runLeadingQualifiedName_eq (text : List Char) :
    runLeadingQualifiedName text = .ok (leadingQualifiedName text) := by
  rw [runLeadingQualifiedName, front_eq]
  rfl

/-- Asking whether a word is a variable runs.

**Proof sketch.** Where the word begins with a sigil, the sigil takes one byte, so the cut behind it
is at a boundary. -/
lemma runIsVariable_eq (text : List Char) : runIsVariable text = .ok (isVariable text) := by
  match text with
  | [] => rfl
  | [_] => rfl
  | sigil :: first :: rest =>
    change (if _ then _ else _) = Except.ok (_ && _)
    cases hsigil : (sigil == '$' || sigil == '@' || sigil == '%')
        && (isAlphabetic first || first == '_') with
    | false => rfl
    | true =>
      have hsize : sigil.utf8Size = 1 := by
        simp only [Bool.and_eq_true, Bool.or_eq_true, beq_iff_eq] at hsigil
        obtain ⟨(rfl | rfl) | rfl, -⟩ := hsigil
        · rfl
        · rfl
        · rfl
      have hcut : sliceFrom (sigil :: first :: rest) 1 = .ok (first :: rest) :=
        hsize ▸ sliceFrom_cons sigil (first :: rest)
      rw [if_pos rfl, hcut]
      rfl

/-- Reading the variables of a list runs. -/
lemma runListedVariables_eq (text : List Char) :
    runListedVariables text = .ok (listedVariables text) :=
  filter_eq runIsVariable_eq _

/-- Reading a statement runs. -/
lemma runStatement_eq (text : List Char) : runStatement text = .ok (statement text) := by
  rw [runStatement, statement]
  simp only [afterKeyword?_eq, ok_bind, runLeadingQualifiedName_eq, runListedVariables_eq]
  cases Outliner.afterKeyword? "package".toList text with
  | some rest => rfl
  | none =>
    cases Outliner.afterKeyword? "sub".toList text with
    | some rest => rfl
    | none =>
      cases Outliner.afterKeyword? "our".toList text with
      | some rest => rfl
      | none => rfl

/-- Asking whether a line begins documentation runs.

**Proof sketch.** A line that begins with an equals sign is cut behind it, which takes one byte. Any
other line begins no documentation. -/
lemma runBeginsDocumentation_eq (line : List Char) :
    runBeginsDocumentation line = .ok (beginsDocumentation line) := by
  cases line with
  | nil => rfl
  | cons c text =>
    by_cases hc : c = '='
    · have hstarts : startsWith ['='] (c :: text) = true := startsWith_iff.2 ⟨text, by rw [hc]; rfl⟩
      have hcut : sliceFrom (c :: text) 1 = .ok text := by
        rw [hc]
        exact sliceFrom_cons '=' text
      rw [runBeginsDocumentation, if_pos hstarts, hcut, hc]
      cases text with
      | nil => rfl
      | cons d text => rfl
    · have hstarts : startsWith ['='] (c :: text) = false := by
        simp [startsWith, after?, Ne.symm hc]
      rw [runBeginsDocumentation, hstarts]
      cases text with
      | nil => simp [beginsDocumentation]
      | cons d text => simp [beginsDocumentation, hc]

/-- Reading a line runs. -/
lemma runLine_eq (state : State) (line : Nat) (text : List Char) :
    runLine state line text = .ok (readLine state line text) := by
  rw [runLine, readLine]
  cases state.mode with
  | ended => rfl
  | documentation => rfl
  | code =>
    simp only [runBeginsDocumentation_eq, ok_bind, runStatement_eq]
    split
    · rfl
    · split
      · rfl
      · split
        · rfl
        · rfl

/-- Nothing goes wrong in a Perl source. -/
theorem run_eq (lines : List (List Char)) : run lines = .ok (marks lines) := by
  rw [run, readLines_eq runLine_eq]
  rfl

end Perl

/-! ## LaTeX documents -/

namespace Latex

/-- The offset of the percent sign that begins the comment of a line. -/
def commentOffset? (escaped : Bool) : List Char → Option Nat
  | [] => none
  | c :: line =>
    if c = '\\' then (commentOffset? (!escaped) line).map (· + c.utf8Size)
    else if c = '%' ∧ escaped = false then some 0
    else (commentOffset? false line).map (· + c.utf8Size)

/-- The line up to its comment, where it is cut, or up to its end. -/
def runUncomment (line : List Char) : Run (List Char) :=
  sliceTo line ((commentOffset? false line).getD (byteLength line))

/-- One pass of the loop to the end of a group, with the number of open groups. -/
def runGroup (opening closing : Char) (so : Nat × Checked.Cursor) :
    Run (Checked.Cursor ⊕ Nat × Checked.Cursor) := do
  match ← so.2.next with
  | (none, c) => return .inl c
  | (some ch, c) =>
    if ch = '\\' then return .inr (so.1, (← c.next).2)
    else if ch = opening then return .inr (so.1 + 1, c)
    else if ch = closing then
      let depth ← minus so.1 1
      return if depth = 0 then .inl c else .inr (depth, c)
    else return .inr (so.1, c)

/-- The cursor after a group whose opening bracket is consumed. -/
def runPastGroup (opening closing : Char) (c : Checked.Cursor) : Run Checked.Cursor :=
  loop (·.2.left) (runGroup opening closing) (1, c)

/-- The argument in braces at the cursor, if there is one, and the cursor after it. -/
def runArgument? (c : Checked.Cursor) : Run (Option (List Char × Checked.Cursor)) := do
  match ← c.eat? ['\x7b'] with
  | none => return none
  | some inside =>
    let after ← runPastGroup '\x7b' '\x7d' inside
    let content ← slice inside.line inside.pos after.pos
    return some (normalized (dropClosingBrace content), after)

/-- An element named by the argument in braces at the cursor, and the cursor after it. -/
def runNamed (kind : Kind) (line : Nat) (c : Checked.Cursor) : Run (Checked.Step Unit Mark) := do
  match ← runArgument? c with
  | none => return { state := (), cursor := c }
  | some (name, after) =>
    return { state := (), cursor := after,
             found := if name.isEmpty then [] else [.leaf kind (.ofList name) line] }

/-- A part of the document, after its command: a star, an optional title and the title. -/
def runDocumentPart (line : Nat) (c : Checked.Cursor) : Run (Checked.Step Unit Mark) := do
  let starred ← (← c.eat ['*']).skipBlanks
  let shortened ←
    match ← starred.eat? ['['] with
    | some inside => runPastGroup '[' ']' inside
    | none => pure starred
  runNamed .sections line (← shortened.skipBlanks)

/-- The definition of a macro, after its command: a star and the macro, perhaps in braces. -/
def runDefinition (line : Nat) (c : Checked.Cursor) : Run (Checked.Step Unit Mark) := do
  let starred ← (← c.eat ['*']).skipBlanks
  let braced := (← starred.eat? ['\x7b']).isSome
  let inside ← (← starred.eat ['\x7b']).skipBlanks
  match ← inside.eat? ['\\'] with
  | none => return { state := (), cursor := inside }
  | some there =>
    let (name, after) ← there.span fun ch => isAlphabetic ch || ch == '@'
    let stop ← if braced then (← after.skipBlanks).eat ['\x7d'] else pure after
    return { state := (), cursor := stop,
             found := if name.isEmpty then [] else [.once .macros (.ofList name) line] }

/-- One step along a line. -/
def runStep (line : Nat) (_ : Unit) (c : Checked.Cursor) (_ : Char) :
    Run (Checked.Step Unit Mark) := do
  match ← c.beyond ['\\'] with
  | (false, stop) => return { state := (), cursor := stop }
  | (true, here) =>
    let (letters, after) ← here.span isAlphabetic
    let command := String.ofList letters
    if letters.isEmpty then return { state := (), cursor := (← after.next).2 }
    else if sectionCommands.contains command then runDocumentPart line after
    else if macroCommands.contains command then runDefinition line after
    else if command = "newenvironment" then
      runNamed environments line (← (← after.eat ['*']).skipBlanks)
    else return { state := (), cursor := after }

/-- The marks of one line. -/
def runLine (line : Nat) (text : List Char) : Run (List Mark) := do
  return (← Checked.walk (runStep line) () (.start (← runUncomment text))).2

/-- The marks of a document. -/
def run (lines : List (List Char)) : Run (List Mark) := Checked.eachLine runLine lines

/-- A comment begins behind what is left of the line; without one the whole line is left.

**Proof sketch.** Induction on the line. A character that is left takes its own bytes on both sides,
and at the percent sign nothing is left. -/
lemma commentOffset?_getD (escaped : Bool) (line : List Char) :
    (commentOffset? escaped line).getD (byteLength line)
      = byteLength (uncommentFrom escaped line) := by
  have hnext (c : Char) (text : List Char) (stop : Option Nat) :
      (stop.map (· + c.utf8Size)).getD (byteLength (c :: text))
        = c.utf8Size + stop.getD (byteLength text) := by
    cases stop with
    | none => rfl
    | some stop => exact Nat.add_comm stop c.utf8Size
  induction line generalizing escaped with
  | nil => rfl
  | cons c line ih =>
    rw [commentOffset?, uncommentFrom]
    split
    · rw [hnext, ih, byteLength_cons]
    · split
      · rfl
      · rw [hnext, ih, byteLength_cons]

/-- What is left of a line is a beginning of it. -/
lemma uncommentFrom_isPrefix (escaped : Bool) (line : List Char) :
    uncommentFrom escaped line <+: line := by
  induction line generalizing escaped with
  | nil => exact List.nil_prefix
  | cons c line ih =>
    rw [uncommentFrom]
    split
    · exact List.cons_prefix_cons.2 ⟨rfl, ih (!escaped)⟩
    · split
      · exact List.nil_prefix
      · exact List.cons_prefix_cons.2 ⟨rfl, ih false⟩

/-- Taking the comment off a line runs. -/
lemma runUncomment_eq (line : List Char) : runUncomment line = .ok (uncomment line) := by
  rw [runUncomment, commentOffset?_getD]
  exact sliceTo_of_isPrefix (uncommentFrom_isPrefix false line)

/-- The length of a group that does not begin with a backslash. -/
lemma groupLength_cons {opening closing ch : Char} (h : ch ≠ '\\') (inner : Nat)
    (text : List Char) :
    groupLength opening closing inner (ch :: text)
      = if ch = opening then groupLength opening closing (inner + 1) text + 1
        else if ch = closing then
          match inner with
          | 0 => 1
          | inner + 1 => groupLength opening closing inner text + 1
        else groupLength opening closing inner text + 1 := by
  rw [groupLength.eq_def]
  split
  · next htext => cases htext
  · next htext => exact absurd (List.cons.inj htext).1 h
  · next htext => exact absurd (List.cons.inj htext).1 h
  · next htext =>
    obtain ⟨rfl, rfl⟩ := List.cons.inj htext
    rfl

/-- One pass at a character. -/
lemma runGroup_inBytes {opening closing ch : Char} {c : Cursor} (h : c.peek? = some ch)
    (depth : Nat) :
    runGroup opening closing (depth, c.inBytes)
      = if ch = '\\' then .ok (.inr (depth, (c.forward 2).inBytes))
        else if ch = opening then .ok (.inr (depth + 1, c.next.inBytes))
        else if ch = closing then
          (fun d => if d = 0 then .inl c.next.inBytes else .inr (d, c.next.inBytes))
            <$> minus depth 1
        else .ok (.inr (depth, c.next.inBytes)) := by
  rw [runGroup, Cursor.next_inBytes, ok_bind, h]
  simp only [Cursor.next_inBytes, ok_bind, Cursor.next_next]
  rfl

/-- At the end of the line a group ends too. -/
lemma loop_runGroup_end (opening closing : Char) (depth : Nat) {c : Cursor} (h : c.after = []) :
    loop (·.2.left) (runGroup opening closing) (depth, c.inBytes) = .ok c.inBytes := by
  have hpeek : c.peek? = none := List.head?_eq_none_iff.2 h
  refine loop_of_result ?_
  rw [runGroup, Cursor.next_inBytes, ok_bind, hpeek, Cursor.next, Cursor.forward_of_end h]
  rfl

/-- **A group is passed over to its closing bracket.**

**Proof sketch.** Induction on the characters that follow the cursor, as the length of the group is
found in them. One more group is open than there are within it, so that the number of open groups is
positive at every closing bracket. -/
lemma loop_runGroup (opening closing : Char) (inner : Nat) (c : Cursor) :
    loop (·.2.left) (runGroup opening closing) (inner + 1, c.inBytes)
      = .ok (c.forward (groupLength opening closing inner c.after)).inBytes := by
  induction inner, hn : c.after using groupLength.induct opening closing generalizing c with
  -- the end of the line
  | case1 inner =>
    rw [groupLength, Cursor.forward_of_end hn]
    exact loop_runGroup_end opening closing (inner + 1) hn
  -- a backslash at the end of the line
  | case2 inner =>
    have hpeek : c.peek? = some '\\' := List.head?_eq_some_iff.2 ⟨[], hn⟩
    have hafter : (c.forward 2).after = [] := by
      rw [Cursor.after_forward, hn]
      rfl
    have hstops : c.forward 1 = c.forward 2 := by
      rw [Cursor.forward, Cursor.forward, hn]
      rfl
    rw [groupLength, hstops, ← loop_runGroup_end opening closing (inner + 1) hafter]
    refine loop_of_next ?_ (Cursor.left_of_advances hpeek (Cursor.advances_forward (by decide) c))
    rw [runGroup_inBytes hpeek, if_pos rfl]
  -- a backslash and the character behind it
  | case3 inner head text ih =>
    have hpeek : c.peek? = some '\\' := List.head?_eq_some_iff.2 ⟨head :: text, hn⟩
    have hafter : (c.forward 2).after = text := by
      rw [Cursor.after_forward, hn]
      rfl
    rw [groupLength, Cursor.forward_succ_succ, ← ih (c.forward 2) hafter]
    refine loop_of_next ?_ (Cursor.left_of_advances hpeek (Cursor.advances_forward (by decide) c))
    rw [runGroup_inBytes hpeek, if_pos rfl]
  -- a bracket that opens
  | case4 inner text hlast hescape ih =>
    have hne : opening ≠ '\\' := Cursor.ne_backslash hlast hescape
    have hpeek : c.peek? = some opening := List.head?_eq_some_iff.2 ⟨text, hn⟩
    rw [groupLength_cons hne, if_pos rfl, Cursor.forward_succ,
      ← ih c.next (Cursor.after_next hn)]
    refine loop_of_next ?_ (Cursor.left_of_advances hpeek (Cursor.advances_next c))
    rw [runGroup_inBytes hpeek, if_neg hne, if_pos rfl]
  -- the bracket that closes the group
  | case5 text hlast hescape hopening =>
    have hne : closing ≠ '\\' := Cursor.ne_backslash hlast hescape
    have hpeek : c.peek? = some closing := List.head?_eq_some_iff.2 ⟨text, hn⟩
    rw [groupLength_cons hne, if_neg hopening, if_pos rfl]
    refine loop_of_result ?_
    rw [runGroup_inBytes hpeek, if_neg hne, if_neg hopening, if_pos rfl]
    rfl
  -- a bracket that closes a group within
  | case6 text inner hlast hescape hopening ih =>
    have hne : closing ≠ '\\' := Cursor.ne_backslash hlast hescape
    have hpeek : c.peek? = some closing := List.head?_eq_some_iff.2 ⟨text, hn⟩
    rw [groupLength_cons hne, if_neg hopening, if_pos rfl, Cursor.forward_succ,
      ← ih c.next (Cursor.after_next hn)]
    refine loop_of_next ?_ (Cursor.left_of_advances hpeek (Cursor.advances_next c))
    rw [runGroup_inBytes hpeek, if_neg hne, if_neg hopening, if_pos rfl]
    rfl
  -- any other character
  | case7 inner ch text hlast hescape hopening hclosing ih =>
    have hne : ch ≠ '\\' := Cursor.ne_backslash hlast hescape
    have hpeek : c.peek? = some ch := List.head?_eq_some_iff.2 ⟨text, hn⟩
    rw [groupLength_cons hne, if_neg hopening, if_neg hclosing, Cursor.forward_succ,
      ← ih c.next (Cursor.after_next hn)]
    refine loop_of_next ?_ (Cursor.left_of_advances hpeek (Cursor.advances_next c))
    rw [runGroup_inBytes hpeek, if_neg hne, if_neg hopening, if_neg hclosing]

/-- Passing over a group runs. -/
@[simp] lemma runPastGroup_eq (opening closing : Char) (c : Cursor) :
    runPastGroup opening closing c.inBytes = .ok (pastGroup opening closing c).inBytes :=
  loop_runGroup opening closing 0 c

/-- Reading an argument in braces runs. -/
@[simp] lemma runArgument?_eq (c : Cursor) :
    runArgument? c.inBytes
      = .ok ((argument? c).map fun found => (found.1, found.2.inBytes)) := by
  rw [runArgument?, Cursor.eat?_inBytes, ok_bind, argument?]
  cases c.eat? ['\x7b'] with
  | none => rfl
  | some inside =>
    simp only [Option.map_some, runPastGroup_eq, ok_bind]
    rw [pastGroup, Cursor.slice_inBytes]
    rfl

/-- Reading an element that is named by its argument runs. -/
lemma runNamed_eq (kind : Kind) (line : Nat) (c : Cursor) :
    runNamed kind line c.inBytes = .ok (named kind line c).inBytes := by
  rw [runNamed, runArgument?_eq, ok_bind, named]
  cases argument? c with
  | none => rfl
  | some found => rfl

/-- Reading a part of the document runs. -/
lemma runDocumentPart_eq (line : Nat) (c : Cursor) :
    runDocumentPart line c.inBytes = .ok (documentPart line c).inBytes := by
  rw [runDocumentPart, documentPart]
  simp only [Cursor.eat_inBytes, Cursor.skipBlanks_inBytes, Cursor.eat?_inBytes, ok_bind]
  cases (c.eat ['*']).skipBlanks.eat? ['['] with
  | none => simp [runNamed_eq]
  | some inside => simp [runNamed_eq]

/-- Reading the definition of a macro runs. -/
lemma runDefinition_eq (line : Nat) (c : Cursor) :
    runDefinition line c.inBytes = .ok (definition line c).inBytes := by
  rw [runDefinition, definition]
  simp only [Cursor.eat_inBytes, Cursor.skipBlanks_inBytes, Cursor.eat?_inBytes, ok_bind,
    Option.isSome_map]
  cases ((c.eat ['*']).skipBlanks.eat ['\x7b']).skipBlanks.eat? ['\\'] with
  | none => rfl
  | some there =>
    simp only [Option.map_some, Cursor.span_inBytes, ok_bind]
    cases ((c.eat ['*']).skipBlanks.eat? ['\x7b']).isSome with
    | false => rfl
    | true => simp

/-- An element that is named by its argument is read forward. -/
lemma reaches_named (kind : Kind) (line : Nat) (c : Cursor) :
    c.Reaches (named kind line c).cursor := by
  rw [named, argument?]
  cases h : c.eat? ['\x7b'] with
  | none => exact Cursor.Reaches.refl c
  | some inside => exact (Cursor.reaches_eat? h).trans (Cursor.reaches_forward _ inside)

/-- A part of the document is read forward. -/
lemma reaches_documentPart (line : Nat) (c : Cursor) :
    c.Reaches (documentPart line c).cursor := by
  have hstarred : c.Reaches (c.eat ['*']).skipBlanks :=
    (Cursor.reaches_eat _ c).trans (Cursor.reaches_skipBlanks _)
  rw [documentPart]
  cases h : (c.eat ['*']).skipBlanks.eat? ['['] with
  | none => exact (hstarred.trans (Cursor.reaches_skipBlanks _)).trans (reaches_named _ line _)
  | some inside =>
    have hshortened : c.Reaches (pastGroup '[' ']' inside) :=
      (hstarred.trans (Cursor.reaches_eat? h)).trans (Cursor.reaches_forward _ inside)
    exact (hshortened.trans (Cursor.reaches_skipBlanks _)).trans (reaches_named _ line _)

/-- The definition of a macro is read forward. -/
lemma reaches_definition (line : Nat) (c : Cursor) : c.Reaches (definition line c).cursor := by
  have hstarred : c.Reaches (c.eat ['*']).skipBlanks :=
    (Cursor.reaches_eat _ c).trans (Cursor.reaches_skipBlanks _)
  have hinside : c.Reaches ((c.eat ['*']).skipBlanks.eat ['\x7b']).skipBlanks :=
    (hstarred.trans (Cursor.reaches_eat _ _)).trans (Cursor.reaches_skipBlanks _)
  rw [definition]
  cases h : ((c.eat ['*']).skipBlanks.eat ['\x7b']).skipBlanks.eat? ['\\'] with
  | none => exact hinside
  | some there =>
    have hname : c.Reaches (there.span fun ch => isAlphabetic ch || ch == '@').2 :=
      (hinside.trans (Cursor.reaches_eat? h)).trans (Cursor.reaches_span _ there)
    cases ((c.eat ['*']).skipBlanks.eat? ['\x7b']).isSome with
    | false => exact hname
    | true => exact (hname.trans (Cursor.reaches_skipBlanks _)).trans (Cursor.reaches_eat _ _)

/-- A step runs and moves on.

**Proof sketch.** The step goes beyond the next backslash, which moves on. What follows is the name
of a command and what the command takes, which run and go forward. -/
lemma step_runs (line : Nat) {c : Cursor} {ch : Char} (_ : c.peek? = some ch) :
    (step line () c ch).RunsAs c (runStep line () c.inBytes ch) := by
  have hbeyond : c.Advances (c.beyond ['\\']).2 :=
    Cursor.advances_beyond (List.cons_ne_nil _ _) c
  rw [runStep, Cursor.beyond_inBytes, ok_bind, step]
  rcases hfound : c.beyond ['\\'] with ⟨found, here⟩
  rw [hfound] at hbeyond
  cases found with
  | false => exact ⟨rfl, hbeyond⟩
  | true =>
    have hcommand : c.Advances (here.span isAlphabetic).2 :=
      hbeyond.trans (Cursor.reaches_span _ here)
    simp only [Cursor.span_inBytes, ok_bind]
    refine .ite (fun _ => ⟨by simp, hcommand.trans (Cursor.reaches_forward 1 _)⟩) fun _ => ?_
    refine .ite (fun _ => ⟨runDocumentPart_eq line _, hcommand.trans (reaches_documentPart line _)⟩)
      fun _ => ?_
    refine .ite (fun _ => ⟨runDefinition_eq line _, hcommand.trans (reaches_definition line _)⟩)
      fun _ => ?_
    refine .ite (fun _ => ⟨by simp [runNamed_eq], ?_⟩) fun _ => ⟨rfl, hcommand⟩
    exact ((hcommand.trans (Cursor.reaches_eat _ _)).trans (Cursor.reaches_skipBlanks _)).trans
      (reaches_named _ line _)

/-- Reading a line runs. -/
lemma runLine_eq (line : Nat) (text : List Char) :
    runLine line text = .ok (lineMarks line text) := by
  rw [runLine, runUncomment_eq, ok_bind, Cursor.walk_start fun _ _ _ => step_runs line]
  rfl

/-- Nothing goes wrong in a LaTeX document. -/
theorem run_eq (lines : List (List Char)) : run lines = .ok (marks lines) :=
  eachLine_eq runLine_eq lines

end Latex

/-! ## Tcl scripts -/

namespace Tcl

/-- The number of open braces after the next character. -/
def runBraceStep (depth : Nat) (c : Checked.Cursor) (ch : Char) : Run (Checked.Step Nat Mark) := do
  let after := (← c.next).2
  if ch = '\\' then return { state := depth, cursor := (← after.next).2 }
  else if ch = '"' then return { state := depth, cursor := (← after.toClosingQuote '"').2 }
  else if ch = '\x7b' then return { state := depth + 1, cursor := after }
  else if ch = '\x7d' then return { state := depth - 1, cursor := after }
  else return { state := depth, cursor := after }

/-- The number of open braces after a line, given the number before it. -/
def runBracesAfter (before : Nat) (line : List Char) : Run Nat :=
  Prod.fst <$> Checked.walk runBraceStep before (.start line)

/-- The word at the front of the text, which is cut behind it. -/
def runLeadingWord (text : List Char) : Run (List Char) :=
  front (fun c => !(isBlank c || c == '\x7b' || c == '\x7d' || c == ';')) text

/-- The word after two keywords, if it is not empty. -/
def runWordAfter? (first second : String) (text : List Char) : Run (Option (List Char)) := do
  match ← Checked.afterKeyword? first.toList text with
  | none => return none
  | some others =>
    match ← Checked.afterKeyword? second.toList others with
    | none => return none
    | some rest =>
      let word ← runLeadingWord rest
      return if word.isEmpty then none else some word

/-- What a line declares, its leading blanks removed. -/
def runCommand (text : List Char) : Run Command := do
  match ← Checked.afterKeyword? "proc".toList text with
  | some rest => return .procedure (← runLeadingWord rest)
  | none =>
    match ← Checked.afterKeyword? "method".toList text with
    | some rest => return .method (← runLeadingWord rest)
    | none =>
      match ← runWordAfter? "namespace" "eval" text with
      | some name => return .nameSpace name
      | none =>
        match ← runWordAfter? "oo::class" "create" text with
        | some name => return .classOf name
        | none => return .other

/-- The state after a line and its marks. -/
def runLine (state : State) (line : Nat) (text : List Char) : Run (State × List Mark) := do
  let code := trimStart text
  if code.isEmpty || Language.tcl.comments.isLineComment code then return (state, [])
  else
    let declared := declare state line (← runCommand code)
    let settled := settle (← runBracesAfter declared.1.braces text) declared.1
    return (settled.1, declared.2 ++ settled.2)

/-- The marks of a script. -/
def run (lines : List (List Char)) : Run (List Mark) :=
  Prod.snd <$> Checked.readLines runLine 0 {} lines

/-- A step that counts braces runs and moves on. -/
lemma braceStep_runs (depth : Nat) {c : Cursor} {ch : Char} (_ : c.peek? = some ch) :
    (braceStep depth c ch).RunsAs c (runBraceStep depth c.inBytes ch) := by
  have hnext : c.Advances c.next := Cursor.advances_next c
  rw [runBraceStep, Cursor.next_inBytes, ok_bind, braceStep]
  refine .ite (fun _ => ⟨by simp [Cursor.next_next], Cursor.advances_forward (by decide) c⟩)
    fun _ => ?_
  refine .ite (fun _ => ⟨by simp, ?_⟩) fun _ => ?_
  · exact hnext.trans (Cursor.advances_toClosingQuote _ _).reaches
  refine .ite (fun _ => ⟨rfl, hnext⟩) fun _ => ?_
  exact .ite (fun _ => ⟨rfl, hnext⟩) fun _ => ⟨rfl, hnext⟩

/-- Counting the braces of a line runs. -/
lemma runBracesAfter_eq (before : Nat) (line : List Char) :
    runBracesAfter before line = .ok (bracesAfter before line) := by
  rw [runBracesAfter, Cursor.walk_start fun depth _ _ => braceStep_runs depth]
  rfl

/-- Reading the word at the front of a text runs. -/
lemma runLeadingWord_eq (text : List Char) : runLeadingWord text = .ok (leadingWord text) :=
  front_eq _ text

/-- Reading the word after two keywords runs. -/
lemma runWordAfter?_eq (first second : String) (text : List Char) :
    runWordAfter? first second text = .ok (wordAfter? first second text) := by
  rw [runWordAfter?, wordAfter?, afterKeyword?_eq, ok_bind]
  cases Outliner.afterKeyword? first.toList text with
  | none => rfl
  | some others =>
    simp only [afterKeyword?_eq, ok_bind, Option.bind_some]
    cases Outliner.afterKeyword? second.toList others with
    | none => rfl
    | some rest =>
      simp only [runLeadingWord_eq, ok_bind]
      rfl

/-- Reading a command runs. -/
lemma runCommand_eq (text : List Char) : runCommand text = .ok (command text) := by
  rw [runCommand, command]
  simp only [afterKeyword?_eq, runWordAfter?_eq, runLeadingWord_eq, ok_bind]
  cases Outliner.afterKeyword? "proc".toList text with
  | some rest => rfl
  | none =>
    cases Outliner.afterKeyword? "method".toList text with
    | some rest => rfl
    | none =>
      cases wordAfter? "namespace" "eval" text with
      | some name => rfl
      | none =>
        cases wordAfter? "oo::class" "create" text with
        | some name => rfl
        | none => rfl

/-- Reading a line runs. -/
lemma runLine_eq (state : State) (line : Nat) (text : List Char) :
    runLine state line text = .ok (readLine state line text) := by
  rw [runLine, readLine]
  simp only [runCommand_eq, runBracesAfter_eq, ok_bind]
  split
  · rfl
  · rfl

/-- Nothing goes wrong in a Tcl source. -/
theorem run_eq (lines : List (List Char)) : run lines = .ok (marks lines) := by
  rw [run, readLines_eq runLine_eq]
  rfl

end Tcl

end Outliner
