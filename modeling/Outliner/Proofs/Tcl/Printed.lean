import Mathlib.Tactic.Lemma
import Outliner.Scan
import Outliner.Proofs.Braces
import Outliner.Proofs.Forest
import Outliner.Proofs.Tcl.Counting

set_option autoImplicit false

/-!
# Printed Tcl scripts

A forest of name spaces and classes, with procedures in them and beside them and with methods in the
classes, is printed line by line. Reading what was printed gives the forest back: each scope under
its kind in the scope around it, each procedure and each method in the scope in which it stands, all
with their names and their lines, and nothing of what the bodies say.

The reader knows the open scopes by the number of braces that were open before each of them. Between
two items of a printed forest as many braces are open as scopes, so these numbers are known: the
innermost scope began where one brace less was open, and so on outward. In the body of a procedure
more braces are open, so that no scope is left before the body ends.

## Main definitions

* `Outliner.Tcl.Item`, `Outliner.Tcl.Member` — what can be printed anywhere, and in a class.
* `Outliner.Tcl.Item.lines`, `Outliner.Tcl.linesOf` — printing.
* `Outliner.Tcl.Item.construct`, `Outliner.Tcl.constructsOf` — what is declared.
* `Outliner.Tcl.within` — the state in which a line of a printed forest is read.

## Main results

* `Outliner.Tcl.bracesAfter_of_braceDepth?` — braces are counted on lines without quotes and
  backslashes.
* `Outliner.Tcl.readLines_body` — in a body only the number of open braces changes.
* `Outliner.Tcl.Item.reads`, `Outliner.Tcl.Member.reads` — items are read as what they declare, and
  leave nothing behind.
* `Outliner.Language.scan_tcl_printed` — the document of a printed forest is the forest.
-/

namespace Outliner

namespace Tcl

/-! ## Printing -/

/-- The blanks in front of a line. -/
structure Margin where
  /-- The characters of the margin. -/
  text : List Char
  /-- They are blanks. -/
  blank : text.all isBlank = true

/-- Whether the character may stand in the name of a scope, a procedure or a method. -/
def isNameChar (c : Char) : Bool := isIdentifierChar c || c == ':'

/-- The name of a scope, a procedure or a method. -/
structure Name where
  /-- The characters of the name. -/
  text : List Char
  /-- There are some. -/
  nonempty : text ≠ []
  /-- They are characters of names. -/
  chars : text.all isNameChar = true

/-- The words that begin a command of interest. -/
def commandWords : List String := ["proc", "method", "namespace", "oo::class"]

/-- Whether the character neither quotes text nor takes the next character along. -/
def isPlain (c : Char) : Bool := c != '"' && c != '\\'

/-- A line that may stand in the body of a procedure or a method, whatever it says. -/
structure IsBodyLine (line : List Char) : Prop where
  /-- It holds no quotes and no backslashes. -/
  plain : line.all isPlain = true
  /-- It is no comment. -/
  uncommented : (trimStart line).head? ≠ some '#'
  /-- Its first word is none of those that begin a command of interest. -/
  free : ∀ word ∈ commandWords, (trimStart line).takeWhile (!isBlank ·) ≠ word.toList

instance (line : List Char) : Decidable (IsBodyLine line) :=
  decidable_of_iff (line.all isPlain = true ∧ (trimStart line).head? ≠ some '#'
      ∧ ∀ word ∈ commandWords, (trimStart line).takeWhile (!isBlank ·) ≠ word.toList)
    ⟨fun h => ⟨h.1, h.2.1, h.2.2⟩, fun h => ⟨h.plain, h.uncommented, h.free⟩⟩

/-- The body of a procedure or a method. -/
structure Body where
  /-- Its lines. -/
  lines : List (List Char)
  /-- Each may stand there. -/
  readable : ∀ line ∈ lines, IsBodyLine line
  /-- They close the braces that they open, and no others. -/
  balanced : Balanced lines

mutual

/-- What can be printed anywhere. -/
inductive Item where
  /-- A name space. -/
  | nameSpace (margin : Margin) (name : Name) (members : List Item)
  /-- A class. -/
  | classOf (margin : Margin) (name : Name) (members : List Member)
  /-- A procedure. -/
  | procedure (margin : Margin) (name : Name) (body : Body)

/-- What can be printed in a class. -/
inductive Member where
  /-- What can be printed anywhere. -/
  | item (item : Item)
  /-- A method. -/
  | method (margin : Margin) (name : Name) (body : Body)

end

/-- The front of a line that begins a scope, a procedure or a method. -/
def lineFront (margin : Margin) (words : String) (name : Name) : List Char :=
  margin.text ++ (words.toList ++ ' ' :: name.text)

/-- The line with which a scope begins. -/
def scopeLine (margin : Margin) (words : String) (name : Name) : List Char :=
  lineFront margin words name ++ [' ', '\x7b']

/-- The line with which a procedure or a method begins. -/
def routineLine (margin : Margin) (word : String) (name : Name) : List Char :=
  lineFront margin word name ++ [' ', '\x7b', '\x7d', ' ', '\x7b']

/-- The line with which a scope, a procedure or a method ends. -/
def closingLine (margin : Margin) : List Char := margin.text ++ ['\x7d']

/-- The lines of a procedure or a method. -/
def routineLines (margin : Margin) (word : String) (name : Name) (body : Body) :
    List (List Char) :=
  routineLine margin word name :: (body.lines ++ [closingLine margin])

mutual

/-- The lines of an item. -/
def Item.lines : Item → List (List Char)
  | .nameSpace margin name members =>
    scopeLine margin "namespace eval" name :: (linesOf members ++ [closingLine margin])
  | .classOf margin name members =>
    scopeLine margin "oo::class create" name :: (linesOfMembers members ++ [closingLine margin])
  | .procedure margin name body => routineLines margin "proc" name body

/-- The lines of a member of a class. -/
def Member.lines : Member → List (List Char)
  | .item item => item.lines
  | .method margin name body => routineLines margin "method" name body

/-- The lines of a forest. -/
def linesOf : List Item → List (List Char)
  | [] => []
  | item :: items => item.lines ++ linesOf items

/-- The lines of the members of a class. -/
def linesOfMembers : List Member → List (List Char)
  | [] => []
  | member :: members => member.lines ++ linesOfMembers members

end

mutual

/-- What an item declares that is printed from the given line on. -/
def Item.construct (line : Nat) : Item → Construct
  | .nameSpace _ name members =>
    .branch (nameSpaceHeader name.text line) (constructsOf (line + 1) members)
  | .classOf _ name members =>
    .branch (classHeader name.text line) (constructsOfMembers (line + 1) members)
  | .procedure _ name _ => .leaf .procedures (.ofList name.text) line

/-- What a member of a class declares that is printed from the given line on. -/
def Member.construct (line : Nat) : Member → Construct
  | .item item => item.construct line
  | .method _ name _ => .leaf .methods (.ofList name.text) line

/-- What a forest declares that is printed from the given line on. -/
def constructsOf (line : Nat) : List Item → List Construct
  | [] => []
  | item :: items => item.construct line :: constructsOf (line + item.lines.length) items

/-- What the members of a class declare that are printed from the given line on. -/
def constructsOfMembers (line : Nat) : List Member → List Construct
  | [] => []
  | member :: members =>
    member.construct line :: constructsOfMembers (line + member.lines.length) members

end

/-! ## Plain lines -/

section Plain

variable {text : List Char} {depth after : Nat}

/-- Braces are counted one by one where nothing is quoted. -/
lemma braceStep_of_isPlain {ch : Char} (h : isPlain ch = true) (depth : Nat) (c : Cursor) :
    braceStep depth c ch = { state := if ch = '\x7b' then depth + 1
                                      else if ch = '\x7d' then depth - 1 else depth
                             cursor := c.next } := by
  rw [isPlain, Bool.and_eq_true, bne_iff_ne, bne_iff_ne] at h
  simp only [braceStep, h.1, h.2, if_false]
  split
  · rfl
  · split <;> rfl

/-- **Braces are counted on a line without quotes and backslashes.** Those that are open before the
line and that it does not close stay open.

**Proof sketch.** The line is walked along character by character, as none of its characters is a
quote or a backslash. Each of them changes the number of open braces as `braceDepth?` counts them,
and those outside stay open. -/
lemma bracesAfter_of_braceDepth? (htext : text.all isPlain = true)
    (h : braceDepth? depth text = some after) (outer : Nat) :
    bracesAfter (outer + depth) text = outer + after := by
  have hplain : ∀ c : Cursor, c.line = text → ∀ ch, c.peek? = some ch → isPlain ch = true :=
    fun c hc ch hch =>
      List.all_eq_true.1 htext ch (hc ▸ c.after_suffix.subset (List.mem_of_head? hch))
  have hwalk : Cursor.walk braceStep (outer + depth) (.start text) = (outer + after, []) := by
    refine Cursor.walk_depth ?_ ?_ ?_ h
    · intro depth c hc hch
      rw [braceStep_of_isPlain (hplain c hc _ hch)]
      rfl
    · intro depth c hc hch
      rw [braceStep_of_isPlain (hplain c hc _ hch)]
      rfl
    · intro depth c ch hc hch hbrace
      refine ⟨c.next, ?_, c.advances_next, Cursor.braceDepth?_after_next hch hbrace depth⟩
      simp only [isBrace, Bool.or_eq_false_iff, beq_eq_false_iff_ne] at hbrace
      rw [braceStep_of_isPlain (hplain c hc ch hch), if_neg hbrace.1, if_neg hbrace.2]
  rw [bracesAfter, hwalk]

/-- A plain line is read as the command that stands there, and then its braces are settled.

**Proof sketch.** The line is neither empty nor a comment, so it is read as a command, and its
braces are counted as `bracesAfter_of_braceDepth?` says. -/
lemma readLine_of_plain (htext : text.all isPlain = true)
    (hcode : (trimStart text).head?.any (· != '#') = true)
    (hdepth : braceDepth? depth text = some after) {outer : Nat} {state : State}
    (hstate : state.braces = outer + depth) (line : Nat) :
    readLine state line text =
      let declared := declare state line (command (trimStart text))
      let settled := settle (outer + after) declared.1
      (settled.1, declared.2 ++ settled.2) := by
  have hnot : ((trimStart text).isEmpty
      || Language.tcl.comments.isLineComment (trimStart text)) = false := by
    cases hcut : trimStart text with
    | nil => simp [hcut] at hcode
    | cons c rest =>
      have hc : c ≠ '#' := by simpa [hcut] using hcode
      simp [Language.comments, CommentStyle.isLineComment, startsWith, after?, Ne.symm hc]
  simp only [readLine, hnot, braces_declare, hstate, bracesAfter_of_braceDepth? htext hdepth]
  rfl

end Plain

/-! ## Open scopes -/

/-- The open scopes of a printed forest: each began where as many braces were open as scopes are
around it. They are given by whether they are classes, the innermost one first. -/
def framesOf : List Bool → List Frame
  | [] => []
  | isClass :: outer => ⟨outer.length, isClass⟩ :: framesOf outer

/-- The state in the given scopes, where further braces are open. -/
def within (scopes : List Bool) (further : Nat) : State :=
  { braces := scopes.length + further, frames := framesOf scopes }

section Scopes

variable {scopes : List Bool}

/-- No scope is left as long as all their braces are open. -/
lemma settle_framesOf (scopes : List Bool) (braces further : Nat) :
    settle (scopes.length + further) { braces := braces, frames := framesOf scopes }
      = (within scopes further, []) := by
  cases scopes with
  | nil => rfl
  | cons isClass outer =>
    have hless : outer.length < outer.length + 1 + further := by omega
    simp [settle, within, framesOf, hless]

/-- The innermost scope is left when its brace is closed, and no other. -/
lemma settle_framesOf_cons (braces : Nat) (isClass : Bool) :
    settle scopes.length { braces := braces, frames := framesOf (isClass :: scopes) }
      = (within scopes 0, [.leave]) := by
  have houter := settle_framesOf scopes braces 0
  simp only [settle, within, Nat.add_zero, Prod.mk.injEq, State.mk.injEq, true_and,
    List.replicate_eq_nil_iff] at houter
  simp [settle, within, framesOf, houter.1, houter.2]

end Scopes

/-! ## Lines -/

/-- The characters that mean something to a reader that counts braces. -/
def signs : List Char := ['\x7b', '\x7d', '"', '\\']

/-- Whether the character means nothing to a reader that counts braces. -/
def isInert (c : Char) : Bool := isPlain c && !isBrace c

/-- The characters of a class without signs mean nothing. -/
lemma all_isInert {p : Char → Bool} (hp : signs.any p = false) {text : List Char}
    (h : text.all p = true) : text.all isInert = true := by
  refine List.all_eq_true.2 fun c hc => ?_
  have hnot : c ∉ signs := fun hsign =>
    List.any_eq_false.1 hp c hsign (List.all_eq_true.1 h c hc)
  simp only [signs, List.mem_cons, List.not_mem_nil, or_false, not_or] at hnot
  simp [isInert, isPlain, isBrace, hnot]

/-- A blank is no character of a name. -/
lemma isBlank_of_isNameChar {c : Char} (h : isNameChar c = true) : isBlank c = false := by
  rw [isNameChar, Bool.or_eq_true, beq_iff_eq] at h
  rcases h with h | rfl
  · exact isBlank_of_isIdentifierChar h
  · decide

/-- The first word after a keyword is the name. -/
lemma leadingWord_name (name : Name) (rest : List Char) :
    leadingWord (name.text ++ ' ' :: rest) = name.text := by
  refine takeWhile_word (List.all_eq_true.2 fun c hc => ?_) (by rfl)
  have hname : isNameChar c = true := List.all_eq_true.1 name.chars c hc
  have hne : ∀ sign ∈ ['\x7b', '\x7d', ';'], c ≠ sign := by
    rintro sign hsign rfl
    exact List.any_eq_false.1 (by decide : ['\x7b', '\x7d', ';'].any isNameChar = false) c hsign
      hname
  simp [isBlank_of_isNameChar hname, hne]

/-- A name follows its keyword. -/
lemma afterKeyword?_name {word : List Char} (hword : word ≠ []) (name : Name) (rest : List Char) :
    afterKeyword? word (word ++ ' ' :: (name.text ++ rest)) = some (name.text ++ rest) := by
  refine afterKeyword?_space hword ?_
  obtain ⟨text, nonempty, chars⟩ := name
  cases text with
  | nil => exact absurd rfl nonempty
  | cons c text => exact isBlank_of_isNameChar (List.all_eq_true.1 chars c List.mem_cons_self)

section Commands

variable (name : Name) (rest : List Char)

/-- The first words of a procedure are read as such. -/
lemma command_procedure :
    command ("proc".toList ++ ' ' :: (name.text ++ ' ' :: rest)) = .procedure name.text := by
  unfold command
  rw [afterKeyword?_name (by decide)]
  simp only [leadingWord_name]

/-- The first words of a method are read as such. -/
lemma command_method :
    command ("method".toList ++ ' ' :: (name.text ++ ' ' :: rest)) = .method name.text := by
  unfold command
  rw [afterKeyword?_of_ne (by decide) (by decide) rfl (by decide),
    afterKeyword?_name (by decide)]
  simp only [leadingWord_name]

/-- The name of a scope stands after two keywords. -/
lemma wordAfter?_name {first second : String} (hfirst : first.toList ≠ [])
    (hsecond : second.toList.head?.any (!isBlank ·) = true) :
    wordAfter? first second
        (first.toList ++ ' ' :: (second.toList ++ ' ' :: (name.text ++ ' ' :: rest)))
      = some name.text := by
  have hne : second.toList ≠ [] := by
    intro h
    simp [h] at hsecond
  have hblank : (second.toList ++ ' ' :: (name.text ++ ' ' :: rest)).head?.any isBlank = false := by
    cases hchars : second.toList with
    | nil => exact absurd hchars hne
    | cons c tail => simpa [hchars] using hsecond
  rw [wordAfter?, afterKeyword?_space hfirst hblank, Option.bind_some,
    afterKeyword?_name hne, Option.bind_some, leadingWord_name]
  simp [name.nonempty]

/-- The first words of a namespace are read as such. -/
lemma command_nameSpace :
    command ("namespace eval".toList ++ ' ' :: (name.text ++ ' ' :: rest))
      = .nameSpace name.text := by
  have hword : "namespace eval".toList ++ ' ' :: (name.text ++ ' ' :: rest)
      = "namespace".toList ++ ' ' :: ("eval".toList ++ ' ' :: (name.text ++ ' ' :: rest)) := rfl
  unfold command
  rw [hword, afterKeyword?_of_ne (by decide) (by decide) rfl (by decide),
    afterKeyword?_of_ne (by decide) (by decide) rfl (by decide),
    wordAfter?_name name rest (by decide) (by decide)]

/-- The first words of a class are read as such. -/
lemma command_classOf :
    command ("oo::class create".toList ++ ' ' :: (name.text ++ ' ' :: rest))
      = .classOf name.text := by
  have hword : "oo::class create".toList ++ ' ' :: (name.text ++ ' ' :: rest)
      = "oo::class".toList ++ ' ' :: ("create".toList ++ ' ' :: (name.text ++ ' ' :: rest)) := rfl
  have hnot : wordAfter? "namespace" "eval"
      ("oo::class".toList ++ ' ' :: ("create".toList ++ ' ' :: (name.text ++ ' ' :: rest)))
        = none := by
    rw [wordAfter?, afterKeyword?_of_ne (by decide) (by decide) rfl (by decide)]
    rfl
  unfold command
  rw [hword, afterKeyword?_of_ne (by decide) (by decide) rfl (by decide),
    afterKeyword?_of_ne (by decide) (by decide) rfl (by decide), hnot,
    wordAfter?_name name rest (by decide) (by decide)]

end Commands

section Lines

variable {scopes : List Bool} {line : Nat}

/-- A margin holds no sign that is read. -/
lemma Margin.all_isInert (margin : Margin) : margin.text.all isInert = true :=
  Tcl.all_isInert (by decide) margin.blank

/-- A line that begins something opens one brace more than it closes, and is read as the command
that stands there.

**Proof sketch.** What precedes the rest of the line holds neither braces nor quotes nor
backslashes, so that its braces are those of the rest. Behind the margin the line begins with its
words, and these with no blank and no comment. -/
lemma readLine_front (margin : Margin) {words : String} (name : Name) {rest : List Char}
    (hwords : words.toList.all isInert = true)
    (hhead : words.toList.head?.any (fun c => !isBlank c && c != '#') = true)
    (hrest : rest.all isPlain = true) (hdepth : braceDepth? 0 rest = some 1) :
    readLine (within scopes 0) line (lineFront margin words name ++ rest) =
      let declared := declare (within scopes 0) line
        (command (words.toList ++ ' ' :: (name.text ++ rest)))
      let settled := settle (scopes.length + 1) declared.1
      (settled.1, declared.2 ++ settled.2) := by
  have hfront : (lineFront margin words name).all isInert = true := by
    have hname : name.text.all isInert = true := all_isInert (by decide) name.chars
    simp only [lineFront, List.all_append, List.all_cons, margin.all_isInert, hwords, hname]
    decide
  have hplain : (lineFront margin words name ++ rest).all isPlain = true := by
    rw [List.all_append, hrest, Bool.and_true]
    exact List.all_eq_true.2 fun c hc =>
      (Bool.and_eq_true_iff.1 (List.all_eq_true.1 hfront c hc)).1
  have hbraces : braceDepth? 0 (lineFront margin words name ++ rest) = some 1 := by
    rw [braceDepth?_plain ?_ 0 rest, hdepth]
    exact List.all_eq_true.2 fun c hc =>
      (Bool.and_eq_true_iff.1 (List.all_eq_true.1 hfront c hc)).2
  have hcode : trimStart (lineFront margin words name ++ rest)
        = words.toList ++ ' ' :: (name.text ++ rest)
      ∧ (words.toList ++ ' ' :: (name.text ++ rest)).head?.any (· != '#') = true := by
    rw [lineFront, List.append_assoc, trimStart_blanks margin.blank]
    cases hchars : words.toList with
    | nil => simp [hchars] at hhead
    | cons c tail =>
      have hc : isBlank c = false ∧ c ≠ '#' := by simpa [hchars] using hhead
      simp [trimStart_cons hc.1, hc.2]
  have hstate : (within scopes 0).braces = scopes.length + 0 := rfl
  rw [readLine_of_plain hplain (hcode.1 ▸ hcode.2) hbraces hstate, hcode.1]

/-- The line with which a scope begins enters it. -/
lemma readLine_scope (margin : Margin) {words : String} (name : Name) {isClass : Bool}
    {header : Header} (hwords : words.toList.all isInert = true)
    (hhead : words.toList.head?.any (fun c => !isBlank c && c != '#') = true)
    (hdeclare : ∀ rest, declare (within scopes 0) line
        (command (words.toList ++ ' ' :: (name.text ++ ' ' :: rest)))
      = ({ braces := scopes.length, frames := framesOf (isClass :: scopes) }, [.enter header])) :
    readLine (within scopes 0) line (scopeLine margin words name)
      = (within (isClass :: scopes) 0, [.enter header]) := by
  rw [scopeLine, readLine_front margin name hwords hhead (by decide) (by decide), hdeclare]
  have hsettle := settle_framesOf (isClass :: scopes) scopes.length 0
  rw [List.length_cons, Nat.add_zero] at hsettle
  dsimp only
  rw [hsettle]
  rfl

/-- The line of a namespace enters it. -/
lemma readLine_nameSpace (margin : Margin) (name : Name) :
    readLine (within scopes 0) line (scopeLine margin "namespace eval" name)
      = (within (false :: scopes) 0, [.enter (nameSpaceHeader name.text line)]) :=
  readLine_scope margin name (by decide) (by decide) fun rest => by
    rw [command_nameSpace]
    rfl

/-- The line of a class enters it. -/
lemma readLine_class (margin : Margin) (name : Name) :
    readLine (within scopes 0) line (scopeLine margin "oo::class create" name)
      = (within (true :: scopes) 0, [.enter (classHeader name.text line)]) :=
  readLine_scope margin name (by decide) (by decide) fun rest => by
    rw [command_classOf]
    rfl

/-- The line with which a procedure or a method begins declares it, and its body begins. -/
lemma readLine_routine (margin : Margin) {word : String} (name : Name) {found : List Mark}
    (hword : word.toList.all isInert = true)
    (hhead : word.toList.head?.any (fun c => !isBlank c && c != '#') = true)
    (hdeclare : ∀ rest, declare (within scopes 0) line
        (command (word.toList ++ ' ' :: (name.text ++ ' ' :: rest)))
      = (within scopes 0, found)) :
    readLine (within scopes 0) line (routineLine margin word name) = (within scopes 1, found) := by
  rw [routineLine, readLine_front margin name hword hhead (by decide) (by decide), hdeclare]
  have hsettle := settle_framesOf scopes (scopes.length + 0) 1
  simp only [within, hsettle, List.append_nil]

/-- The line of a procedure reports it and opens its body. -/
lemma readLine_procedure (margin : Margin) (name : Name) :
    readLine (within scopes 0) line (routineLine margin "proc" name)
      = (within scopes 1, [.leaf .procedures (.ofList name.text) line]) :=
  readLine_routine margin name (by decide) (by decide) fun rest => by
    rw [command_procedure]
    simp [declare, name.nonempty]

/-- The line of a method reports it and opens its body. -/
lemma readLine_method (margin : Margin) (name : Name) :
    readLine (within (true :: scopes) 0) line (routineLine margin "method" name)
      = (within (true :: scopes) 1, [.leaf .methods (.ofList name.text) line]) :=
  readLine_routine margin name (by decide) (by decide) fun rest => by
    rw [command_method]
    simp [declare, within, framesOf, name.nonempty]

/-- A closing line closes one brace.

**Proof sketch.** Behind its margin the line is a single brace, which is no command. It closes one
of the braces that are open. -/
lemma readLine_closing (margin : Margin) {state : State} {outer : Nat}
    (hstate : state.braces = outer + 1) :
    readLine state line (closingLine margin) = settle outer state := by
  have hcode : trimStart (closingLine margin) = ['\x7d'] := by
    rw [closingLine, trimStart_blanks margin.blank]
    decide
  have hplain : (closingLine margin).all isPlain = true := by
    rw [closingLine, List.all_append, Bool.and_eq_true]
    exact ⟨List.all_eq_true.2 fun c hc =>
      (Bool.and_eq_true_iff.1 (List.all_eq_true.1 margin.all_isInert c hc)).1, by decide⟩
  have hbraces : braceDepth? 1 (closingLine margin) = some 0 := by
    rw [closingLine, braceDepth?_plain ?_ 1]
    · decide
    · exact List.all_eq_true.2 fun c hc =>
        (Bool.and_eq_true_iff.1 (List.all_eq_true.1 margin.all_isInert c hc)).2
  have hcommand : command ['\x7d'] = .other := by decide
  rw [readLine_of_plain hplain (by rw [hcode]; decide) hbraces hstate, hcode, hcommand]
  rfl

/-- The closing line of a routine ends its body. -/
lemma readLine_closing_routine (margin : Margin) :
    readLine (within scopes 1) line (closingLine margin) = (within scopes 0, []) :=
  (readLine_closing margin rfl).trans (settle_framesOf scopes (scopes.length + 1) 0)

/-- The closing line of a namespace or a class leaves it. -/
lemma readLine_closing_scope (margin : Margin) (isClass : Bool) :
    readLine (within (isClass :: scopes) 0) line (closingLine margin)
      = (within scopes 0, [.leave]) :=
  (readLine_closing margin rfl).trans (settle_framesOf_cons _ isClass)

end Lines

/-! ## Bodies -/

section Bodies

variable {scopes : List Bool} {text : List Char} {depth after : Nat}

/-- A line of a body is no command of interest. -/
lemma command_body (htext : IsBodyLine text) : command (trimStart text) = .other := by
  have hnot : ∀ word ∈ commandWords, word.toList.any isBlank = false →
      afterKeyword? word.toList (trimStart text) = none :=
    fun word hword hsolid => afterKeyword?_eq_none hsolid (htext.free word hword)
  unfold command wordAfter?
  rw [hnot "proc" (by decide) (by decide), hnot "method" (by decide) (by decide),
    hnot "namespace" (by decide) (by decide), hnot "oo::class" (by decide) (by decide)]
  rfl

/-- A line of a body changes the number of open braces only.

**Proof sketch.** A line of blanks is passed over and has no braces. Any other line is no comment
and declares nothing, and its braces are those of the body, within which no scope ends. -/
lemma readLine_inBody (htext : IsBodyLine text) (h : braceDepth? depth text = some after)
    (line : Nat) :
    readLine (within scopes (depth + 1)) line text = (within scopes (after + 1), []) := by
  by_cases hblank : trimStart text = []
  · have hplain : text.all (!isBrace ·) = true := by
      refine List.all_eq_true.2 fun c hc => ?_
      have hc : isBlank c = true := by simpa using List.dropWhile_eq_nil_iff.1 hblank c hc
      simp [isBrace_eq_false (p := isBlank) (by decide) (by decide) hc]
    have hsame := braceDepth?_plain hplain depth []
    rw [List.append_nil, h, braceDepth?, Option.some.injEq] at hsame
    simp [readLine, hblank, hsame]
  · have hcode : (trimStart text).head?.any (· != '#') = true := by
      have huncommented := htext.uncommented
      cases hcut : trimStart text with
      | nil => exact absurd hcut hblank
      | cons c rest => simpa [hcut] using huncommented
    have hstate : (within scopes (depth + 1)).braces = scopes.length + 1 + depth := by
      simp only [within]
      omega
    have hbraces : scopes.length + 1 + after = scopes.length + (after + 1) := by omega
    rw [readLine_of_plain htext.plain hcode h hstate, command_body htext, hbraces]
    simp only [declare, within, settle_framesOf, List.append_nil]

/-- **In a body only the number of open braces changes.** -/
lemma readLines_body (body : Body) (first : Nat) :
    readLines readLine first (within scopes 1) body.lines = (within scopes 1, []) :=
  @readLines_depth _ _ readLine (fun depth => within scopes (depth + 1)) _
    (fun line hline _ _ n h => readLine_inBody (body.readable line hline) h n) _ _ body.balanced
    first

/-- A procedure or a method is read from its first line to its last. -/
lemma reads_routineLines {margin : Margin} {word : String} {name : Name} {found : List Mark}
    {line : Nat} (hfirst : readLine (within scopes 0) line (routineLine margin word name)
      = (within scopes 1, found)) (body : Body) :
    readLines readLine line (within scopes 0) (routineLines margin word name body)
      = (within scopes 0, found) := by
  have hrest : readLines readLine (line + 1) (within scopes 1) (body.lines ++ [closingLine margin])
      = (within scopes 0, []) :=
    readLines_append_of (readLines_body body (line + 1))
      (readLines_single (readLine_closing_routine margin))
  rw [routineLines, ← List.append_nil found]
  exact readLines_cons_of hfirst hrest

end Bodies

/-! ## Forests -/

mutual

/-- **An item is read as what it declares, and leaves nothing behind.**

**Proof sketch.** The first line of the item is read by the lemma for its words. What is within a
namespace or a class is read by the mutual induction, in one more scope, and the closing line leaves
it. -/
theorem Item.reads (item : Item) (scopes : List Bool) (line : Nat) :
    readLines readLine line (within scopes 0) item.lines
      = (within scopes 0, (item.construct line).marks) := by
  cases item with
  | nameSpace margin name members =>
    rw [Item.lines, Item.construct, Construct.marks]
    exact readLines_cons_of (readLine_nameSpace margin name)
      (readLines_append_of (reads_linesOf members (false :: scopes) (line + 1))
        (readLines_single (readLine_closing_scope margin false)))
  | classOf margin name members =>
    rw [Item.lines, Item.construct, Construct.marks]
    exact readLines_cons_of (readLine_class margin name)
      (readLines_append_of (reads_linesOfMembers members scopes (line + 1))
        (readLines_single (readLine_closing_scope margin true)))
  | procedure margin name body =>
    rw [Item.lines, Item.construct, Construct.marks]
    exact reads_routineLines (readLine_procedure margin name) body

/-- **A member of a class is read as what it declares, and leaves nothing behind.** -/
theorem Member.reads (member : Member) (scopes : List Bool) (line : Nat) :
    readLines readLine line (within (true :: scopes) 0) member.lines
      = (within (true :: scopes) 0, (member.construct line).marks) := by
  cases member with
  | item item =>
    rw [Member.lines, Member.construct]
    exact item.reads (true :: scopes) line
  | method margin name body =>
    rw [Member.lines, Member.construct, Construct.marks]
    exact reads_routineLines (readLine_method margin name) body

/-- A forest is read as the forest. -/
theorem reads_linesOf (items : List Item) (scopes : List Bool) (line : Nat) :
    readLines readLine line (within scopes 0) (linesOf items)
      = (within scopes 0, Construct.marksOf (constructsOf line items)) := by
  cases items with
  | nil =>
    rw [linesOf, constructsOf, Construct.marksOf]
    rfl
  | cons item items =>
    rw [linesOf, constructsOf, Construct.marksOf]
    exact readLines_append_of (item.reads scopes line) (reads_linesOf items scopes _)

/-- The members of a class are read as the members. -/
theorem reads_linesOfMembers (members : List Member) (scopes : List Bool) (line : Nat) :
    readLines readLine line (within (true :: scopes) 0) (linesOfMembers members)
      = (within (true :: scopes) 0, Construct.marksOf (constructsOfMembers line members)) := by
  cases members with
  | nil =>
    rw [linesOfMembers, constructsOfMembers, Construct.marksOf]
    rfl
  | cons member members =>
    rw [linesOfMembers, constructsOfMembers, Construct.marksOf]
    exact readLines_append_of (member.reads scopes line) (reads_linesOfMembers members scopes _)

end

end Tcl

/-- **Reading a printed forest gives the forest**: each name space and each class with its members,
each procedure, and each method of a class, in the order in which they were printed, on the lines on
which they were printed, and nothing of what the bodies say. -/
theorem Language.scan_tcl_printed (items : List Tcl.Item) :
    tcl.scan ((Tcl.linesOf items).map String.ofList)
      = Document.ofForest Tcl.legend (Tcl.constructsOf 0 items) := by
  have hlines : ((Tcl.linesOf items).map String.ofList).map String.toList = Tcl.linesOf items := by
    simp [Function.comp_def]
  have hmarks : Tcl.marks (Tcl.linesOf items)
      = Construct.marksOf (Tcl.constructsOf 0 items) :=
    congrArg Prod.snd (Tcl.reads_linesOf items [] 0)
  show Document.ofMarks Tcl.legend (Tcl.marks _) = _
  rw [hlines, hmarks, Document.ofMarks_forest]

namespace Tcl

/-- A class in a name space, and bodies that look like declarations. -/
def disguised : List Item :=
  [.nameSpace ⟨[], by decide⟩ ⟨"::eval".toList, by decide, by decide⟩
      [.classOf ⟨"  ".toList, by decide⟩ ⟨"proc".toList, by decide, by decide⟩
        [.method ⟨"    ".toList, by decide⟩ ⟨"method".toList, by decide, by decide⟩
          ⟨["if x \x7b proc p \x7b\x7d \x7b".toList, "processed".toList, "\x7d \x7d".toList],
            by decide, by decide⟩]],
    .procedure ⟨[], by decide⟩ ⟨"main".toList, by decide, by decide⟩ ⟨[], by decide, by decide⟩]

example : (linesOf disguised).map String.ofList = ["namespace eval ::eval \x7b",
    "  oo::class create proc \x7b", "    method method \x7b\x7d \x7b",
    "if x \x7b proc p \x7b\x7d \x7b", "processed", "\x7d \x7d", "    \x7d", "  \x7d", "\x7d",
    "proc main \x7b\x7d \x7b", "\x7d"] := by
  decide

example : constructsOf 0 disguised = [.branch (nameSpaceHeader "::eval".toList 0)
    [.branch (classHeader "proc".toList 1) [.leaf .methods "method" 2]],
      .leaf .procedures "main" 9] :=
  rfl

end Tcl

end Outliner
