import Mathlib.Tactic.Lemma
import Outliner.Scan
import Outliner.Proofs.Braces
import Outliner.Proofs.Checked.ByCharacter
import Outliner.Proofs.Forest

set_option autoImplicit false

/-!
# Printed Verilog sources

A forest of design units, with tasks and functions in them and beside them, is printed line by line.
Reading what was printed gives the forest back: each unit under its kind with its members, each
routine with its name and its line, and nothing of what the bodies of routines say.

Between two items nothing is carried along but the units that are open around them. In the body of a
routine nothing changes until its end keyword comes, whatever other words stand there.

## Main definitions

* `Outliner.Verilog.Item` — a design unit, a task or a function that can be printed.
* `Outliner.Verilog.Item.lines`, `Outliner.Verilog.linesOf` — printing.
* `Outliner.Verilog.Item.construct`, `Outliner.Verilog.constructsOf` — what is declared.

## Main results

* `Outliner.Verilog.readLines_body` — in the body of a routine nothing changes.
* `Outliner.Verilog.Item.reads` — an item is read as the item, and leaves nothing behind.
* `Outliner.Language.scan_verilog_printed` — the document of a printed forest is the forest.
-/

namespace Outliner

namespace Verilog

open Cursor (Passes)

/-! ## Printing -/

/-- An identifier that may be the name of a unit or of a routine. -/
structure Name where
  /-- The characters of the name. -/
  text : List Char
  /-- They are an identifier. -/
  identifier : isIdentifier text = true
  /-- It is none of the words that are passed over in a header. -/
  free : ("class" :: typeWords).contains (.ofList text) = false

/-- The word with which a unit begins. -/
def DesignUnit.beginWord : DesignUnit → String
  | moduleUnit => "module"
  | interfaceUnit => "interface"
  | programUnit => "program"
  | packageUnit => "package"
  | classUnit => "class"

/-- The word with which a routine begins. -/
def Routine.beginWord : Routine → String
  | task => "task"
  | function => "function"

/-- A line that may stand in the body of a routine, whatever it says. -/
structure IsBodyLine (kind : Routine) (line : List Char) : Prop where
  /-- It holds no quotes and no braces. -/
  plain : line.all (fun c => !isBrace c && c != '"') = true
  /-- No comment begins there. -/
  uncommented : ∀ opening ∈ ["//".toList, "/*".toList], ¬ opening <:+: line
  /-- The keyword that ends the body does not stand there. -/
  unfinished : ¬ Cursor.HoldsWord isNameChar kind.endWord.toList line

instance (kind : Routine) (line : List Char) : Decidable (IsBodyLine kind line) :=
  decidable_of_iff (line.all (fun c => !isBrace c && c != '"') = true
      ∧ (∀ opening ∈ ["//".toList, "/*".toList], ¬ opening <:+: line)
      ∧ ¬ Cursor.HoldsWord isNameChar kind.endWord.toList line)
    ⟨fun h => ⟨h.1, h.2.1, h.2.2⟩, fun h => ⟨h.plain, h.uncommented, h.unfinished⟩⟩

/-- The body of a routine. -/
structure Body (kind : Routine) where
  /-- Its lines. -/
  lines : List (List Char)
  /-- Each may stand there. -/
  readable : ∀ line ∈ lines, IsBodyLine kind line

/-- What can be printed. -/
inductive Item where
  /-- A design unit with its members. -/
  | designUnit (kind : DesignUnit) (name : Name) (members : List Item)
  /-- A task or a function with its body. -/
  | routine (kind : Routine) (name : Name) (body : Body kind)

/-- A line with a keyword and a name. -/
def headerLine (word : String) (name : Name) : List Char :=
  word.toList ++ ' ' :: (name.text ++ [';'])

mutual

/-- The lines of an item. -/
def Item.lines : Item → List (List Char)
  | .designUnit kind name members =>
    headerLine kind.beginWord name :: (linesOf members ++ [kind.endWord.toList])
  | .routine kind name body =>
    headerLine kind.beginWord name :: (body.lines ++ [kind.endWord.toList])

/-- The lines of a forest. -/
def linesOf : List Item → List (List Char)
  | [] => []
  | item :: items => item.lines ++ linesOf items

end

mutual

/-- What an item declares that is printed from the given line on, within a class or elsewhere. -/
def Item.construct (inClass : Bool) (line : Nat) : Item → Construct
  | .designUnit kind name members =>
    .branch (unitHeader kind (.ofList name.text) line)
      (constructsOf (kind == .classUnit) (line + 1) members)
  | .routine kind name _ => .leaf (kind.kind inClass) (.ofList name.text) line

/-- What a forest declares that is printed from the given line on, within a class or elsewhere. -/
def constructsOf (inClass : Bool) (line : Nat) : List Item → List Construct
  | [] => []
  | item :: items =>
    item.construct inClass line :: constructsOf inClass (line + item.lines.length) items

end

/-! ## Steps -/

/-- The characters that are no part of words or numbers and mean something. -/
def signs : List Char := ['/', '"', '\x7b', '\x7d', Char.ofNat 0x60, ';', '(', '#', ':']

section Steps

variable {s : State} {c : Cursor} {ch : Char} {before text rest : List Char} {line : Nat}

/-- A step in code. -/
lemma step_code (hcomment : s.inComment = false) (hslashes : c.startsWith "//".toList = false)
    (hslash : c.startsWith "/*".toList = false) : step line s c ch = codeStep line s c ch := by
  rw [step, hcomment, hslashes, hslash]
  rfl

/-- A step in code at a character that is no sign. -/
lemma codeStep_of_not_mem_signs (hch : ch ∉ signs) : codeStep line s c ch
    = if beginsWord ch && c.isAtWordStart then
        { state := (word s line (.ofList (c.span isNameChar).1)).1
          cursor := (c.span isNameChar).2
          found := (word s line (.ofList (c.span isNameChar).1)).2 }
      else if ch.isDigit then { state := s, cursor := c.skipWhile isNumberChar }
      else { state := s, cursor := c.next } := by
  have hcode : ch.toNat ≠ 0x60 := by
    rintro h
    refine absurd hch ?_
    rw [← Char.ofNat_toNat ch, h]
    decide
  simp only [signs, List.mem_cons, List.not_mem_nil, or_false, not_or] at hch
  simp only [codeStep, hch, hcode, false_or, false_and, if_false]

/-- No character of a name is a sign. -/
lemma not_mem_signs {ch : Char} (h : isNameChar ch = true) : ch ∉ signs := by
  have hsigns : signs.any isNameChar = false := by decide
  exact fun hch => List.any_eq_false.1 hsigns ch hch h

/-- A step at a character that does not begin a comment. -/
lemma step_of_ne_slash (hcomment : s.inComment = false) (h : ch ≠ '/') :
    step line s ⟨before, ch :: rest⟩ ch = codeStep line s ⟨before, ch :: rest⟩ ch :=
  step_code hcomment (Cursor.startsWith_of_ne h before rest ['/'])
    (Cursor.startsWith_of_ne h before rest ['*'])

/-- A word is passed over as a whole.

**Proof sketch.** The first character begins a word and is no sign, so the step reads the word,
which ends where the rest begins. -/
lemma passes_word (hcomment : s.inComment = false) (hbegins : text.head?.any beginsWord = true)
    (htext : text.all isNameChar = true) (hrest : rest.head?.any isNameChar = false)
    (hbefore : before.head?.any isIdentifierChar = false) :
    Passes (step line) s before text rest (word s line (.ofList text)).1
      (word s line (.ofList text)).2 := by
  cases text with
  | nil => exact absurd hbegins (by decide)
  | cons ch text =>
    have hch : isNameChar ch = true := List.all_eq_true.1 htext ch List.mem_cons_self
    have hslash : ch ≠ '/' := fun h => not_mem_signs hch (h ▸ List.mem_cons_self)
    have hstart : (⟨before, ch :: text ++ rest⟩ : Cursor).isAtWordStart = true := by
      rw [Cursor.isAtWordStart, Cursor.previous?, hbefore]
      rfl
    refine Passes.of_step ?_
    rw [List.cons_append, step_of_ne_slash hcomment hslash,
      codeStep_of_not_mem_signs (not_mem_signs hch), ← List.cons_append, hstart,
      Cursor.span_word htext hrest, if_pos (by simpa using hbegins)]

/-- A space is passed over. -/
lemma passes_space (hcomment : s.inComment = false) :
    Passes (step line) s before [' '] rest s [] := by
  refine Passes.of_next ?_
  rw [step_of_ne_slash hcomment (by decide), codeStep_of_not_mem_signs (by decide)]
  rfl

/-- A semicolon ends a header. -/
lemma passes_semicolon (hcomment : s.inComment = false) :
    Passes (step line) s before [';'] rest { (endHeader s).1 with qualifiers := [] }
      (endHeader s).2 := by
  refine Passes.of_next ?_
  rw [step_of_ne_slash hcomment (by decide)]
  rfl

/-- A line that is passed over, and at whose end no header is being read, is read. -/
lemma readLine_of_passes {s' : State} {found : List Mark}
    (h : Passes (step line) s [] text [] s' found) (hheader : s'.header = none) :
    readLine s line text = (s', found) := by
  have hend : endLine s' = (s', []) := by
    rw [endLine, hheader]
    rfl
  rw [readLine, h.walk_start]
  simp only [hend, List.append_nil]

end Steps

/-! ## Names -/

/-- An identifier begins as a word does. -/
lemma beginsWord_identifier {name : List Char} (h : isIdentifier name = true) :
    name.head?.any beginsWord = true := by
  obtain ⟨c, tail, rfl, hc⟩ := exists_cons_of_isIdentifier h
  rw [isIdentifier, Bool.and_eq_true, Bool.not_eq_true'] at h
  have hnumeric : isNumeric c = false := h.2
  rw [isIdentifierChar, isAlphanumeric, hnumeric, Bool.or_false] at hc
  rw [List.head?_cons, Option.any_some, beginsWord, hc, Bool.true_or]

/-- A character of an identifier is one of a name. -/
lemma isNameChar_of_isIdentifierChar {c : Char} (h : isIdentifierChar c = true) :
    isNameChar c = true := by
  rw [isNameChar, h, Bool.true_or]

/-- A name is made of characters of names. -/
lemma Name.all_isNameChar (name : Name) : name.text.all isNameChar = true :=
  all_of_isIdentifierChar (fun _ => isNameChar_of_isIdentifierChar) name.identifier

/-- A name may stand in a header. -/
lemma Name.free_iff (name : Name) :
    String.ofList name.text ≠ "class" ∧ typeWords.contains (.ofList name.text) = false := by
  have hfree := name.free
  rw [List.contains_cons, Bool.or_eq_false_iff, beq_eq_false_iff_ne] at hfree
  exact hfree

/-! ## Headers -/

section Headers

variable {units : List DesignUnit} {line : Nat}

/-- The state between two items. -/
def outside (units : List DesignUnit) : State := { units := units }

/-- The state in the body of a routine. -/
def inBody (units : List DesignUnit) (kind : Routine) : State :=
  { units := units, body := some kind }

/-- The state at the name of a declaration. -/
def inHeader (units : List DesignUnit) (declared : Declared) (line : Nat) : State :=
  { units := units, header := some { declared := declared, line := line } }

/-- A line with a keyword and a name: what the keyword begins is declared when the name is read, or
at the semicolon.

**Proof sketch.** The line is passed over in four parts: the keyword begins the header, the blank is
skipped, the name is read, and the semicolon ends the header. -/
lemma readLine_header {keyword : String} (name : Name) {declared : Declared} {s s' : State}
    {found later : List Mark} (hkeyword : keyword.toList.all isNameChar = true)
    (hbegins : keyword.toList.head?.any beginsWord = true)
    (hfree : freeWord (outside units) line keyword = (inHeader units declared line, []))
    (hname : headerWord (inHeader units declared line) { declared := declared, line := line }
      (.ofList name.text) = (s, found))
    (hcomment : s.inComment = false) (hend : endHeader s = (s', later))
    (hheader : s'.header = none) :
    readLine (outside units) line (headerLine keyword name)
      = ({ s' with qualifiers := [] }, found ++ later) := by
  -- the keyword
  have hfirst : ∀ rest, Passes (step line) (outside units) [] keyword.toList (' ' :: rest)
      (inHeader units declared line) [] := by
    intro rest
    have hword : word (outside units) line (.ofList keyword.toList)
        = (inHeader units declared line, []) := by
      rw [String.ofList_toList]
      exact hfree
    have hpasses : Passes (step line) (outside units) [] keyword.toList (' ' :: rest) _ _ :=
      passes_word rfl hbegins hkeyword rfl rfl
    rwa [hword] at hpasses
  -- the name
  have hsecond : ∀ before rest, Passes (step line) (inHeader units declared line) (' ' :: before)
      name.text (';' :: rest) s found := by
    intro before rest
    have hword : word (inHeader units declared line) line (.ofList name.text) = (s, found) := hname
    have hpasses : Passes (step line) (inHeader units declared line) (' ' :: before) name.text
        (';' :: rest) _ _ :=
      passes_word rfl (beginsWord_identifier name.identifier) name.all_isNameChar rfl rfl
    rwa [hword] at hpasses
  -- the semicolon
  have hthird : ∀ before, Passes (step line) s before [';'] [] { s' with qualifiers := [] }
      later := by
    intro before
    have hpasses : Passes (step line) s before [';'] [] _ _ := passes_semicolon hcomment
    rwa [hend] at hpasses
  refine readLine_of_passes ?_ hheader
  rw [headerLine]
  exact (hfirst _).append_silent ((passes_space rfl).cons ((hsecond _ _).append (hthird _)))

/-- The line with which a unit begins enters it. -/
lemma readLine_unit (kind : DesignUnit) (name : Name) :
    readLine (outside units) line (headerLine kind.beginWord name)
      = (outside (kind :: units), [.enter (unitHeader kind (.ofList name.text) line)]) := by
  have hname : headerWord (inHeader units (.designUnit kind) line)
      { declared := .designUnit kind, line := line } (.ofList name.text)
      = (outside (kind :: units), [.enter (unitHeader kind (.ofList name.text) line)]) := by
    have hnot : ¬ (kind = .interfaceUnit ∧ String.ofList name.text = "class") :=
      fun h => name.free_iff.1 h.2
    simp only [headerWord, hnot, name.free_iff.2, if_false]
    rfl
  have hfree : freeWord (outside units) line kind.beginWord
      = (inHeader units (.designUnit kind) line, []) := by
    cases kind <;> rfl
  exact readLine_header name (by cases kind <;> decide) (by cases kind <;> decide) hfree hname rfl
    rfl rfl

/-- The line with which a routine begins declares it, and its body begins.

**Proof sketch.** The keyword begins the header of the routine, its name is the only word, and the
semicolon reports it and begins the body. -/
lemma readLine_routine (kind : Routine) (name : Name) :
    readLine (outside units) line (headerLine kind.beginWord name)
      = (inBody units kind,
        [.leaf (kind.kind (units.head? == some .classUnit)) (.ofList name.text) line]) := by
  let header : PartialHeader :=
    { declared := .routine kind false false, line := line, words := [.ofList name.text] }
  have hname : headerWord (inHeader units (.routine kind false false) line)
      { declared := .routine kind false false, line := line } (.ofList name.text)
      = ({ units := units, header := some header }, []) := by
    simp only [headerWord, name.free_iff.2]
    rfl
  have hfree : freeWord (outside units) line kind.beginWord
      = (inHeader units (.routine kind false false) line, []) := by
    cases kind <;> rfl
  exact readLine_header name (by cases kind <;> decide) (by cases kind <;> decide) hfree hname rfl
    rfl rfl

/-- A line with a keyword only. -/
lemma readLine_keyword {keyword : String} {s s' : State} {found : List Mark}
    (hkeyword : keyword.toList.all isNameChar = true)
    (hbegins : keyword.toList.head?.any beginsWord = true) (hcomment : s.inComment = false)
    (hword : word s line keyword = (s', found)) (hheader : s'.header = none) :
    readLine s line keyword.toList = (s', found) := by
  have hpasses : Passes (step line) s [] keyword.toList [] _ _ :=
    passes_word hcomment hbegins hkeyword rfl rfl
  rw [String.ofList_toList, hword] at hpasses
  exact readLine_of_passes hpasses hheader

/-- The line with which a unit ends leaves it. -/
lemma readLine_endUnit (kind : DesignUnit) :
    readLine (outside (kind :: units)) line kind.endWord.toList = (outside units, [.leave]) := by
  have hword : word (outside (kind :: units)) line kind.endWord = (outside units, [.leave]) := by
    cases kind <;> rfl
  exact readLine_keyword (by cases kind <;> decide) (by cases kind <;> decide) rfl hword rfl

/-- The line with which the body of a routine ends. -/
lemma readLine_endRoutine (kind : Routine) :
    readLine (inBody units kind) line kind.endWord.toList = (outside units, []) := by
  have hword : word (inBody units kind) line kind.endWord = (outside units, []) := by
    cases kind <;> rfl
  exact readLine_keyword (by cases kind <;> decide) (by cases kind <;> decide) rfl hword rfl

end Headers

/-! ## Bodies -/

section Bodies

variable {units : List DesignUnit} {kind : Routine} {text : List Char}

/-- A step in the body of a routine changes nothing.

**Proof sketch.** No brace, no literal and no comment begins in the line. What a directive, a sign
or a number does has no effect in a body, and a word has one only if it ends the body, which it does
not. -/
lemma step_inBody (htext : IsBodyLine kind text) {c : Cursor} {ch : Char} (hc : c.line = text)
    (hch : c.peek? = some ch) (line : Nat) :
    ∃ d, step line (inBody units kind) c ch = { state := inBody units kind, cursor := d } := by
  have hmem : ch ∈ text := hc ▸ c.after_suffix.subset (List.mem_of_head? hch)
  have hplain : (!isBrace ch && ch != '"') = true := List.all_eq_true.1 htext.plain ch hmem
  simp only [isBrace, Bool.and_eq_true, Bool.not_eq_true', Bool.or_eq_false_iff,
    beq_eq_false_iff_ne, bne_iff_ne, ne_eq] at hplain
  obtain ⟨⟨hopen, hclose⟩, hquote⟩ := hplain
  have hcomment : ∀ opening ∈ ["//".toList, "/*".toList], c.startsWith opening = false :=
    fun opening hopening =>
      Cursor.startsWith_eq_false (hc.symm ▸ htext.uncommented opening hopening)
  -- a word does not end the body, for the word that does is not on the line
  have hword : c.isAtWordStart = true →
      word (inBody units kind) line (.ofList (c.span isNameChar).1) = (inBody units kind, []) := by
    intro hstart
    have hne : String.ofList (c.span isNameChar).1 ≠ kind.endWord := by
      intro heq
      refine htext.unfinished ?_
      rw [← hc, ← heq, String.toList_ofList]
      exact Cursor.holdsWord_span isNameChar hch hstart
    simp only [word, inBody, hne, if_false]
  rw [step_code rfl (hcomment _ (by simp)) (hcomment _ (by simp))]
  simp only [codeStep, hquote, hopen, hclose, if_false]
  split
  · rw [directiveStep]
    split
    · exact ⟨_, rfl⟩
    · exact ⟨_, rfl⟩
  · split
    · split
      · exact ⟨_, rfl⟩
      · exact ⟨_, rfl⟩
    · split
      · exact ⟨_, rfl⟩
      · split
        · next hbegins =>
          rw [Bool.and_eq_true] at hbegins
          rw [hword hbegins.2]
          exact ⟨_, rfl⟩
        · split
          · exact ⟨_, rfl⟩
          · exact ⟨_, rfl⟩

/-- A line in the body of a routine changes nothing.

**Proof sketch.** Each step moves on, finds nothing and keeps the state (`step_inBody`), and so does
the walk. -/
lemma readLine_inBody (htext : IsBodyLine kind text) (line : Nat) :
    readLine (inBody units kind) line text = (inBody units kind, []) := by
  let J (s : State) (c : Cursor) : Prop := s = inBody units kind ∧ c.line = text
  have hkeeps : ∀ s c ch, c.peek? = some ch → J s c → c.Advances (step line s c ch).cursor
      ∧ (step line s c ch).found = [] ∧ J (step line s c ch).state (step line s c ch).cursor := by
    rintro _ c ch hch ⟨rfl, hc⟩
    have hadvances := (step_runs line (inBody units kind) hch).advances
    obtain ⟨d, hstep⟩ : ∃ d, step line (inBody units kind) c ch
        = { state := inBody units kind, cursor := d } := step_inBody htext hc hch line
    rw [hstep] at hadvances ⊢
    exact ⟨hadvances, rfl, rfl, hadvances.line.trans hc⟩
  have hstart : J (inBody units kind) (.start text) := ⟨rfl, rfl⟩
  obtain ⟨last, -, ⟨hstate, -⟩, hfound⟩ := Cursor.walk_silent hkeeps hstart
  have hwalk : Cursor.walk (step line) (inBody units kind) (.start text)
      = (inBody units kind, []) := Prod.ext hstate hfound
  rw [readLine, hwalk]
  rfl

/-- **In the body of a routine nothing changes.** -/
lemma readLines_body (body : Body kind) (first : Nat) :
    readLines readLine first (inBody units kind) body.lines = (inBody units kind, []) := by
  obtain ⟨lines, readable⟩ := body
  induction lines generalizing first with
  | nil => rfl
  | cons line lines ih =>
    obtain ⟨hline, hlines⟩ := List.forall_mem_cons.1 readable
    exact readLines_cons_of (readLine_inBody hline first) (ih (first + 1) hlines)

end Bodies

/-! ## Forests -/

mutual

/-- **An item is read as the item, and leaves nothing behind.** -/
theorem Item.reads (item : Item) (units : List DesignUnit) (line : Nat) :
    readLines readLine line (outside units) item.lines = (outside units,
      (item.construct (units.head? == some .classUnit) line).marks) := by
  cases item with
  | designUnit kind name members =>
    rw [Item.lines, Item.construct, Construct.marks]
    exact readLines_cons_of (readLine_unit kind name)
      (readLines_append_of (reads_linesOf members (kind :: units) (line + 1))
        (readLines_single (readLine_endUnit kind)))
  | routine kind name body =>
    rw [Item.lines, Item.construct, Construct.marks]
    exact readLines_cons_of (readLine_routine kind name)
      (readLines_append_of (readLines_body body (line + 1))
        (readLines_single (readLine_endRoutine kind)))

/-- A forest is read as the forest. -/
theorem reads_linesOf (items : List Item) (units : List DesignUnit) (line : Nat) :
    readLines readLine line (outside units) (linesOf items) = (outside units,
      Construct.marksOf (constructsOf (units.head? == some .classUnit) line items)) := by
  cases items with
  | nil =>
    rw [linesOf, constructsOf, Construct.marksOf]
    rfl
  | cons item items =>
    rw [linesOf, constructsOf, Construct.marksOf]
    exact readLines_append_of (item.reads units line) (reads_linesOf items units _)

end

end Verilog

/-- **Reading a printed forest gives the forest**: each unit under its kind with its members, each
task and each function, in the order in which they were printed, on the lines on which they were
printed, and nothing of what the bodies of routines say. A function of a class is one of its
methods.

**Proof sketch.** The lines are read as what was printed (`reads_linesOf`), and marks of a forest
make the document of the forest. -/
theorem Language.scan_verilog_printed (items : List Verilog.Item) :
    verilog.scan ((Verilog.linesOf items).map String.ofList)
        = (Document.ofForest Verilog.legend (Verilog.constructsOf false 0 items)).forgetLastClass
      ∧ systemVerilog.scan ((Verilog.linesOf items).map String.ofList)
        = (Document.ofForest Verilog.legend
          (Verilog.constructsOf false 0 items)).forgetLastClass := by
  have hlines : ((Verilog.linesOf items).map String.ofList).map String.toList
      = Verilog.linesOf items := by simp [Function.comp_def]
  have hmarks : Verilog.marks (Verilog.linesOf items)
      = Construct.marksOf (Verilog.constructsOf false 0 items) :=
    congrArg Prod.snd (Verilog.reads_linesOf items [] 0)
  have hdocument : Document.ofMarks Verilog.legend
        (Verilog.marks (((Verilog.linesOf items).map String.ofList).map String.toList))
      = Document.ofForest Verilog.legend (Verilog.constructsOf false 0 items) := by
    rw [hlines, hmarks, Document.ofMarks_forest]
  exact ⟨congrArg Document.forgetLastClass hdocument, congrArg Document.forgetLastClass hdocument⟩

namespace Verilog

/-- A class in a package, and a body full of words that mean something elsewhere. -/
def disguised : List Item :=
  [.designUnit .packageUnit ⟨"p".toList, by decide, by decide⟩
    [.designUnit .classUnit ⟨"module".toList, by decide, by decide⟩
      [.routine .function ⟨"sum".toList, by decide, by decide⟩
        ⟨["extern class c; endclass task g();".toList,
          "typedef endtask endfunction_ endpackage".toList], by decide⟩]],
    .routine .function ⟨"endmodule".toList, by decide, by decide⟩ ⟨[], by decide⟩]

example : (linesOf disguised).map String.ofList = ["package p;", "class module;", "function sum;",
    "extern class c; endclass task g();", "typedef endtask endfunction_ endpackage", "endfunction",
    "endclass", "endpackage", "function endmodule;", "endfunction"] := by decide

example : constructsOf false 0 disguised = [.branch (unitHeader .packageUnit "p" 0)
    [.branch (unitHeader .classUnit "module" 1) [.leaf .methods "sum" 2]],
      .leaf .functions "endmodule" 8] :=
  rfl

end Verilog

end Outliner
