import Mathlib.Tactic.Lemma
import Outliner.Scan
import Outliner.Proofs.Braces
import Outliner.Proofs.Checked.ByCharacter
import Outliner.Proofs.Forest
import Outliner.Proofs.Php.Lexing

set_option autoImplicit false

/-!
# Printed PHP sources

Classes with properties and methods, and functions beside them, are printed line by line. Reading
what was printed gives them back: each class with its members, each function, all with their names
and their lines, and nothing of what the bodies of methods say.

The braces tell it all. Between two items none is open; between two members of a class one is; and
in the body of a method two are and those that the body has opened so far, so that nothing there is
taken for a member.

## Main definitions

* `Outliner.Php.Member`, `Outliner.Php.Item` — what can be printed.
* `Outliner.Php.Item.lines`, `Outliner.Php.linesOf` — printing.
* `Outliner.Php.Item.construct`, `Outliner.Php.constructsOf` — what is declared.

## Main results

* `Outliner.Php.readLines_body` — in the body of a method only the number of open braces changes.
* `Outliner.Php.Member.reads`, `Outliner.Php.Item.reads` — members and items are read as what they
  declare, and leave nothing behind.
* `Outliner.Language.scan_php_printed` — the document of printed items is the items.
-/

namespace Outliner

namespace Php

open Cursor (Passes)

/-! ## Printing -/

/-- The name of a class, a property, a method or a function. -/
structure Name where
  /-- The characters of the name. -/
  text : List Char
  /-- They are an identifier. -/
  identifier : isIdentifier text = true

/-- The signs that begin a literal. -/
def quotes : List Char := ['"', '\'', Char.ofNat 0x60]

/-- A line that may stand in the body of a method, whatever it says. -/
structure IsBodyLine (line : List Char) : Prop where
  /-- It holds no quotes. -/
  unquoted : ∀ quote ∈ quotes, quote ∉ line
  /-- It does not leave the code, and no comment begins there. -/
  uncommented : ∀ sign ∈ ["?>".toList, "//".toList, "/*".toList], ¬ sign <:+: line
  /-- A number sign begins an attribute and no comment. -/
  attributes : ∀ rest ∈ line.tails, rest.head? = some '#' → "#[".toList <+: rest
  /-- No class is declared there. -/
  classless : ∀ word ∈ classKeywords, ¬ Cursor.HoldsWord isIdentifierChar word.toList line

instance (line : List Char) : Decidable (IsBodyLine line) :=
  -- A test of the list: Batteries decides `∀ quote : Char` by running through all characters.
  decidable_of_iff (quotes.all (· ∉ line)
      ∧ (∀ sign ∈ ["?>".toList, "//".toList, "/*".toList], ¬ sign <:+: line)
      ∧ (∀ rest ∈ line.tails, rest.head? = some '#' → "#[".toList <+: rest)
      ∧ ∀ word ∈ classKeywords, ¬ Cursor.HoldsWord isIdentifierChar word.toList line)
    ⟨fun h => ⟨by simpa using h.1, h.2.1, h.2.2.1, h.2.2.2⟩,
      fun h => ⟨by simpa using h.unquoted, h.uncommented, h.attributes, h.classless⟩⟩

/-- The body of a method. -/
structure Body where
  /-- Its lines. -/
  lines : List (List Char)
  /-- Each may stand there. -/
  readable : ∀ line ∈ lines, IsBodyLine line
  /-- They close the braces that they open, and no others. -/
  balanced : Balanced lines

/-- A member of a class that can be printed. -/
inductive Member where
  /-- A property. -/
  | property (name : Name)
  /-- A method with its body. -/
  | method (name : Name) (body : Body)

/-- What can be printed. -/
inductive Item where
  /-- A class with its members. -/
  | classOf (name : Name) (members : List Member)
  /-- A function. -/
  | function (name : Name)

/-- The line of a property. -/
def propertyLine (name : Name) : List Char :=
  "public".toList ++ ' ' :: '$' :: name.text ++ [';']

/-- The first line of a function. -/
def functionLine (name : Name) : List Char :=
  "function".toList ++ ' ' :: name.text ++ ['(', ')', ' ', '\x7b']

/-- The first line of a method. -/
def methodLine (name : Name) : List Char := "public".toList ++ ' ' :: functionLine name

/-- The first line of a class. -/
def classLine (name : Name) : List Char :=
  "class".toList ++ ' ' :: name.text ++ [' ', '\x7b']

/-- The line with which a class, a method or a function ends. -/
def closingLine : List Char := ['\x7d']

/-- The lines of a member. -/
def Member.lines : Member → List (List Char)
  | .property name => [propertyLine name]
  | .method name body => methodLine name :: (body.lines ++ [closingLine])

/-- The lines of some members. -/
def linesOfMembers (members : List Member) : List (List Char) := members.flatMap Member.lines

/-- The lines of an item. -/
def Item.lines : Item → List (List Char)
  | .classOf name members => classLine name :: (linesOfMembers members ++ [closingLine])
  | .function name => [functionLine name, closingLine]

/-- The lines of a source: the tag that opens the code, and the items. -/
def linesOf (items : List Item) : List (List Char) := "<?php".toList :: items.flatMap Item.lines

/-- What a member declares that is printed from the given line on. -/
def Member.construct (line : Nat) : Member → Construct
  | .property name => .leaf .vars (.ofList name.text) line
  | .method name _ => .leaf .methods (.ofList name.text) line

/-- What some members declare that are printed from the given line on. -/
def constructsOfMembers (line : Nat) : List Member → List Construct
  | [] => []
  | member :: members =>
    member.construct line :: constructsOfMembers (line + member.lines.length) members

/-- What an item declares that is printed from the given line on. -/
def Item.construct (line : Nat) : Item → Construct
  | .classOf name members =>
    .branch (classHeader name.text line) (constructsOfMembers (line + 1) members)
  | .function name => .leaf .functions (.ofList name.text) line

/-- What some items declare that are printed from the given line on. -/
def constructsOf (line : Nat) : List Item → List Construct
  | [] => []
  | item :: items => item.construct line :: constructsOf (line + item.lines.length) items

/-! ## Steps -/

section Steps

variable {s : State} {before rest : List Char} {line : Nat}

/-- A character that is no sign and no part of a word means nothing. -/
lemma passes_plain (hmode : s.mode = .code) {ch : Char} (hsign : ch ∉ signs)
    (hch : isIdentifierChar ch = false) : Passes (step line) s before [ch] rest s [] := by
  refine Passes.of_next ?_
  rw [step_of_not_mem_signs hmode rfl hsign, hch]
  rfl

/-- A space is passed over. -/
lemma passes_space (hmode : s.mode = .code) : Passes (step line) s before [' '] rest s [] :=
  passes_plain hmode (by decide) (by decide)

/-- A semicolon is passed over, if no header waits. -/
lemma passes_semicolon (hmode : s.mode = .code) (hpending : s.pending = none) :
    Passes (step line) s before [';'] rest s [] := by
  obtain ⟨mode, braces, classBraces, pending⟩ := s
  obtain rfl : mode = .code := hmode
  obtain rfl : pending = none := hpending
  exact Passes.of_next rfl

/-- A step at an opening brace opens it. -/
lemma step_open (hmode : s.mode = .code) {c : Cursor} (hch : c.peek? = some '\x7b') :
    step line s c '\x7b'
      = { state := (openBrace s).1, cursor := c.next, found := (openBrace s).2 } := by
  obtain ⟨mode, braces, classBraces, pending⟩ := s
  obtain rfl : mode = .code := hmode
  obtain ⟨before, after⟩ := c
  obtain ⟨rest, rfl⟩ := List.head?_eq_some_iff.1 hch
  rfl

/-- A step at a closing brace closes it. -/
lemma step_close (hmode : s.mode = .code) {c : Cursor} (hch : c.peek? = some '\x7d') :
    step line s c '\x7d'
      = { state := (closeBrace s).1, cursor := c.next, found := (closeBrace s).2 } := by
  obtain ⟨mode, braces, classBraces, pending⟩ := s
  obtain rfl : mode = .code := hmode
  obtain ⟨before, after⟩ := c
  obtain ⟨rest, rfl⟩ := List.head?_eq_some_iff.1 hch
  rfl

/-- An opening brace is passed over and opens what waits. -/
lemma passes_open (hmode : s.mode = .code) :
    Passes (step line) s before ['\x7b'] rest (openBrace s).1 (openBrace s).2 :=
  Passes.of_next (step_open hmode rfl)

/-- A closing brace is passed over and closes what it began. -/
lemma passes_close (hmode : s.mode = .code) :
    Passes (step line) s before ['\x7d'] rest (closeBrace s).1 (closeBrace s).2 :=
  Passes.of_next (step_close hmode rfl)

/-- A word is passed over, with what is read along with it. -/
lemma passes_word (hmode : s.mode = .code) {text : List Char} {s' : State} {found : List Mark}
    (htext : text.head?.any isIdentifierChar = true)
    (hbefore : before.head?.any isIdentifierChar = false)
    (hstep : wordStep line s ⟨before, text ++ rest⟩
      = { state := s', cursor := ⟨text.reverse ++ before, rest⟩, found := found }) :
    Passes (step line) s before text rest s' found := by
  cases text with
  | nil => exact absurd htext (by decide)
  | cons ch tail =>
    have hstart : (⟨before, ch :: tail ++ rest⟩ : Cursor).isAtWordStart = true := by
      rw [Cursor.isAtWordStart, Cursor.previous?, hbefore]
      rfl
    exact Passes.of_step ((step_word hmode rfl (by simpa using htext) hstart line).trans hstep)

end Steps

/-! ## Words -/

section Words

variable {s : State} {before rest : List Char} {line : Nat}

/-- A name begins with a character of a name. -/
lemma Name.head (name : Name) : name.text.head?.any isIdentifierChar = true := by
  obtain ⟨c, tail, htext, hc⟩ := exists_cons_of_isIdentifier name.identifier
  rw [htext]
  exact hc

/-- The blank before a name is skipped. -/
lemma skipBlanks_name (name : Name) (before rest : List Char) :
    (⟨before, ' ' :: (name.text ++ rest)⟩ : Cursor).skipBlanks
      = ⟨' ' :: before, name.text ++ rest⟩ := by
  obtain ⟨c, tail, htext, hc⟩ := exists_cons_of_isIdentifier name.identifier
  have hnot : (name.text ++ rest).head?.any isBlank = false := by
    rw [htext]
    exact isBlank_of_isIdentifierChar hc
  have hspace : [' '].all isBlank = true := by decide
  exact congrArg Prod.snd (Cursor.span_word hspace hnot before)

/-- A name does not begin with an ampersand. -/
lemma eat_name (name : Name) (before rest : List Char) :
    (⟨before, name.text ++ rest⟩ : Cursor).eat ['&'] = ⟨before, name.text ++ rest⟩ := by
  obtain ⟨c, tail, htext, hc⟩ := exists_cons_of_isIdentifier name.identifier
  have hne : c ≠ '&' := by
    rintro rfl
    exact absurd hc (by decide)
  have hstarts : (⟨before, name.text ++ rest⟩ : Cursor).startsWith ['&'] = false := by
    rw [htext]
    exact Cursor.startsWith_of_ne hne before (tail ++ rest) []
  rw [Cursor.eat, Cursor.eat?, hstarts]
  rfl

/-- A name is read at the cursor. -/
lemma identifierAt_name (name : Name) (hrest : rest.head?.any isIdentifierChar = false)
    (before : List Char) : identifierAt ⟨before, name.text ++ rest⟩
      = (some name.text, ⟨name.text.reverse ++ before, rest⟩) := by
  rw [identifierAt, Cursor.identifier,
    Cursor.span_word (all_of_isIdentifier name.identifier) hrest]
  simp only [name.identifier, if_true]

/-- The word that begins a function is read with its name.

**Proof sketch.** Nothing stands before the word, or a space, so it begins a word and is no member.
The blank behind it is skipped, and the name ends where the rest begins. -/
lemma passes_function (hmode : s.mode = .code) (name : Name)
    (hrest : rest.head?.any isIdentifierChar = false)
    (hbefore : before.head?.all (· == ' ') = true) :
    Passes (step line) s before ("function".toList ++ ' ' :: name.text) rest s
      (functionMarks s name.text line) := by
  have hapart : ∀ p : Char → Bool, p ' ' = false → before.head?.any p = false := by
    intro p hp
    cases before with
    | nil => rfl
    | cons c before =>
      obtain rfl : c = ' ' := by simpa using hbefore
      exact hp
  have hmember := hapart (fun c => c == '$' || c == ':' || c == '>') (by decide)
  have hstart := hapart isIdentifierChar (by decide)
  have hclass : classKeywords.contains (.ofList "function".toList) = false := by decide
  have hblank : isBlank ' ' = true := by decide
  refine passes_word hmode rfl hstart ?_
  rw [List.append_assoc, List.cons_append, wordStep, Cursor.identifier,
    Cursor.span_word (by decide) rfl, List.reverse_append, List.reverse_cons, List.append_assoc,
    List.append_assoc]
  simp only [Cursor.previous?, hmember, Cursor.peek?, List.head?_cons, Option.any_some, hblank,
    Bool.not_true, Bool.or_false, Bool.false_eq_true, if_false, hclass, if_true,
    skipBlanks_name, eat_name, identifierAt_name name hrest]
  rfl

/-- The word that begins a class is read with its name. -/
lemma passes_class (hmode : s.mode = .code) (name : Name)
    (hrest : rest.head?.any isIdentifierChar = false) :
    Passes (step line) s [] ("class".toList ++ ' ' :: name.text) rest
      { s with pending := some (name.text, line) } [] := by
  have hclass : classKeywords.contains (.ofList "class".toList) = true := by decide
  have hblank : isBlank ' ' = true := by decide
  refine passes_word hmode rfl rfl ?_
  rw [List.append_assoc, List.cons_append, wordStep, Cursor.identifier,
    Cursor.span_word (by decide) rfl, List.reverse_append, List.reverse_cons, List.append_assoc,
    List.append_assoc]
  simp only [Cursor.previous?, Cursor.peek?, List.head?_cons, Option.any_some, hblank,
    Bool.not_true, Bool.or_false, hclass, if_true, skipBlanks_name, identifierAt_name name hrest]
  rfl

/-- A modifier means nothing by itself. -/
lemma passes_public (hmode : s.mode = .code) :
    Passes (step line) s [] "public".toList (' ' :: rest) s [] := by
  have hclass : classKeywords.contains (.ofList "public".toList) = false := by decide
  have hblank : isBlank ' ' = true := by decide
  have hfunction : "public".toList ≠ "function".toList := by decide
  have hnamespace : "public".toList ≠ "namespace".toList := by decide
  refine passes_word hmode rfl rfl ?_
  rw [wordStep, Cursor.identifier, Cursor.span_word (by decide) rfl]
  simp only [Cursor.previous?, Cursor.peek?, List.head?_cons, Option.any_some, hblank,
    Bool.not_true, Bool.or_false, Bool.false_eq_true, if_false, hclass, hfunction, hnamespace,
    false_and]
  rfl

/-- The name of a variable means nothing. -/
lemma passes_variable (hmode : s.mode = .code) (name : Name)
    (hrest : rest.head?.any isIdentifierChar = false) :
    Passes (step line) s before ('$' :: name.text) rest s [] := by
  have hname : Passes (step line) s ('$' :: before) name.text rest s [] := by
    refine passes_word hmode name.head rfl ?_
    rw [wordStep, Cursor.identifier, Cursor.span_word (all_of_isIdentifier name.identifier) hrest]
    rfl
  exact (passes_plain hmode (by decide) (by decide)).cons hname

end Words

/-! ## Lines -/

/-- The state in code where some braces are open, and no class header waits for its brace. -/
def level (braces : Nat) (classBraces : Option Nat) : State :=
  { mode := .code, braces := braces, classBraces := classBraces }

section Lines

variable {s s' : State} {text : List Char} {found : List Mark} {line braces : Nat}
  {classBraces : Option Nat}

/-- A line that is passed over, and that declares no property, is read. -/
lemma readLine_of_passes (h : Passes (step line) s [] text [] s' found)
    (hproperty : propertyMarks s line text = []) : readLine s line text = (s', found) := by
  rw [readLine, h.walk_start, hproperty]
  rfl

/-- Where the braces are not those of the body of a class, a line declares no property. -/
lemma propertyMarks_eq_nil (h : s.atMemberLevel = false) : propertyMarks s line text = [] := by
  rw [propertyMarks, if_neg (by simp [h])]

/-- A function is declared where it stands, and its body begins. -/
lemma passes_functionLine (name : Name) {before : List Char}
    (hbefore : before.head?.all (· == ' ') = true) :
    Passes (step line) (level braces classBraces) before (functionLine name) []
      (level (braces + 1) classBraces)
      (functionMarks (level braces classBraces) name.text line) := by
  have hfunction : Passes (step line) (level braces classBraces) before
      ("function".toList ++ ' ' :: name.text) ['(', ')', ' ', '\x7b'] (level braces classBraces)
      (functionMarks (level braces classBraces) name.text line) :=
    passes_function rfl name rfl hbefore
  have hsigns : ∀ before, Passes (step line) (level braces classBraces) before
      ['(', ')', ' ', '\x7b'] [] (level (braces + 1) classBraces) [] := fun before =>
    (passes_plain rfl (by decide) (by decide)).cons ((passes_plain rfl (by decide)
      (by decide)).cons ((passes_space rfl).cons (passes_open rfl)))
  have hline := hfunction.append (hsigns _)
  rwa [List.append_nil] at hline

/-- The line with which a function begins that is no method. -/
lemma readLine_function (name : Name) (line : Nat) :
    readLine (level 0 none) line (functionLine name)
      = (level 1 none, [.leaf .functions (.ofList name.text) line]) :=
  readLine_of_passes (passes_functionLine name rfl) (propertyMarks_eq_nil rfl)

/-- The line with which a class begins enters it. -/
lemma readLine_class (name : Name) (line : Nat) :
    readLine (level 0 none) line (classLine name)
      = (level 1 (some 0), [.enter (classHeader name.text line)]) := by
  have hclass : Passes (step line) (level 0 none) [] ("class".toList ++ ' ' :: name.text)
      [' ', '\x7b'] { level 0 none with pending := some (name.text, line) } [] :=
    passes_class rfl name rfl
  have hsigns : ∀ before, Passes (step line) { level 0 none with pending := some (name.text, line) }
      before [' ', '\x7b'] [] (level 1 (some 0)) [.enter (classHeader name.text line)] :=
    fun before => (passes_space rfl).cons (passes_open rfl)
  exact readLine_of_passes (hclass.append_silent (hsigns _)) (propertyMarks_eq_nil rfl)

/-- A line with a closing brace only. -/
lemma readLine_closing (s : State) (hmode : s.mode = .code) (line : Nat) :
    readLine s line closingLine = closeBrace s := by
  have hproperty : propertyMarks s line closingLine = [] := by
    have hnone : propertyName? closingLine = none := by cbv
    rw [propertyMarks, hnone]
    exact ite_self []
  exact readLine_of_passes (passes_close hmode) hproperty

/-! ### Members -/

/-- A name may stand in front of what ends the head of a declaration. -/
lemma Name.all_head (name : Name) :
    name.text.all (fun c => c != '(' && c != '=' && c != ';') = true := by
  refine all_of_isIdentifierChar (fun c hc => ?_) name.identifier
  have hends : ['(', '=', ';'].any isIdentifierChar = false := by decide
  have hne : ∀ d ∈ ['(', '=', ';'], c ≠ d := by
    rintro d hd rfl
    exact List.any_eq_false.1 hends c hd hc
  simpa [and_assoc] using hne

/-- A modifier and the words after it. -/
lemma words_public (rest : List Char) :
    words ("public".toList ++ ' ' :: rest) = "public".toList :: words rest := by
  rw [words_append (by decide) (by decide) rfl, words_blank (by decide)]

/-- The line of a property declares it.

**Proof sketch.** What precedes the semicolon is the modifier, a space and the variable. The
modifier is the first word, the variable is no word that begins another declaration, and the name is
what follows its sigil. -/
lemma propertyName?_propertyLine (name : Name) :
    propertyName? (propertyLine name) = some name.text := by
  have hsolid : ('$' :: name.text).any isBlank = false := by
    rw [List.any_cons, any_isBlank_of_isIdentifier name.identifier]
    decide
  have hwords : words ("public".toList ++ ' ' :: '$' :: name.text)
      = ["public".toList, '$' :: name.text] := by
    have hlast : words ('$' :: name.text ++ []) = ('$' :: name.text) :: words [] :=
      words_append (List.cons_ne_nil _ _) hsolid rfl
    rw [List.append_nil, words] at hlast
    rw [words_public, hlast]
  have hhead : (propertyLine name).takeWhile (fun c => c != '(' && c != '=' && c != ';')
      = "public".toList ++ ' ' :: '$' :: name.text := by
    refine takeWhile_word ?_ rfl
    rw [List.all_append, List.all_cons, List.all_cons, name.all_head]
    decide
  have hother : declaresOther ("public".toList ++ ' ' :: '$' :: name.text) = false := by
    rw [declaresOther, hwords]
    rfl
  have hfirst : (words (propertyLine name)).head? = some "public".toList := by
    have hline : propertyLine name = "public".toList ++ ' ' :: ('$' :: name.text ++ [';']) :=
      List.append_assoc _ _ _
    rw [hline, words_public]
    rfl
  have hdollar : ("public".toList ++ ' ' :: '$' :: name.text).contains '$' = true := by simp
  have hname : ("public".toList ++ ' ' :: '$' :: name.text).dropWhile (· != '$')
      = '$' :: name.text := rfl
  have htrim : trimStart (propertyLine name) = propertyLine name := rfl
  have hmodifier : modifiers.contains (.ofList "public".toList) = true := by decide
  have hend : name.text.takeWhile isIdentifierChar = name.text := by
    have htake : (name.text ++ []).takeWhile isIdentifierChar = name.text :=
      takeWhile_word (all_of_isIdentifier name.identifier) rfl
    rwa [List.append_nil] at htake
  rw [propertyName?, htrim, hhead, hfirst, hother, hdollar, hname]
  simp only [Option.any_some, hmodifier, Bool.not_true, Bool.false_eq_true, if_false, Bool.or_self,
    List.drop_one, List.tail_cons, hend, name.identifier, if_true]

/-- The line of a method declares no property.

**Proof sketch.** Its second word begins another declaration. -/
lemma propertyName?_methodLine (name : Name) : propertyName? (methodLine name) = none := by
  have hhead : (methodLine name).takeWhile (fun c => c != '(' && c != '=' && c != ';')
      = "public".toList ++ ' ' :: ("function".toList ++ ' ' :: name.text) := by
    have hsplit : methodLine name
        = ("public".toList ++ ' ' :: ("function".toList ++ ' ' :: name.text))
          ++ ['(', ')', ' ', '\x7b'] := by
      rw [List.append_assoc, List.cons_append]
      rfl
    rw [hsplit]
    refine takeWhile_word ?_ rfl
    rw [List.all_append, List.all_cons, List.all_append, List.all_cons, name.all_head]
    decide
  have hother : declaresOther ("public".toList ++ ' ' :: ("function".toList ++ ' ' :: name.text))
      = true := by
    rw [declaresOther, words_public, words_append (by decide) (by decide) rfl]
    rfl
  have htrim : trimStart (methodLine name) = methodLine name := rfl
  rw [propertyName?, htrim, hhead, hother]
  exact ite_self none

/-- The line of a property declares it. -/
lemma readLine_property (name : Name) (line : Nat) :
    readLine (level 1 (some 0)) line (propertyLine name)
      = (level 1 (some 0), [.leaf .vars (.ofList name.text) line]) := by
  have hproperty : propertyMarks (level 1 (some 0)) line (propertyLine name)
      = [.leaf .vars (.ofList name.text) line] := by
    rw [propertyMarks, propertyName?_propertyLine, if_pos ⟨rfl, rfl⟩]
    rfl
  have hvariable : ∀ before, Passes (step line) (level 1 (some 0)) before ('$' :: name.text)
      [';'] (level 1 (some 0)) [] := fun before => passes_variable rfl name rfl
  have hline : Passes (step line) (level 1 (some 0)) [] (propertyLine name) []
      (level 1 (some 0)) [] :=
    ((passes_public rfl).append_silent ((passes_space rfl).cons (hvariable _))).append_silent
      (passes_semicolon rfl rfl)
  rw [readLine, hline.walk_start, hproperty]
  rfl

/-- The line with which a method begins declares it, and its body begins. -/
lemma readLine_method (name : Name) (line : Nat) :
    readLine (level 1 (some 0)) line (methodLine name)
      = (level 2 (some 0), [.leaf .methods (.ofList name.text) line]) := by
  have hproperty : propertyMarks (level 1 (some 0)) line (methodLine name) = [] := by
    rw [propertyMarks, propertyName?_methodLine]
    exact ite_self []
  have hfunction : ∀ before, Passes (step line) (level 1 (some 0)) (' ' :: before)
      (functionLine name) [] (level 2 (some 0)) [.leaf .methods (.ofList name.text) line] :=
    fun before => passes_functionLine name rfl
  exact readLine_of_passes ((passes_public rfl).append_silent
    ((passes_space rfl).cons (hfunction _))) hproperty

end Lines

/-! ## Bodies -/

section Bodies

variable {text : List Char} {depth : Nat}

/-- The state in the body of a method, where further braces are open in it. -/
def inBody (depth : Nat) : State := level (depth + 2) (some 0)

/-- In the body of a method nothing is a member. -/
lemma atMemberLevel_inBody (depth : Nat) : (inBody depth).atMemberLevel = false := by
  simp [State.atMemberLevel, inBody, level]

/-- A function in the body of a method is not marked. -/
lemma functionMarks_inBody (depth : Nat) (name : List Char) (line : Nat) :
    functionMarks (inBody depth) name line = [] := by
  rw [functionMarks, atMemberLevel_inBody]
  rfl

/-- A brace that was opened in the body of a method does not end the class. -/
lemma closeBrace_inBody (depth : Nat) : closeBrace (inBody (depth + 1)) = (inBody depth, []) := by
  simp [closeBrace, inBody, level]

/-- Words are read over no brace. -/
lemma braceDepth?_after_identifier (c : Cursor) (depth : Nat) :
    braceDepth? depth c.identifier.2.after = braceDepth? depth c.after :=
  Cursor.braceDepth?_after_span (by decide) (by decide) c depth

/-- The word after a keyword is read over no brace. -/
lemma braceDepth?_after_name (c : Cursor) (depth : Nat) :
    braceDepth? depth (identifierAt (c.skipBlanks.eat ['&'])).2.after
      = braceDepth? depth c.after := by
  calc braceDepth? depth (identifierAt (c.skipBlanks.eat ['&'])).2.after
      = braceDepth? depth (c.skipBlanks.eat ['&']).after := braceDepth?_after_identifier _ depth
    _ = braceDepth? depth c.skipBlanks.after := Cursor.braceDepth?_after_eat (by decide) _ depth
    _ = braceDepth? depth c.after :=
        Cursor.braceDepth?_after_span (by decide) (by decide) c depth

/-- A word in the body of a method means nothing, whatever is read along with it.

**Proof sketch.** The line names no class, so the word begins none. If a name is read behind it, the
braces behind the name are those behind the word, and a function is not marked. -/
lemma wordStep_inBody (htext : IsBodyLine text) {c : Cursor} {ch : Char} (hc : c.line = text)
    (hch : c.peek? = some ch) (hstart : c.isAtWordStart = true) (line : Nat) :
    ∃ d, wordStep line (inBody depth) c = { state := inBody depth, cursor := d }
      ∧ braceDepth? depth d.after = braceDepth? depth c.after := by
  have hword := braceDepth?_after_identifier c depth
  have hclass : classKeywords.contains (.ofList c.identifier.1) = false := by
    rw [Bool.eq_false_iff, ne_eq, List.contains_iff_mem]
    intro hmem
    refine htext.classless _ hmem ?_
    rw [String.toList_ofList, ← hc]
    exact Cursor.holdsWord_span isIdentifierChar hch hstart
  have hbraces : (inBody depth).braces ≠ 0 := Nat.succ_ne_zero (depth + 1)
  simp only [wordStep, hclass, hbraces, and_false, if_false, Bool.false_eq_true]
  split
  · exact ⟨_, rfl, hword⟩
  · split
    · have hname := (braceDepth?_after_name c.identifier.2 depth).trans hword
      split
      · next name rest hsome =>
        rw [functionMarks_inBody]
        exact ⟨_, rfl, (hsome ▸ hname :)⟩
      · next rest hnone => exact ⟨_, rfl, (hnone ▸ hname :)⟩
    · exact ⟨_, rfl, hword⟩

/-- A step in the body of a method, at a character that is no brace, changes nothing.

**Proof sketch.** The signs of comments, tags and literals do not stand on the line, so what remains
are an attribute, which takes two characters, a word (`wordStep_inBody`), and single characters,
which are passed over. -/
lemma step_inBody (htext : IsBodyLine text) {c : Cursor} {ch : Char} (hc : c.line = text)
    (hch : c.peek? = some ch) (hbrace : isBrace ch = false) (line : Nat) :
    ∃ d, step line (inBody depth) c ch = { state := inBody depth, cursor := d }
      ∧ braceDepth? depth d.after = braceDepth? depth c.after := by
  have hnext := Cursor.braceDepth?_after_next hch hbrace depth
  have hsign : ∀ sign ∈ ["?>".toList, "//".toList, "/*".toList], c.startsWith sign = false :=
    fun sign hmem => Cursor.startsWith_eq_false (hc.symm ▸ htext.uncommented sign hmem)
  have hpage : c.startsWith "?>".toList = false := hsign _ (by simp)
  have hslashes : c.startsWith "//".toList = false := hsign _ (by simp)
  have hslash : c.startsWith "/*".toList = false := hsign _ (by simp)
  have hquote : ∀ quote ∈ quotes, ch ≠ quote := by
    rintro quote hmem rfl
    exact htext.unquoted ch hmem (hc ▸ c.after_suffix.subset (List.mem_of_head? hch))
  have hliteral : ¬ (ch = '"' ∨ ch = '\'' ∨ ch.toNat = 0x60) := by
    rintro (h | h | h)
    · exact hquote '"' (by decide) h
    · exact hquote '\'' (by decide) h
    · exact hquote (Char.ofNat 0x60) (by decide) (by rw [← h, Char.ofNat_toNat])
  have hcomment : c.startsWith "#[".toList = false → (ch == '#') = false := by
    intro hattribute
    rw [beq_eq_false_iff_ne]
    rintro rfl
    have htail : c.after ∈ text.tails := (List.mem_tails _ _).2 (hc ▸ c.after_suffix)
    obtain ⟨rest, hrest⟩ := htext.attributes c.after htail hch
    rw [Cursor.startsWith, startsWith_iff.2 ⟨rest, hrest.symm⟩] at hattribute
    exact absurd hattribute (by decide)
  rw [isBrace, Bool.or_eq_false_iff, beq_eq_false_iff_ne, beq_eq_false_iff_ne] at hbrace
  show ∃ d, codeStep line (inBody depth) c ch = _ ∧ _
  simp only [codeStep, hpage, hslashes, hslash, hliteral, hbrace.1, hbrace.2, Bool.false_or,
    Bool.false_eq_true, if_false]
  cases hattribute : c.startsWith "#[".toList with
  -- an attribute
  | true =>
    obtain ⟨rest, hrest⟩ := startsWith_iff.1 hattribute
    refine ⟨c.forward 2, rfl, Cursor.braceDepth?_after_forward ?_ depth⟩
    rw [hrest]
    rfl
  | false =>
    simp only [hcomment hattribute, Bool.false_eq_true, if_false]
    split
    · exact ⟨_, rfl, hnext⟩
    -- a word, or a character that means nothing
    · split
      · next hword =>
        rw [Bool.and_eq_true] at hword
        exact wordStep_inBody htext hc hch hword.2 line
      · exact ⟨_, rfl, hnext⟩

/-- A line in the body of a method is passed over, and its braces are counted.

**Proof sketch.** The walk changes only the number of open braces: at each of them by one
(`step_open`, `step_close`), and elsewhere not (`step_inBody`). No property is reported, as the body
is deeper than the members of the class. -/
lemma readLine_inBody (htext : IsBodyLine text) {after : Nat}
    (h : braceDepth? depth text = some after) (line : Nat) :
    readLine (inBody depth) line text = (inBody after, []) := by
  have hwalk : Cursor.walk (step line) (inBody depth) (.start text) = (inBody after, []) := by
    refine Cursor.walk_depth ?_ ?_ ?_ h
    · intro depth c _ hch
      exact step_open rfl hch
    · intro depth c _ hch
      rw [step_close rfl hch, closeBrace_inBody]
    · intro depth c ch hc hch hbrace
      obtain ⟨d, hstep, hdepth⟩ := step_inBody htext hc hch hbrace line
      have hadvances := (step_runs line (inBody depth) hch).advances
      rw [hstep] at hadvances
      exact ⟨d, hstep, hadvances, hdepth⟩
  rw [readLine, hwalk, propertyMarks_eq_nil (atMemberLevel_inBody depth)]
  rfl

/-- **In the body of a method only the number of open braces changes.** -/
lemma readLines_body (body : Body) (first : Nat) :
    readLines readLine first (inBody 0) body.lines = (inBody 0, []) :=
  readLines_depth (fun line hline _ _ n h => readLine_inBody (body.readable line hline) h n)
    body.balanced first

end Bodies

/-! ## Items -/

/-- **A member is read as what it declares, and leaves nothing behind.** -/
lemma Member.reads (member : Member) (line : Nat) :
    readLines readLine line (level 1 (some 0)) member.lines
      = (level 1 (some 0), (member.construct line).marks) := by
  cases member with
  | property name =>
    rw [construct, Construct.marks]
    exact readLines_single (readLine_property name line)
  | method name body =>
    rw [construct, Construct.marks]
    exact readLines_cons_of (readLine_method name line)
      (readLines_append_of (readLines_body body (line + 1))
        (readLines_single (readLine_closing (inBody 0) rfl _)))

/-- The members of a class are read as what they declare. -/
lemma reads_linesOfMembers (members : List Member) (line : Nat) :
    readLines readLine line (level 1 (some 0)) (linesOfMembers members)
      = (level 1 (some 0), Construct.marksOf (constructsOfMembers line members)) := by
  induction members generalizing line with
  | nil =>
    rw [constructsOfMembers, Construct.marksOf]
    rfl
  | cons member members ih =>
    rw [constructsOfMembers, Construct.marksOf]
    exact readLines_append_of (member.reads line) (ih _)

/-- The marks of an item: a class does not count as the last class once it is left. -/
def Item.marks (line : Nat) (item : Item) : List Mark :=
  match item with
  | .classOf _ _ => (item.construct line).marks ++ [.forget]
  | .function _ => (item.construct line).marks

/-- **An item is read as what it declares, and leaves nothing behind.** -/
lemma Item.reads (item : Item) (line : Nat) :
    readLines readLine line (level 0 none) item.lines = (level 0 none, item.marks line) := by
  cases item with
  | classOf name members =>
    rw [Item.marks, construct, Construct.marks, List.cons_append, List.append_assoc]
    exact readLines_cons_of (readLine_class name line)
      (readLines_append_of (reads_linesOfMembers members (line + 1))
        (readLines_single (readLine_closing (level 1 (some 0)) rfl _)))
  | function name =>
    rw [Item.marks, construct, Construct.marks]
    exact readLines_cons_of (readLine_function name line)
      (readLines_single (readLine_closing (level 1 none) rfl _))

/-- The marks of some items that are printed from the given line on. -/
def marksOf (line : Nat) : List Item → List Mark
  | [] => []
  | item :: items => item.marks line ++ marksOf (line + item.lines.length) items

/-- Items are read as what they declare. -/
lemma reads_items (items : List Item) (line : Nat) :
    readLines readLine line (level 0 none) (items.flatMap Item.lines)
      = (level 0 none, marksOf line items) := by
  induction items generalizing line with
  | nil => rfl
  | cons item items ih => exact readLines_append_of (item.reads line) (ih _)

/-- The tag that opens the code. -/
lemma readLine_tag : readLine {} 0 "<?php".toList = (level 0 none, []) := by
  have htag : Passes (step 0) {} [] "<?php".toList [] (level 0 none) [] := Passes.of_step rfl
  exact readLine_of_passes htag rfl

/-- **The marks of a source are those of its items.** -/
lemma marks_linesOf (items : List Item) : marks (linesOf items) = marksOf 1 items :=
  congrArg Prod.snd (readLines_cons_of readLine_tag (reads_items items 1))

/-! ## Documents -/

/-- The marks of an item file it, and leave no last class. -/
lemma Item.marks_marks (item : Item) (line : Nat) (d : Document) :
    Draft.marks ⟨d.forgetLastClass, []⟩ (item.marks line)
      = ⟨(d.addConstruct (item.construct line)).forgetLastClass, []⟩ := by
  cases item with
  | classOf name members =>
    rw [Item.marks, Draft.marks_append, Draft.marks_construct,
      ← Document.addConstruct_forgetLastClass]
    rfl
  | function name =>
    rw [Item.marks, Draft.marks_construct]
    rfl

/-- The marks of some items file them, and leave no last class. -/
lemma marks_marksOf (items : List Item) (line : Nat) (d : Document) :
    Draft.marks ⟨d.forgetLastClass, []⟩ (marksOf line items)
      = ⟨((constructsOf line items).foldl .addConstruct d).forgetLastClass, []⟩ := by
  induction items generalizing line d with
  | nil => rfl
  | cons item items ih =>
    rw [marksOf, Draft.marks_append, item.marks_marks line d, ih]
    rfl

end Php

/-- **Reading printed classes and functions gives them back**: each class with its properties and
its methods, each function, in the order in which they were printed, on the lines on which they were
printed, and nothing of what the bodies of methods say. No class counts as the last one at the
end. -/
theorem Language.scan_php_printed (items : List Php.Item) :
    php.scan ((Php.linesOf items).map String.ofList)
        = (Document.ofForest Php.legend (Php.constructsOf 1 items)).forgetLastClass
      ∧ (php.scan ((Php.linesOf items).map String.ofList)).lastClass? = none := by
  have hlines : ((Php.linesOf items).map String.ofList).map String.toList = Php.linesOf items := by
    simp [Function.comp_def]
  have hscan : php.scan ((Php.linesOf items).map String.ofList)
      = (Document.ofForest Php.legend (Php.constructsOf 1 items)).forgetLastClass := by
    show Document.ofMarks Php.legend (Php.marks _) = _
    rw [hlines, Php.marks_linesOf, Document.ofMarks]
    exact congrArg Draft.finish (Php.marks_marksOf items 1 (.withLegend Php.legend))
  rw [hscan]
  exact ⟨rfl, rfl⟩

namespace Php

/-- A class with a method whose body is full of declarations, and functions beside it. -/
def disguised : List Item :=
  [.function ⟨"class".toList, by decide⟩,
    .classOf ⟨"function".toList, by decide⟩
      [.method ⟨"enum".toList, by decide⟩
          ⟨["if (x) \x7b".toList, "public $a; #[b] function c() \x7b".toList, "\x7d \x7d".toList],
            by decide, by decide⟩,
        .property ⟨"public".toList, by decide⟩]]

example : (linesOf disguised).map String.ofList = ["<?php", "function class() \x7b", "\x7d",
    "class function \x7b", "public function enum() \x7b", "if (x) \x7b",
    "public $a; #[b] function c() \x7b", "\x7d \x7d", "\x7d", "public $public;", "\x7d"] := by
  decide

example : constructsOf 1 disguised = [.leaf .functions "class" 1,
    .branch (classHeader "function".toList 3) [.leaf .methods "enum" 4, .leaf .vars "public" 9]] :=
  rfl

end Php

end Outliner
