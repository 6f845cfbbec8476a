import Mathlib.Tactic.Lemma
import Outliner.ByCharacter.StyleSheet
import Outliner.Proofs.Braces

set_option autoImplicit false

/-!
# Printed style sheets

A sheet of rule sets and at-rules is printed line by line. Reading what was printed gives the
selectors of all rule sets back, also of those that stand in at-rules whose block holds rules, each
with its text and its line, and nothing of what stands in other blocks.

Between two rules nothing is carried along but the blocks that are open around them, so the rules of
a block are read like those of a sheet.

## Main definitions

* `Outliner.StyleSheet.Rule` — a rule that can be printed.
* `Outliner.StyleSheet.Rule.lines`, `Outliner.StyleSheet.linesOf` — printing.
* `Outliner.StyleSheet.Rule.selectors`, `Outliner.StyleSheet.selectorsOf` — the selectors of the
  rule sets.

## Main results

* `Outliner.StyleSheet.Rule.reads` — a rule is read as its selectors, and leaves nothing behind.
* `Outliner.StyleSheet.selectors_printed` — the selectors of a printed sheet are those of its rule
  sets.
-/

namespace Outliner.StyleSheet

open Cursor (Passes)

/-! ## Printing -/

/-- Whether the character is a quote. -/
def isQuote (c : Char) : Bool := c == '"' || c == '\''

/-- Whether the character may stand in the text of a selector. -/
def isSelectorChar (c : Char) : Bool :=
  !(isBrace c || isQuote c || c == ';' || c == ',' || c == '/' || c == '@')

/-- Whether the character may stand between the name of an at-rule and its block or its end. -/
def isPreludeChar (c : Char) : Bool := !(isBrace c || isQuote c || c == ';')

/-- No comment begins in the text. -/
def Uncommented (text : List Char) : Prop := ¬ "/*".toList <:+: text

instance (text : List Char) : Decidable (Uncommented text) :=
  inferInstanceAs (Decidable (¬ "/*".toList <:+: text))

/-- A selector that can be printed. -/
structure SelectorText where
  /-- Its characters. -/
  text : List Char
  /-- There is one at least. -/
  nonempty : text ≠ []
  /-- It has no blanks at its ends. -/
  trimmed : trim text = text
  /-- It holds no sign that means something else among rules. -/
  plain : text.all isSelectorChar = true

/-- The name of an at-rule. -/
structure RuleName where
  /-- Its characters. -/
  text : List Char
  /-- They may stand in a name. -/
  plain : text.all isRuleNameChar = true

/-- Whether the block of an at-rule of the name holds rules. -/
def RuleName.nests (name : RuleName) : Bool :=
  groupRules.contains (.ofList (name.text.map Char.toLower))

/-- What stands between the name of an at-rule and its block or its end. -/
structure Prelude where
  /-- Its characters. -/
  text : List Char
  /-- The first one is a space. -/
  spaced : text.head? = some ' '
  /-- None is a sign that means something else there. -/
  plain : text.all isPreludeChar = true
  /-- No comment begins there. -/
  uncommented : Uncommented text

/-- A line that may stand in a block that holds no rules. -/
structure IsBodyLine (line : List Char) : Prop where
  /-- It holds no quotes. -/
  unquoted : line.all (!isQuote ·) = true
  /-- No comment begins there. -/
  uncommented : Uncommented line

instance (line : List Char) : Decidable (IsBodyLine line) :=
  decidable_of_iff (line.all (!isQuote ·) = true ∧ Uncommented line)
    ⟨fun h => ⟨h.1, h.2⟩, fun h => ⟨h.unquoted, h.uncommented⟩⟩

/-- The body of a block that holds no rules. -/
structure Body where
  /-- Its lines. -/
  lines : List (List Char)
  /-- Each may stand there. -/
  readable : ∀ line ∈ lines, IsBodyLine line
  /-- They close the braces that they open. -/
  balanced : Balanced lines

/-- The body of a rule set. -/
structure Declarations where
  /-- Its lines. -/
  lines : List (List Char)
  /-- Each may stand there. -/
  readable : ∀ line ∈ lines, IsBodyLine line
  /-- They hold no braces. -/
  unbraced : ∀ line ∈ lines, line.all (!isBrace ·) = true

/-- A rule that can be printed. -/
inductive Rule where
  /-- A rule set with its selectors and its declarations. -/
  | ruleSet (first : SelectorText) (others : List SelectorText) (body : Declarations)
  /-- An at-rule whose block holds rules. -/
  | nesting (name : RuleName) (hname : name.nests = true) (condition : Prelude) (rules : List Rule)
  /-- An at-rule whose block holds something else. -/
  | skipped (name : RuleName) (hname : name.nests = false) (condition : Prelude) (body : Body)
  /-- An at-rule without a block. -/
  | statement (name : RuleName) (condition : Prelude)

/-- Selectors, separated by commas, and the brace after them. -/
def selectorLine (first : SelectorText) : List SelectorText → List Char
  | [] => first.text ++ [' ', '\x7b']
  | second :: others => first.text ++ ',' :: ' ' :: selectorLine second others

/-- An at-rule up to the sign after its prelude. -/
def atRuleLine (name : RuleName) (condition : Prelude) (sign : Char) : List Char :=
  '@' :: name.text ++ condition.text ++ [sign]

/-- The line that closes a block. -/
def closingLine : List Char := ['\x7d']

mutual

/-- The lines of a rule. -/
def Rule.lines : Rule → List (List Char)
  | .ruleSet first others body => selectorLine first others :: (body.lines ++ [closingLine])
  | .nesting name _ condition rules =>
    atRuleLine name condition '\x7b' :: (linesOf rules ++ [closingLine])
  | .skipped name _ condition body =>
    atRuleLine name condition '\x7b' :: (body.lines ++ [closingLine])
  | .statement name condition => [atRuleLine name condition ';']

/-- The lines of a sheet. -/
def linesOf : List Rule → List (List Char)
  | [] => []
  | rule :: rules => rule.lines ++ linesOf rules

end

mutual

/-- The selectors of a rule that is printed from the given line on. -/
def Rule.selectors (line : Nat) : Rule → List Selector
  | .ruleSet first others _ => (first :: others).map fun selector => ⟨selector.text, line⟩
  | .nesting _ _ _ rules => selectorsOf (line + 1) rules
  | .skipped _ _ _ _ => []
  | .statement _ _ => []

/-- The selectors of a sheet that is printed from the given line on. -/
def selectorsOf (line : Nat) : List Rule → List Selector
  | [] => []
  | rule :: rules => rule.selectors line ++ selectorsOf (line + rule.lines.length) rules

end

/-! ## Steps -/

/-- Where no comment opens in a text, none opens in an end of it. -/
lemma Uncommented.of_suffix {text tail : List Char} (h : Uncommented text) (htail : tail <:+ text) :
    Uncommented tail := fun hopening => h (hopening.trans htail.isInfix)

section Steps

variable {s : State} {c : Cursor} {ch : Char} {before text rest : List Char}

/-- No comment begins at a character that is no slash. -/
lemma startsWith_of_ne_slash (h : ch ≠ '/') :
    (⟨before, ch :: rest⟩ : Cursor).startsWith "/*".toList = false :=
  Cursor.startsWith_of_ne h before rest ['*']

/-- No comment begins in a text in which none begins, where no asterisk comes after it. -/
lemma startsWith_of_uncommented (htext : Uncommented (ch :: text)) (hrest : rest.head? ≠ some '*') :
    (⟨before, ch :: text ++ rest⟩ : Cursor).startsWith "/*".toList = false := by
  rw [Bool.eq_false_iff]
  intro hstarts
  obtain ⟨tail, htail⟩ := startsWith_iff.1 hstarts
  obtain ⟨rfl, hsecond⟩ : ch = '/' ∧ text ++ rest = '*' :: tail := List.cons_eq_cons.1 htail
  cases text with
  | nil =>
    obtain rfl : rest = '*' :: tail := hsecond
    exact hrest rfl
  | cons d text =>
    obtain ⟨rfl, -⟩ := List.cons_eq_cons.1 hsecond
    exact htext ⟨[], text, rfl⟩

/-- Among rules a step is one of a rule, outside comments. -/
lemma step_rules (hcomment : s.inComment = false) (hstarts : c.startsWith "/*".toList = false)
    (hblock : s.block = .rules) (hatRule : s.atRule = none) (line : Nat) :
    step line s c ch = ruleStep line s c ch := by
  rw [step, hcomment, hstarts, hblock, hatRule]
  rfl

/-- In the prelude of an at-rule it is one of the prelude. -/
lemma step_atRule {nests : Bool} (hcomment : s.inComment = false)
    (hstarts : c.startsWith "/*".toList = false) (hblock : s.block = .rules)
    (hatRule : s.atRule = some nests) (line : Nat) :
    step line s c ch = atRuleStep nests s c ch := by
  rw [step, hcomment, hstarts, hblock, hatRule]
  rfl

/-- In a block of another kind it is one of the block. -/
lemma step_block (hcomment : s.inComment = false) (hstarts : c.startsWith "/*".toList = false)
    (hblock : s.block ≠ .rules) (line : Nat) : step line s c ch = blockStep s c ch := by
  rw [step, hcomment, hstarts]
  cases h : s.block with
  | rules => exact absurd h hblock
  | declarations => rfl
  | skipped => rfl

end Steps

/-- Rules stand within the blocks. -/
def AmongRules (blocks : List Block) : Prop := State.block { blocks := blocks } = .rules

/-- At the top the reader is among rules. -/
lemma amongRules_nil : AmongRules [] := rfl

/-- So it is in a block of rules. -/
lemma amongRules_cons (blocks : List Block) : AmongRules (.rules :: blocks) := rfl

/-- A line that is passed over, and on which no selector is left unfinished, is read. -/
lemma readLine_of_passes {s s' : State} {n : Nat} {line : List Char} {found : List Selector}
    (h : Passes (step n) s [] line [] s' found) (hpiece : s'.piece = none) :
    readLine s n line = (s', found) := by
  obtain ⟨inComment, blocks, list, piece, atRule⟩ := s'
  obtain rfl : piece = none := hpiece
  rw [readLine, h.walk_start]
  rfl

/-! ## Selectors -/

section Selectors

variable {before text rest : List Char} {blocks : List Block} {list : List Selector} {line : Nat}

/-- A selector begins with no blank, and ends with none.

**Proof sketch.** The text is its own trimmed form, which is no shorter without the blanks at the
front alone. So nothing is cut off at either side. -/
lemma SelectorText.exists_cons (selector : SelectorText) :
    ∃ c tail, selector.text = c :: tail ∧ isBlank c = false
      ∧ trimEnd selector.text = selector.text := by
  have hstart : trimStart selector.text = selector.text := by
    refine (trimStart_suffix selector.text).eq_of_length_le ?_
    calc selector.text.length = (trim selector.text).length := by rw [selector.trimmed]
      _ ≤ (trimStart selector.text).length := (trimEnd_isPrefix _).length_le
  have hend : trimEnd selector.text = selector.text := by
    have htrim := selector.trimmed
    rwa [trim, hstart] at htrim
  cases htext : selector.text with
  | nil => exact absurd htext selector.nonempty
  | cons c tail =>
    refine ⟨c, tail, rfl, ?_, htext ▸ hend⟩
    rw [htext, trimStart] at hstart
    simpa using List.dropWhile_eq_self_iff.1 hstart (Nat.succ_pos _)

/-- The selector made of the characters of a selector. -/
lemma SelectorText.selector?_self (selector : SelectorText) (line : Nat) :
    Piece.selector? ⟨selector.text.reverse, line⟩ = some ⟨selector.text, line⟩ := by
  simp [Piece.selector?, selector.trimmed, selector.nonempty]

/-- A blank after the characters of a selector is none of them. -/
lemma SelectorText.selector?_blank (selector : SelectorText) (line : Nat) :
    Piece.selector? ⟨' ' :: selector.text.reverse, line⟩ = some ⟨selector.text, line⟩ := by
  have htrim : trim (selector.text ++ [' ']) = selector.text := by
    obtain ⟨c, tail, htext, hc, hend⟩ := selector.exists_cons
    rw [trim, htext, List.cons_append, trimStart_cons hc, ← List.cons_append, ← htext, trimEnd,
      List.reverse_append, List.reverse_singleton, List.singleton_append,
      List.dropWhile_cons_of_pos (by decide)]
    exact hend
  simp [Piece.selector?, htrim, selector.nonempty]

/-- No character of selectors begins a comment. -/
lemma ne_slash_of_isSelectorChar {ch : Char} (h : isSelectorChar ch = true) : ch ≠ '/' := by
  rintro rfl
  exact absurd h (by decide)

/-- A step among rules at a character of a selector. -/
lemma ruleStep_of_isSelectorChar {s : State} {ch : Char} (hch : isSelectorChar ch = true)
    (c : Cursor) : ruleStep line s c ch
      = if isBlank ch then
          { state := { s with piece := s.piece.map (·.append [ch]) }, cursor := c.next }
        else { state := s.extend line [ch], cursor := c.next } := by
  simp only [isSelectorChar, isBrace, isQuote, Bool.not_or, Bool.and_eq_true, Bool.not_eq_true',
    beq_eq_false_iff_ne, ne_eq] at hch
  simp only [ruleStep, hch, false_and, or_self, if_false]

/-- A selector that is being read goes on with the character. -/
lemma ruleStep_piece {piece : Piece} {ch : Char} (hch : isSelectorChar ch = true) (c : Cursor) :
    ruleStep line { blocks := blocks, list := list, piece := some piece } c ch
      = { state := { blocks := blocks, list := list, piece := some (piece.append [ch]) }
          cursor := c.next } := by
  rw [ruleStep_of_isSelectorChar hch]
  exact ite_self _

/-- A selector begins with a character that is no blank. -/
lemma ruleStep_begin {ch : Char} (hch : isSelectorChar ch = true) (hblank : isBlank ch = false)
    (c : Cursor) : ruleStep line { blocks := blocks, list := list } c ch
      = { state := { blocks := blocks, list := list, piece := some ⟨[ch], line⟩ }
          cursor := c.next } := by
  rw [ruleStep_of_isSelectorChar hch, hblank]
  rfl

/-- A character among rules is passed over by the step that is made there. -/
lemma passes_among {s s' : State} {ch : Char} {found : List Selector}
    (hcomment : s.inComment = false) (hblock : s.block = .rules) (hatRule : s.atRule = none)
    (hslash : ch ≠ '/')
    (h : ∀ c, ruleStep line s c ch = { state := s', cursor := c.next, found := found }) :
    Passes (step line) s before [ch] rest s' found :=
  Passes.of_next
    ((step_rules hcomment (startsWith_of_ne_slash hslash) hblock hatRule line).trans (h _))

/-- The characters of a selector that is being read are added to it. -/
lemma passes_piece (hblocks : AmongRules blocks)
    (htext : text.all isSelectorChar = true) (piece : Piece) :
    Passes (step line) { blocks := blocks, list := list, piece := some piece } before text rest
      { blocks := blocks, list := list, piece := some (piece.append text) } [] := by
  induction text generalizing before piece with
  | nil => exact Passes.nil
  | cons ch text ih =>
    rw [List.all_cons, Bool.and_eq_true] at htext
    have hfirst : Passes (step line) { blocks := blocks, list := list, piece := some piece } before
        [ch] (text ++ rest)
        { blocks := blocks, list := list, piece := some (piece.append [ch]) } [] :=
      passes_among rfl hblocks rfl (ne_slash_of_isSelectorChar htext.1) (ruleStep_piece htext.1)
    have happend : (piece.append [ch]).append text = piece.append (ch :: text) := by
      simp [Piece.append]
    exact happend ▸ hfirst.cons (ih htext.2 _)

/-- A selector is read where none is being read. -/
lemma passes_selector (hblocks : AmongRules blocks)
    (selector : SelectorText) :
    Passes (step line) { blocks := blocks, list := list } before selector.text rest
      { blocks := blocks, list := list, piece := some ⟨selector.text.reverse, line⟩ } [] := by
  obtain ⟨ch, tail, htext, hblank, -⟩ := selector.exists_cons
  have hplain := selector.plain
  rw [htext, List.all_cons, Bool.and_eq_true] at hplain
  have hfirst : Passes (step line) { blocks := blocks, list := list } before [ch] (tail ++ rest)
      { blocks := blocks, list := list, piece := some ⟨[ch], line⟩ } [] :=
    passes_among rfl hblocks rfl (ne_slash_of_isSelectorChar hplain.1)
      (ruleStep_begin hplain.1 hblank)
  have happend : Piece.append tail ⟨[ch], line⟩ = ⟨selector.text.reverse, line⟩ := by
    simp [Piece.append, htext]
  rw [← happend, htext]
  exact hfirst.cons (passes_piece hblocks hplain.2 _)

/-- **Selectors that were printed are read.**

**Proof sketch.** Induction on the selectors that follow the first one. The selectors in front of it
are finished; it is finished itself by the comma or by the brace after it. -/
lemma passes_selectorLine (hblocks : AmongRules blocks)
    (first : SelectorText) (others : List SelectorText) :
    Passes (step line) { blocks := blocks, list := list } before (selectorLine first others) rest
      { blocks := .declarations :: blocks }
      (list ++ (first :: others).map fun selector => ⟨selector.text, line⟩) := by
  induction others generalizing before list first with
  -- the last selector is finished by the brace
  | nil =>
    have hspace : Passes (step line)
        { blocks := blocks, list := list, piece := some ⟨first.text.reverse, line⟩ }
        (first.text.reverse ++ before) [' '] ('\x7b' :: rest)
        { blocks := blocks, list := list, piece := some ⟨' ' :: first.text.reverse, line⟩ } [] :=
      passes_among rfl hblocks rfl (by decide) fun _ => rfl
    have hbrace : Passes (step line)
        { blocks := blocks, list := list, piece := some ⟨' ' :: first.text.reverse, line⟩ }
        (' ' :: (first.text.reverse ++ before)) ['\x7b'] rest
        { blocks := .declarations :: blocks } (list ++ [⟨first.text, line⟩]) := by
      refine passes_among rfl hblocks rfl (by decide) fun c => ?_
      simp [ruleStep, State.endSelector, first.selector?_blank]
    rw [selectorLine]
    exact (passes_selector hblocks first).append_silent (hspace.cons hbrace)
  -- the others are finished by a comma
  | cons second others ih =>
    have hcomma : Passes (step line)
        { blocks := blocks, list := list, piece := some ⟨first.text.reverse, line⟩ }
        (first.text.reverse ++ before) [','] (' ' :: (selectorLine second others ++ rest))
        { blocks := blocks, list := list ++ [⟨first.text, line⟩] } [] := by
      refine passes_among rfl hblocks rfl (by decide) fun c => ?_
      simp [ruleStep, State.endSelector, first.selector?_self]
    have hspace : Passes (step line) { blocks := blocks, list := list ++ [⟨first.text, line⟩] }
        (',' :: (first.text.reverse ++ before)) [' '] (selectorLine second others ++ rest)
        { blocks := blocks, list := list ++ [⟨first.text, line⟩] } [] :=
      passes_among rfl hblocks rfl (by decide) fun _ => rfl
    have hlater : Passes (step line) { blocks := blocks, list := list ++ [⟨first.text, line⟩] }
        (' ' :: ',' :: (first.text.reverse ++ before)) (selectorLine second others) rest
        { blocks := .declarations :: blocks }
        (list ++ (first :: second :: others).map fun selector => ⟨selector.text, line⟩) := by
      have hlist : list ++ [⟨first.text, line⟩]
            ++ (second :: others).map (fun selector => (⟨selector.text, line⟩ : Selector))
          = list ++ (first :: second :: others).map fun selector => ⟨selector.text, line⟩ :=
        List.append_assoc _ _ _
      exact hlist ▸ ih second
    rw [selectorLine]
    exact (passes_selector hblocks first).append_silent (hcomma.cons (hspace.cons hlater))

end Selectors

/-! ## At-rules -/

section AtRules

variable {before text rest : List Char} {blocks : List Block} {nests : Bool} {line : Nat}

/-- The text between the name of an at-rule and its block or its end changes nothing.

**Proof sketch.** Induction on the text. Each of its characters is no brace, no semicolon and no
quote, and none begins a comment, because neither the text nor its end does. -/
lemma passes_prelude (hblocks : AmongRules blocks)
    (htext : text.all isPreludeChar = true) (huncommented : Uncommented text)
    (hrest : rest.head? ≠ some '*') :
    Passes (step line) { blocks := blocks, atRule := some nests } before text rest
      { blocks := blocks, atRule := some nests } [] := by
  induction text generalizing before with
  | nil => exact Passes.nil
  | cons ch text ih =>
    rw [List.all_cons, Bool.and_eq_true] at htext
    have hch := htext.1
    simp only [isPreludeChar, isBrace, isQuote, Bool.not_or, Bool.and_eq_true, Bool.not_eq_true',
      beq_eq_false_iff_ne, ne_eq] at hch
    have hstarts : (⟨before, ch :: text ++ rest⟩ : Cursor).startsWith "/*".toList = false :=
      startsWith_of_uncommented huncommented hrest
    have hstep : step line { blocks := blocks, atRule := some nests }
          ⟨before, ch :: text ++ rest⟩ ch
        = { state := { blocks := blocks, atRule := some nests }
            cursor := ⟨ch :: before, text ++ rest⟩ } := by
      rw [step_atRule rfl hstarts (s := { blocks := blocks, atRule := some nests }) hblocks rfl]
      simp [atRuleStep, hch, Cursor.next, Cursor.forward]
    exact (Passes.of_next hstep).cons
      (ih htext.2 (huncommented.of_suffix (List.suffix_cons ch text)))

/-- The name of an at-rule tells what its block holds.

**Proof sketch.** The sign stands where a rule would begin, so the step takes the whole name and
looks up what the block of such a rule holds. -/
lemma passes_name (hblocks : AmongRules blocks) (name : RuleName)
    (hrest : rest.head? = some ' ') :
    Passes (step line) { blocks := blocks } before ('@' :: name.text) rest
      { blocks := blocks, atRule := some name.nests } [] := by
  have hspan : (⟨before, '@' :: (name.text ++ rest)⟩ : Cursor).next.span isRuleNameChar
      = (name.text, ⟨name.text.reverse ++ '@' :: before, rest⟩) :=
    Cursor.span_word name.plain (by rw [hrest]; decide) ('@' :: before)
  have hstep : step line { blocks := blocks } ⟨before, '@' :: (name.text ++ rest)⟩ '@'
      = { state := { blocks := blocks, atRule := some name.nests }
          cursor := ⟨name.text.reverse ++ '@' :: before, rest⟩ } := by
    rw [step_rules rfl (startsWith_of_ne_slash (by decide)) hblocks rfl, ruleStep,
      if_pos ⟨rfl, rfl, rfl⟩, hspan]
    rfl
  refine Passes.of_step ?_
  rw [List.reverse_cons, List.append_assoc]
  exact hstep

/-- An at-rule is read up to the sign after its prelude. -/
lemma passes_atRule (hblocks : AmongRules blocks) (name : RuleName)
    (condition : Prelude) {sign : Char} (hsign : sign ≠ '*') :
    Passes (step line) { blocks := blocks } before ('@' :: name.text ++ condition.text)
      (sign :: rest) { blocks := blocks, atRule := some name.nests } [] := by
  have hspaced : (condition.text ++ sign :: rest).head? = some ' ' := by
    rw [List.head?_append, condition.spaced]
    rfl
  exact (passes_name hblocks name hspaced).append
    (passes_prelude hblocks condition.plain condition.uncommented (by simpa using hsign))

end AtRules

/-! ## Blocks that hold no rules -/

section Blocks

variable {blocks : List Block} {block : Block}

/-- The state within a block that holds no rules, where further braces are open in it. -/
def within (block : Block) (blocks : List Block) (depth : Nat) : State :=
  { blocks := List.replicate depth .skipped ++ block :: blocks }

/-- In a block that holds no rules the innermost block holds none. -/
lemma block_within (hblock : block ≠ .rules) (depth : Nat) :
    (within block blocks depth).block ≠ .rules := by
  cases depth with
  | zero => exact hblock
  | succ depth => exact nofun

/-- A step at a character of a line in a block that holds no rules. -/
lemma step_within (hblock : block ≠ .rules) {line : List Char} (hline : IsBodyLine line)
    (depth : Nat) {c : Cursor} {ch : Char} (hc : c.line = line) (hch : c.peek? = some ch)
    (n : Nat) : step n (within block blocks depth) c ch
      = if ch = '\x7b' then { state := within block blocks (depth + 1), cursor := c.next }
        else if ch = '\x7d' then
          { state := { blocks := (within block blocks depth).blocks.tail }, cursor := c.next }
        else { state := within block blocks depth, cursor := c.next } := by
  have hmem : ch ∈ line := hc ▸ c.after_suffix.subset (List.mem_of_head? hch)
  have hquote : ¬ (ch = '"' ∨ ch = '\'') := by
    simpa [isQuote] using List.all_eq_true.1 hline.unquoted ch hmem
  have hstarts : c.startsWith "/*".toList = false :=
    Cursor.startsWith_eq_false (hc.symm ▸ hline.uncommented)
  rw [step_block rfl hstarts (block_within hblock depth), blockStep, if_neg hquote]
  rfl

/-- A line in a block that holds no rules is passed over, and its braces are counted.

**Proof sketch.** Walking over the line counts its braces (`Cursor.walk_depth`): an opening brace
begins one more block, a closing brace ends one, and any other character changes nothing. -/
lemma readLine_within (hblock : block ≠ .rules) {line : List Char} (hline : IsBodyLine line)
    {depth after : Nat} (h : braceDepth? depth line = some after) (n : Nat) :
    readLine (within block blocks depth) n line = (within block blocks after, []) := by
  have hwalk : Cursor.walk (step n) (within block blocks depth) (.start line)
      = (within block blocks after, []) := by
    refine Cursor.walk_depth ?_ ?_ ?_ h
    · intro depth c hc hch
      exact step_within hblock hline depth hc hch n
    · intro depth c hc hch
      exact step_within hblock hline (depth + 1) hc hch n
    · intro depth c ch hc hch hplain
      have hbrace := hplain
      rw [isBrace, Bool.or_eq_false_iff, beq_eq_false_iff_ne, beq_eq_false_iff_ne] at hbrace
      rw [step_within hblock hline depth hc hch n, if_neg hbrace.1, if_neg hbrace.2]
      exact ⟨c.next, rfl, c.advances_next, Cursor.braceDepth?_after_next hch hplain depth⟩
  rw [readLine, hwalk]
  rfl

/-- A block that holds no rules is read to its end. -/
lemma readLines_block (hblock : block ≠ .rules) {lines : List (List Char)}
    (hlines : ∀ line ∈ lines, IsBodyLine line) (hbalanced : Balanced lines) (first : Nat) :
    readLines readLine first (within block blocks 0) (lines ++ [closingLine])
      = ({ blocks := blocks }, []) := by
  have hbody : readLines readLine first (within block blocks 0) lines
      = (within block blocks 0, []) :=
    readLines_depth (fun line hline _ _ n h => readLine_within hblock (hlines line hline) h n)
      hbalanced first
  have hclosing : Passes (step (first + lines.length)) (within block blocks 0) [] closingLine []
      { blocks := blocks } [] := by
    refine Passes.of_next ?_
    have hline : IsBodyLine closingLine := by decide
    rw [step_within hblock hline 0 rfl rfl]
    rfl
  exact readLines_append_of hbody (readLines_single (readLine_of_passes hclosing rfl))

end Blocks

/-! ## Rules -/

/-- Lines without braces are balanced. -/
lemma Declarations.balanced (body : Declarations) : Balanced body.lines := by
  have hplain : body.lines.flatten.all (!isBrace ·) = true := by
    rw [List.all_flatten, List.all_eq_true]
    exact body.unbraced
  rw [Balanced, ← List.append_nil body.lines.flatten, braceDepth?_plain hplain]
  rfl

section Rules

variable {blocks : List Block}

/-- The line on which a rule set begins gives its selectors. -/
lemma readLine_selectorLine (hblocks : AmongRules blocks)
    (first : SelectorText) (others : List SelectorText) (line : Nat) :
    readLine { blocks := blocks } line (selectorLine first others)
      = (within .declarations blocks 0,
        (first :: others).map fun selector => ⟨selector.text, line⟩) :=
  readLine_of_passes (passes_selectorLine hblocks first others) rfl

/-- The line on which an at-rule begins, up to the sign that stands at its end. -/
lemma readLine_atRuleLine (hblocks : AmongRules blocks) (name : RuleName)
    (condition : Prelude) {sign : Char} (hsign : sign ≠ '*' ∧ sign ≠ '/') {s : State}
    (hpiece : s.piece = none) (hstep : ∀ c, atRuleStep name.nests
      { blocks := blocks, atRule := some name.nests } c sign = { state := s, cursor := c.next })
    (line : Nat) :
    readLine { blocks := blocks } line (atRuleLine name condition sign) = (s, []) := by
  have hend : Passes (step line) { blocks := blocks, atRule := some name.nests }
      (('@' :: name.text ++ condition.text).reverse ++ []) [sign] [] s [] :=
    Passes.of_next ((step_atRule (s := { blocks := blocks, atRule := some name.nests }) rfl
      (startsWith_of_ne_slash hsign.2) hblocks rfl line).trans (hstep _))
  exact readLine_of_passes
    ((passes_atRule hblocks name condition hsign.1).append_silent hend) hpiece

/-- A block that holds rules is left at its end. -/
lemma readLine_closingLine (line : Nat) :
    readLine { blocks := .rules :: blocks } line closingLine = ({ blocks := blocks }, []) :=
  readLine_of_passes (passes_among rfl rfl rfl (by decide) fun _ => rfl) rfl

end Rules

mutual

/-- **A rule is read as its selectors, and leaves nothing behind.**

**Proof sketch.** Rule by rule. A set of rules has its selectors on the first line and a block that
is passed over. An at-rule that nests is read as its rules, by the induction over rules and lists of
rules; any other block and any statement is passed over. -/
theorem Rule.reads (rule : Rule) {blocks : List Block}
    (hblocks : AmongRules blocks) (line : Nat) :
    readLines readLine line { blocks := blocks } rule.lines
      = ({ blocks := blocks }, rule.selectors line) := by
  cases rule with
  | ruleSet first others body =>
    have hbody : readLines readLine (line + 1) (within .declarations blocks 0)
        (body.lines ++ [closingLine]) = ({ blocks := blocks }, []) :=
      readLines_block (by decide) body.readable body.balanced (line + 1)
    rw [Rule.lines, Rule.selectors,
      readLines_cons_of (readLine_selectorLine hblocks first others line) hbody, List.append_nil]
  | nesting name hname condition rules =>
    have hfirst : readLine { blocks := blocks } line (atRuleLine name condition '\x7b')
        = ({ blocks := .rules :: blocks }, []) :=
      readLine_atRuleLine hblocks name condition (by decide) rfl
        (fun _ => by simp only [atRuleStep, if_true, hname]) line
    have hrules : readLines readLine (line + 1) { blocks := .rules :: blocks }
        (linesOf rules ++ [closingLine])
        = ({ blocks := blocks }, selectorsOf (line + 1) rules) := by
      rw [readLines_append_of (reads_linesOf rules (amongRules_cons blocks) (line + 1))
        (readLines_single (readLine_closingLine _)), List.append_nil]
    rw [Rule.lines, Rule.selectors]
    exact readLines_cons_of hfirst hrules
  | skipped name hname condition body =>
    have hfirst : readLine { blocks := blocks } line (atRuleLine name condition '\x7b')
        = (within .skipped blocks 0, []) :=
      readLine_atRuleLine hblocks name condition (by decide) rfl
        (fun _ => by simp only [atRuleStep, if_true, hname]; rfl) line
    rw [Rule.lines, Rule.selectors]
    exact readLines_cons_of hfirst
      (readLines_block (by decide) body.readable body.balanced (line + 1))
  | statement name condition =>
    have hfirst : readLine { blocks := blocks } line (atRuleLine name condition ';')
        = ({ blocks := blocks }, []) :=
      readLine_atRuleLine hblocks name condition (by decide) rfl (fun _ => rfl) line
    rw [Rule.lines, Rule.selectors]
    exact readLines_single hfirst

/-- A sheet is read as its selectors. -/
theorem reads_linesOf (rules : List Rule) {blocks : List Block}
    (hblocks : AmongRules blocks) (line : Nat) :
    readLines readLine line { blocks := blocks } (linesOf rules)
      = ({ blocks := blocks }, selectorsOf line rules) := by
  cases rules with
  | nil =>
    rw [linesOf, selectorsOf]
    rfl
  | cons rule rules =>
    rw [linesOf, selectorsOf]
    exact readLines_append_of (rule.reads hblocks line) (reads_linesOf rules hblocks _)

end

/-- **The selectors of a printed sheet are those of its rule sets**, also of those in at-rules whose
block holds rules, in the order in which they were printed, each with its text and its line. -/
theorem selectors_printed (rules : List Rule) :
    StyleSheet.selectors (linesOf rules) = selectorsOf 0 rules := by
  rw [StyleSheet.selectors, reads_linesOf rules amongRules_nil 0]

/-- Blocks that look like rules, around a rule set and within it. -/
def disguised : List Rule :=
  [.statement ⟨"import".toList, by decide⟩ ⟨" a, b".toList, by decide, by decide, by decide⟩,
    .nesting ⟨"Media".toList, by decide⟩ (by decide)
      ⟨" (x: y) ".toList, by decide, by decide, by decide⟩
      [.skipped ⟨"font-face".toList, by decide⟩ (by decide)
          ⟨" ".toList, by decide, by decide, by decide⟩
          ⟨["p \x7b".toList, "\x7d q, @media; \x7b\x7d".toList], by decide, by decide⟩,
        .ruleSet ⟨"a:b c".toList, by decide, by decide, by decide⟩
          [⟨".d".toList, by decide, by decide, by decide⟩]
          ⟨["e, @media: f;".toList], by decide, by decide⟩]]

example : (linesOf disguised).map String.ofList = ["@import a, b;", "@Media (x: y) \x7b",
    "@font-face \x7b", "p \x7b", "\x7d q, @media; \x7b\x7d", "\x7d", "a:b c, .d \x7b",
    "e, @media: f;", "\x7d", "\x7d"] := by decide

example : selectorsOf 0 disguised = [⟨"a:b c".toList, 6⟩, ⟨".d".toList, 6⟩] := by decide

end Outliner.StyleSheet
