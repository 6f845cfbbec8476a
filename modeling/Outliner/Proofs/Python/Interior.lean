import Mathlib.Tactic.Lemma
import Outliner.Proofs.Checked.ByCharacter
import Outliner.Proofs.Passage
import Outliner.Proofs.Python.Scopes

set_option autoImplicit false

/-!
# Interior lines of a Python source

A line that begins within something, be it a literal, an open bracket or a statement that goes on
after a backslash, begins no statement. Where the characters of a source stand can be told by
following them one by one, with no look ahead: a literal is short, between two quotes, or long,
between two triples of quotes; a backslash takes the next character along, be it the end of the
line; a comment ends with its line.

The reader, which takes literals and operators as a whole, follows long literals, brackets and
backslashes in code from line to line in the same way. It does not follow short literals: the line
after a short literal that a backslash carries over the end of its line is read as if it began a
statement.

## Main definitions

* `Outliner.Python.Place`, `Outliner.Python.Place.next` — where a character stands, and where the
  next one does.
* `Outliner.Python.Beginning`, `Outliner.Python.beginningOf` — within what a line of a source
  begins.
* `Outliner.Python.Agrees` — what the reader carries along tells where the next character stands.

## Main results

* `Outliner.Python.lexical_scanLine` — the reader follows a line that does not begin within a short
  literal.
* `Outliner.Python.lexicalBefore_eq` — it knows within what a line begins, if no line before begins
  within a short literal.
* `Outliner.Language.scan_python_interior` — an interior line adds nothing and ends nothing, unless
  it begins within a short literal.
-/

namespace Outliner

namespace Python

/-! ## Places -/

/-- Where a character stands. -/
inductive Region where
  /-- In code. -/
  | code
  /-- In a comment. -/
  | comment
  /-- After the first quote of a literal, or after the first two. -/
  | opening (quote : Char) (twice : Bool)
  /-- In a short literal. -/
  | short (quote : Char)
  /-- In a long literal, after so many quotes in a row. -/
  | long (quote : Char) (count : Nat)
deriving DecidableEq, Repr

/-- A place between two characters of a line. -/
structure Place where
  /-- Where the next character stands. -/
  region : Region := .code
  /-- The number of open brackets. -/
  brackets : Nat := 0
  /-- Whether the character before is a backslash that takes the next one along. -/
  escaped : Bool := false
deriving DecidableEq, Repr

namespace Place

/-- The place after a character of code. -/
def nextInCode (p : Place) (c : Char) : Place :=
  if c = '#' then { p with region := .comment }
  else if c = '"' ∨ c = '\'' then { p with region := .opening c false }
  else if c = '(' ∨ c = '[' ∨ c = '\x7b' then { p with brackets := p.brackets + 1 }
  else if c = ')' ∨ c = ']' ∨ c = '\x7d' then { p with brackets := p.brackets - 1 }
  else if c = '\\' then { p with escaped := true }
  else p

/-- The place after a character of a short literal. -/
def nextInShort (p : Place) (quote c : Char) : Place :=
  if c = '\\' then { p with region := .short quote, escaped := true }
  else if c = quote then { p with region := .code }
  else { p with region := .short quote }

/-- The place after a character of a long literal that comes after so many quotes in a row. -/
def nextInLong (p : Place) (quote : Char) (count : Nat) (c : Char) : Place :=
  if c = '\\' then { p with region := .long quote 0, escaped := true }
  else if c = quote then { p with region := if count = 2 then .code else .long quote (count + 1) }
  else { p with region := .long quote 0 }

/-- The place after a character. The third quote in a row begins a long literal, and two quotes with
something else after them are a literal without characters. -/
def next (p : Place) (c : Char) : Place :=
  if p.escaped then { p with escaped := false }
  else
    match p.region with
    | .code => p.nextInCode c
    | .comment => p
    | .opening quote false =>
      if c = quote then { p with region := .opening quote true } else p.nextInShort quote c
    | .opening quote true =>
      if c = quote then { p with region := .long quote 0 }
      else { p with region := .code }.nextInCode c
    | .short quote => p.nextInShort quote c
    | .long quote count => p.nextInLong quote count c

/-- A second quote may belong to a literal without characters. -/
@[simp] lemma next_opening_once (quote : Char) (brackets : Nat) :
    next { region := .opening quote false, brackets := brackets } quote
      = { region := .opening quote true, brackets := brackets } := by
  simp [next]

/-- The third quote in a row begins a long literal. -/
@[simp] lemma next_opening_twice (quote : Char) (brackets : Nat) :
    next { region := .opening quote true, brackets := brackets } quote
      = { region := .long quote 0, brackets := brackets } := by
  simp [next]

end Place

/-- A literal that may go on from one line to the next. -/
inductive Literal where
  /-- A short literal. -/
  | short (quote : Char)
  /-- A long literal. -/
  | long (quote : Char)
deriving DecidableEq, Repr

/-- Within what a line begins. -/
structure Beginning where
  /-- The literal that goes on. -/
  literal : Option Literal := none
  /-- The number of open brackets. -/
  brackets : Nat := 0
  /-- Whether the code of the line before ended in a backslash. -/
  continued : Bool := false
deriving DecidableEq, Repr

namespace Beginning

/-- The place in front of the first character of a line. -/
def place (b : Beginning) : Place where
  region :=
    match b.literal with
    | none => .code
    | some (.short quote) => .short quote
    | some (.long quote) => .long quote 0
  brackets := b.brackets

/-- Whether the line begins within a short literal. -/
def isInShort (b : Beginning) : Bool := b.literal matches some (.short _)

/-- Whether the line begins within a literal, within a bracket or after a backslash. -/
def isInterior (b : Beginning) : Bool := b.literal.isSome || b.brackets != 0 || b.continued

end Beginning

/-- Within what the next line begins, for a place at the end of a line. Comments end with the line,
and so do short literals, unless a backslash takes the end of the line along. -/
def Place.nextLine (p : Place) : Beginning :=
  match p.region with
  | .code => { brackets := p.brackets, continued := p.escaped }
  | .comment => { brackets := p.brackets }
  | .opening _ _ => { brackets := p.brackets }
  | .short quote =>
    { literal := if p.escaped then some (.short quote) else none, brackets := p.brackets }
  | .long quote _ => { literal := some (.long quote), brackets := p.brackets }

/-- Within what the next line begins. -/
def Beginning.after (b : Beginning) (line : List Char) : Beginning :=
  (line.foldl Place.next b.place).nextLine

/-- Within what line `k` of a source begins. -/
def beginningOf (lines : List (List Char)) (k : Nat) : Beginning :=
  (lines.take k).foldl Beginning.after {}

/-! ## What the reader carries along -/

/-- What the reader carries to a line that begins there: nothing tells of short literals. -/
def Beginning.lexical (b : Beginning) : Lexical where
  string :=
    match b.literal with
    | some (.long quote) => some quote
    | _ => none
  brackets := b.brackets
  continued := b.continued

/-- The number of quotes with which the text begins. -/
def leadingQuotes (quote : Char) (text : List Char) : Nat := (text.takeWhile (· == quote)).length

/-- What the reader carries along tells where the next character stands, if there is one. Within a
long literal it stands behind all quotes that do not end the literal; at the end of the line it
knows within what the next line begins. -/
inductive Agrees : Lexical → Place → List Char → Prop
  /-- In code. -/
  | code {brackets : Nat} {rest : List Char} :
    Agrees { brackets := brackets } { brackets := brackets } rest
  /-- In a long literal. -/
  | long {quote : Char} {brackets count : Nat} {rest : List Char}
    (h : count = 0 ∨ count + leadingQuotes quote rest < 3) :
    Agrees { string := some quote, brackets := brackets }
      { region := .long quote count, brackets := brackets } rest
  /-- At the end of the line. -/
  | ended {l : Lexical} {p : Place} (h : p.nextLine.lexical = l) : Agrees l p []

/-- With the text that is left the reader is at a place with which it agrees, and from there the
next line is seen to begin as `b` says. -/
def Follows (l : Lexical) (rest : List Char) (b : Beginning) : Prop :=
  ∃ p, Agrees l p rest ∧ (rest.foldl Place.next p).nextLine = b

/-- At the end of the line the reader knows within what the next line begins. -/
lemma Agrees.lexical_nextLine {l : Lexical} {p : Place} (h : Agrees l p []) :
    p.nextLine.lexical = l := by
  cases h with
  | code => rfl
  | long h => rfl
  | ended h => exact h

/-- At the end of the line the reader knows within what the next line begins. -/
lemma Follows.lexical_eq {l : Lexical} {b : Beginning} (h : Follows l [] b) : b.lexical = l := by
  obtain ⟨p, hagrees, rfl⟩ := h
  exact hagrees.lexical_nextLine

/-- Where a line does not begin within a short literal, the reader agrees with its first place. -/
lemma Beginning.agrees {b : Beginning} (h : b.isInShort = false) (rest : List Char) :
    Agrees { b.lexical with continued := false } b.place rest := by
  obtain ⟨_ | quote | quote, brackets, continued⟩ := b
  · exact .code
  · simp [Beginning.isInShort] at h
  · exact .long (.inl rfl)

/-! ## Short literals -/

section Short

variable {quote : Char} {brackets : Nat}

/-- A literal is left with what stands behind its closing quote, or with nothing. -/
lemma after_toClosingQuote (quote : Char) (c : Cursor) :
    (c.toClosingQuote quote).2.after
      = ((Cursor.quotedLength? quote c.after).map c.after.drop).getD [] := by
  rw [Cursor.toClosingQuote]
  cases Cursor.quotedLength? quote c.after with
  | none => simp [Cursor.toEnd, Cursor.after_forward]
  | some n => rfl

/-- **A short literal is followed to its closing quote**, or to the end of the line.

**Proof sketch.** Induction on the characters of the literal, as its length is found in them. -/
lemma follows_short (quote : Char) (brackets : Nat) (text : List Char) :
    Follows { brackets := brackets }
      (((Cursor.quotedLength? quote text).map text.drop).getD [])
      (text.foldl Place.next { region := .short quote, brackets := brackets }).nextLine := by
  induction text using Cursor.quotedLength?.induct quote with
  | case1 => exact ⟨_, .ended rfl, rfl⟩
  | case2 => exact ⟨_, .ended rfl, rfl⟩
  | case3 c text ih =>
    rw [Cursor.quotedLength?, Option.map_map]
    exact ih
  | case4 text hlast hescape =>
    have hquote : quote ≠ '\\' := Cursor.ne_backslash hlast hescape
    have hcloses : Place.next { region := .short quote, brackets := brackets } quote
        = { brackets := brackets } := by
      simp [Place.next, Place.nextInShort, hquote]
    rw [Cursor.quotedLength?_cons hquote, if_pos rfl, List.foldl_cons, hcloses]
    exact ⟨_, .code, rfl⟩
  | case5 c text hlast hescape hne ih =>
    have hc : c ≠ '\\' := Cursor.ne_backslash hlast hescape
    have hnext : Place.next { region := .short quote, brackets := brackets } c
        = { region := .short quote, brackets := brackets } := by
      simp [Place.next, Place.nextInShort, hc, hne]
    rw [Cursor.quotedLength?_cons hc, if_neg hne, Option.map_map, List.foldl_cons, hnext]
    exact ih

/-- The first quote of a literal that does not begin with three of them is followed by a short
literal.

**Proof sketch.** If a second quote follows, the literal has no characters, and what stands behind
it is code. If not, the next character is the first one of the literal. -/
lemma follows_opening (brackets : Nat) {text : List Char} (hquote : quote = '"' ∨ quote = '\'')
    (h : startsWith (tripled quote) (quote :: text) = false) :
    Follows { brackets := brackets }
      (((Cursor.quotedLength? quote text).map text.drop).getD [])
      (text.foldl Place.next
        { region := .opening quote false, brackets := brackets }).nextLine := by
  have hplain : quote ≠ '\\' := by
    rintro rfl
    simp at hquote
  cases text with
  | nil => exact ⟨_, .ended rfl, rfl⟩
  | cons c text =>
    by_cases hc : c = quote
    · subst hc
      rw [Cursor.quotedLength?_cons hplain, if_pos rfl]
      refine ⟨{ brackets := brackets }, .code, ?_⟩
      cases text with
      | nil => simp [Place.next, Place.nextLine]
      | cons d text =>
        have hd : d ≠ c := by
          rintro rfl
          simp [startsWith, tripled, after?] at h
        simp [Place.next, hd]
    · have hfirst : Place.next { region := .opening quote false, brackets := brackets } c
          = Place.next { region := .short quote, brackets := brackets } c := by
        simp [Place.next, Place.nextInShort, hc]
      have hshort := follows_short quote brackets (c :: text)
      rwa [List.foldl_cons, ← hfirst, ← List.foldl_cons] at hshort

end Short

/-! ## Steps -/

section Steps

variable {begins : Bool} {target : Option (List Char)} {quote ch : Char} {brackets : Nat}
  {before rest : List Char}

/-- Following a line finds nothing by itself. -/
lemma found_step (begins : Bool) (s : Scan) (c : Cursor) (ch : Char) :
    (step begins s c ch).found = [] := by
  simp only [step, stringStep, codeStep]
  repeat' split
  all_goals rfl

/-- One more quote in front is one more leading quote. -/
lemma leadingQuotes_cons_self (quote : Char) (text : List Char) :
    leadingQuotes quote (quote :: text) = leadingQuotes quote text + 1 := by
  simp [leadingQuotes]

/-- A triple of quotes comes next if and only if there are three quotes in a row. -/
lemma startsWith_tripled_iff {text : List Char} :
    startsWith (tripled quote) text = true ↔ 3 ≤ leadingQuotes quote text := by
  rw [startsWith_iff]
  constructor
  · rintro ⟨rest, rfl⟩
    simp [tripled, leadingQuotes]
  · intro h
    have hquotes : text.takeWhile (· == quote)
        = List.replicate (leadingQuotes quote text) quote :=
      List.eq_replicate_iff.2 ⟨rfl, fun c hc => by simpa using List.mem_takeWhile_imp hc⟩
    have hthree : tripled quote <+: text.takeWhile (· == quote) := by
      rw [hquotes, ← Nat.add_sub_of_le h, List.replicate_add]
      exact List.prefix_append _ _
    obtain ⟨rest, hrest⟩ := hthree.trans (List.takeWhile_prefix _)
    exact ⟨rest, hrest.symm⟩

/-- A pattern is left behind or not there. -/
lemma after_eat (pattern : List Char) (c : Cursor) :
    (c.eat pattern).after = c.after ∨ c.after = pattern ++ (c.eat pattern).after := by
  rw [Cursor.eat, Cursor.eat?]
  split
  · next h =>
    obtain ⟨text, htext⟩ := startsWith_iff.1 h
    refine .inr ?_
    rw [Option.getD_some, Cursor.after_forward, htext, List.drop_left]
  · exact .inl rfl

/-- A comment goes on to the end of the line. -/
lemma foldl_next_comment (brackets : Nat) (rest : List Char) :
    rest.foldl Place.next { region := .comment, brackets := brackets }
      = { region := .comment, brackets := brackets } := by
  induction rest with
  | nil => rfl
  | cons c rest ih => exact ih

/-- A quote in code begins a literal.

**Proof sketch.** Three quotes in a row are taken at once, and they lead into a long literal.
Otherwise a short literal is followed to its end (`follows_opening`). -/
lemma follows_quote (hquote : quote = '"' ∨ quote = '\'') :
    let o := codeStep begins ⟨{ brackets := brackets }, target⟩ ⟨before, quote :: rest⟩ quote
    Follows o.state.lexical o.cursor.after
      ((quote :: rest).foldl Place.next { brackets := brackets }).nextLine := by
  have hsign : quote ≠ '#' := by
    rintro rfl
    simp at hquote
  have hopening : Place.next { brackets := brackets } quote
      = { region := .opening quote false, brackets := brackets } := by
    simp [Place.next, Place.nextInCode, hsign, hquote]
  simp only [codeStep, if_neg hsign, if_pos hquote]
  by_cases h : startsWith (tripled quote) (quote :: rest) = true
  · obtain ⟨text, htext⟩ := startsWith_iff.1 h
    have heat : Cursor.eat? (tripled quote) ⟨before, quote :: rest⟩
        = some (Cursor.forward 3 ⟨before, quote :: rest⟩) := if_pos h
    rw [heat]
    refine ⟨{ region := .long quote 0, brackets := brackets }, .long (.inl rfl), ?_⟩
    dsimp only
    rw [Cursor.after_forward, htext]
    show (text.foldl Place.next _).nextLine = (text.foldl Place.next
      (((Place.next { brackets := brackets } quote).next quote).next quote)).nextLine
    rw [hopening, Place.next_opening_once, Place.next_opening_twice]
  · have heat : Cursor.eat? (tripled quote) ⟨before, quote :: rest⟩ = none := if_neg h
    rw [heat, List.foldl_cons, hopening]
    simp only [Cursor.overQuoted, Cursor.peek?, List.head?_cons, if_true, after_toClosingQuote]
    exact follows_opening brackets hquote (Bool.eq_false_iff.2 h)

/-- **A step in code.**

**Proof sketch.** A comment takes the rest of the line. A quote begins a literal. A backslash is the
end of the line or takes the next character along, and an equals sign may take a second one along,
which does not matter to the place. -/
lemma follows_codeStep (begins : Bool) (brackets : Nat) (target : Option (List Char))
    (before : List Char) (ch : Char) (rest : List Char) :
    let o := codeStep begins ⟨{ brackets := brackets }, target⟩ ⟨before, ch :: rest⟩ ch
    Follows o.state.lexical o.cursor.after
      ((ch :: rest).foldl Place.next { brackets := brackets }).nextLine := by
  by_cases hquote : ch = '"' ∨ ch = '\''
  · exact follows_quote hquote
  simp only [codeStep, if_neg hquote, List.foldl_cons]
  have hnext : Place.next { brackets := brackets } ch
      = Place.nextInCode { brackets := brackets } ch := rfl
  rw [hnext, Place.nextInCode, if_neg hquote]
  split
  -- a comment
  · have hend : (Cursor.toEnd ⟨before, ch :: rest⟩).after = [] := by
      simp [Cursor.toEnd, Cursor.after_forward]
    rw [foldl_next_comment]
    dsimp only
    rw [hend]
    exact ⟨_, .ended rfl, rfl⟩
  split
  -- an opening bracket
  · exact ⟨_, .code, rfl⟩
  split
  -- a closing bracket
  · exact ⟨_, .code, rfl⟩
  split
  -- a backslash
  · cases rest with
    | nil => exact ⟨_, .ended rfl, rfl⟩
    | cons c rest => exact ⟨_, .code, rfl⟩
  split
  -- an equals sign
  · dsimp only
    rw [apply_ite Scan.lexical, ite_self]
    refine ⟨{ brackets := brackets }, .code, ?_⟩
    rcases after_eat ['='] (Cursor.next ⟨before, ch :: rest⟩) with h | h
    · rw [h]
      rfl
    · have hrest : rest = '=' :: (Cursor.eat ['='] (Cursor.next ⟨before, ch :: rest⟩)).after := h
      have hsecond : Place.next { brackets := brackets } '=' = { brackets := brackets } := rfl
      rw [congrArg (List.foldl Place.next _) hrest, List.foldl_cons, hsecond]
  · exact ⟨_, .code, rfl⟩

/-- **A step in a long literal.**

**Proof sketch.** Three quotes end the literal, and the reader takes them as a whole. As it does not
stop within them, there are fewer than three wherever it takes a single one, those before
included. -/
lemma follows_stringStep {count : Nat}
    (h : count = 0 ∨ count + leadingQuotes quote (ch :: rest) < 3) :
    let o := stringStep quote ⟨{ string := some quote, brackets := brackets }, target⟩
      ⟨before, ch :: rest⟩ ch
    Follows o.state.lexical o.cursor.after
      ((ch :: rest).foldl Place.next
        { region := .long quote count, brackets := brackets }).nextLine := by
  dsimp only
  rw [stringStep, List.foldl_cons]
  by_cases hescape : ch = '\\'
  -- a backslash
  · have hnext : Place.next { region := .long quote count, brackets := brackets } ch
        = { region := .long quote 0, brackets := brackets, escaped := true } := if_pos hescape
    rw [if_pos hescape, hnext]
    cases rest with
    | nil => exact ⟨_, .ended rfl, rfl⟩
    | cons c rest => exact ⟨_, .long (.inl rfl), rfl⟩
  rw [if_neg hescape]
  by_cases htripled : startsWith (tripled quote) (ch :: rest) = true
  -- the end of the literal
  · have heat : Cursor.eat? (tripled quote) ⟨before, ch :: rest⟩
        = some (Cursor.forward 3 ⟨before, ch :: rest⟩) := if_pos htripled
    have hcount : count = 0 := h.resolve_right fun hfew => by
      have hthree := startsWith_tripled_iff.1 htripled
      omega
    obtain ⟨text, htext⟩ := startsWith_iff.1 htripled
    obtain ⟨rfl, hrest⟩ := List.cons_eq_cons.1 htext
    rw [heat, hcount, hrest]
    refine ⟨{ brackets := brackets }, .code, ?_⟩
    simp [Cursor.after_forward, Place.next, Place.nextInLong, hescape]
  -- a character of the literal
  · have heat : Cursor.eat? (tripled quote) ⟨before, ch :: rest⟩ = none := if_neg htripled
    rw [heat]
    by_cases hch : ch = quote
    · subst hch
      have hfew : leadingQuotes ch rest + 1 < 3 := by
        rw [startsWith_tripled_iff, leadingQuotes_cons_self] at htripled
        omega
      rw [leadingQuotes_cons_self] at h
      have hnext : Place.next { region := .long ch count, brackets := brackets } ch
          = { region := .long ch (count + 1), brackets := brackets } := by
        have hcount : count ≠ 2 := by omega
        simp [Place.next, Place.nextInLong, hescape, hcount]
      have hcount : count + 1 + leadingQuotes ch rest < 3 := by omega
      exact ⟨_, .long (.inr hcount), by rw [hnext]; rfl⟩
    · have hnext : Place.next { region := .long quote count, brackets := brackets } ch
          = { region := .long quote 0, brackets := brackets } := by
        simp [Place.next, Place.nextInLong, hescape, hch]
      exact ⟨_, .long (.inl rfl), by rw [hnext]; rfl⟩

/-- **A step to a place with which the reader agrees.** -/
lemma Agrees.step {s : Scan} {p : Place} (h : Agrees s.lexical p (ch :: rest)) (begins : Bool)
    (before : List Char) :
    let o := Python.step begins s ⟨before, ch :: rest⟩ ch
    Follows o.state.lexical o.cursor.after ((ch :: rest).foldl Place.next p).nextLine := by
  obtain ⟨lexical, target⟩ := s
  cases h with
  | code => exact follows_codeStep begins _ target before ch rest
  | long h => exact follows_stringStep h

end Steps

/-! ## Lines -/

/-- What each step along a line keeps holds at the end of the line. -/
lemma scanLine_invariant {before : Lexical} {line : List Char} {J : Lexical → List Char → Prop}
    (hstep : ∀ s c ch, c.peek? = some ch → J s.lexical c.after →
      J (step before.atStatement s c ch).state.lexical
        (step before.atStatement s c ch).cursor.after)
    (h : J { before with continued := false } line) : J (scanLine before line).lexical [] := by
  obtain ⟨last, hend, hlast, -⟩ := Cursor.walk_silent
    (J := fun (s : Scan) c => J s.lexical c.after)
    (fun s c ch hch hs => ⟨(step_runs before.atStatement s hch).advances,
      found_step before.atStatement s c ch, hstep s c ch hch hs⟩)
    (s := { lexical := { before with continued := false } }) (c := .start line) h
  rw [hend] at hlast
  exact hlast

/-- **The reader follows a line that does not begin within a short literal.**

**Proof sketch.** The reader agrees with the first place of the line, and each step leads to a place
with which it agrees and from which the next line is seen to begin in the same way. -/
theorem lexical_scanLine {b : Beginning} (h : b.isInShort = false) (line : List Char) :
    (scanLine b.lexical line).lexical = (b.after line).lexical := by
  have hstart : Follows { b.lexical with continued := false } line (b.after line) :=
    ⟨b.place, Beginning.agrees h line, rfl⟩
  have hend : Follows (scanLine b.lexical line).lexical [] (b.after line) := by
    refine scanLine_invariant (J := fun l rest => Follows l rest (b.after line)) ?_ hstart
    rintro s ⟨before, after⟩ ch hch ⟨p, hagrees, hafter⟩
    obtain ⟨rest, rfl⟩ := List.head?_eq_some_iff.1 hch
    rw [← hafter]
    exact hagrees.step b.lexical.atStatement before
  exact hend.lexical_eq.symm

/-- Within what one more line begins is told from the line before it. -/
lemma beginningOf_succ {lines : List (List Char)} {k : Nat} {text : List Char}
    (htext : lines[k]? = some text) :
    beginningOf lines (k + 1) = (beginningOf lines k).after text := by
  obtain ⟨hk, rfl⟩ := List.getElem?_eq_some_iff.1 htext
  rw [beginningOf, List.take_succ_eq_append_getElem hk, List.foldl_append]
  rfl

/-- **The reader knows within what a line begins**, if no line before begins within a short literal.

**Proof sketch.** Induction on the lines before. -/
theorem lexicalBefore_eq {lines : List (List Char)} {k : Nat} (hk : k ≤ lines.length)
    (h : ∀ i < k, (beginningOf lines i).isInShort = false) :
    lexicalBefore lines k = (beginningOf lines k).lexical := by
  induction k with
  | zero => rfl
  | succ k ih =>
    have htext : lines[k]? = some lines[k] := List.getElem?_eq_getElem hk
    have hbefore := ih (Nat.le_of_succ_le hk) fun i hi => h i (Nat.lt_succ_of_lt hi)
    rw [lexicalBefore_succ htext, hbefore, beginningOf_succ htext]
    exact lexical_scanLine (h k (Nat.lt_succ_self k)) lines[k]

/-- What the reader carries to an interior line tells that no statement begins there. -/
lemma Beginning.atStatement_lexical {b : Beginning} (hshort : b.isInShort = false)
    (h : b.isInterior = true) : b.lexical.atStatement = false := by
  obtain ⟨_ | quote | quote, brackets, continued⟩ := b
  · have hrest : brackets ≠ 0 ∨ continued = true := by simpa [Beginning.isInterior] using h
    rcases hrest with hbrackets | rfl
    · simp [Lexical.atStatement, Beginning.lexical, hbrackets]
    · simp [Lexical.atStatement, Beginning.lexical]
  · simp [Beginning.isInShort] at hshort
  · rfl

/-- Where no statement may begin, a line holds none. -/
lemma statementLine?_of_not_atStatement {before : Lexical} (h : before.atStatement = false)
    (text : List Char) : statementLine? before text = none := by
  simp [statementLine?, h]

/-- A line on which no statement begins is followed, and nothing else. -/
lemma readBefore_of_none {lines : List (List Char)} {k : Nat} {text : List Char}
    (htext : lines[k]? = some text) (hnone : readPage lines k = none) :
    readBefore lines (k + 1) =
      ((readBefore lines k).1.lexically (lexicalBefore lines (k + 1)),
        (readBefore lines k).2) := by
  obtain ⟨hk, -⟩ := List.getElem?_eq_some_iff.1 htext
  have hlexical := lexical_readBefore (Nat.le_of_lt hk)
  rw [readPage, htext, Option.bind_some, ← hlexical] at hnone
  rw [readBefore_succ htext, readLine_eq, hnone, lexicalBefore_succ htext, hlexical,
    List.append_nil]

/-- The reader takes no statement to begin on an interior line. -/
lemma readPage_of_isInterior {lines : List (List Char)} {k : Nat} (hk : k < lines.length)
    (hshort : ∀ i ≤ k, (beginningOf lines i).isInShort = false)
    (h : (beginningOf lines k).isInterior = true) : readPage lines k = none := by
  have hbefore := lexicalBefore_eq (Nat.le_of_lt hk) fun i hi => hshort i (Nat.le_of_lt hi)
  have hnot := Beginning.atStatement_lexical (hshort k (Nat.le_refl k)) h
  rw [readPage, List.getElem?_eq_getElem hk, Option.bind_some, hbefore]
  exact statementLine?_of_not_atStatement hnot lines[k]

end Python

namespace Language

/-- **An interior line adds nothing and ends nothing**, unless it or a line before begins within a
short literal.

**Proof sketch.** The reader knows within what the line begins (`Python.lexicalBefore_eq`), and so
it sees no statement there. -/
theorem scan_python_interior {lines : List String} {k : Nat} (hk : k < lines.length)
    (hshort : ∀ i ≤ k, (Python.beginningOf (lines.map String.toList) i).isInShort = false)
    (hinterior : (Python.beginningOf (lines.map String.toList) k).isInterior = true) :
    let before := Python.readBefore (lines.map String.toList) k
    let after := Python.readBefore (lines.map String.toList) (k + 1)
    (∀ o ∈ (python.scan lines).occurrences, o.tag.line ≠ k) ∧ after.2 = before.2
      ∧ after.1.classes = before.1.classes ∧ after.1.function = before.1.function := by
  have hlength : k < (lines.map String.toList).length := by rwa [List.length_map]
  have hnone := Python.readPage_of_isInterior hlength hshort hinterior
  dsimp only
  rw [Python.readBefore_of_none (List.getElem?_eq_getElem hlength) hnone]
  refine ⟨?_, rfl, rfl, rfl⟩
  rintro o ho rfl
  have hreported := reported?_of_mem_scan ho
  rw [Python.reported?, hnone] at hreported
  exact absurd hreported (by simp)

/-- What looks like a class in a long literal, where a class is open. -/
theorem scan_python_interior_class :
    let lines := ["class A:", "    '''", "class B:", "'''", "    def f(self): pass"]
    let before := Python.readBefore (lines.map String.toList) 2
    let after := Python.readBefore (lines.map String.toList) 3
    (∀ i ≤ 2, (Python.beginningOf (lines.map String.toList) i).isInShort = false)
      ∧ (Python.beginningOf (lines.map String.toList) 2).isInterior = true
      ∧ (∀ o ∈ (python.scan lines).occurrences, o.tag.line ≠ 2) ∧ after.2 = before.2
      ∧ after.1.classes = before.1.classes ∧ after.1.function = before.1.function := by
  intro lines before after
  have hshort : ∀ i ≤ 2, (Python.beginningOf (lines.map String.toList) i).isInShort = false := by
    decide +kernel
  have hinterior : (Python.beginningOf (lines.map String.toList) 2).isInterior = true := by
    decide +kernel
  exact ⟨hshort, hinterior, scan_python_interior (by decide) hshort hinterior⟩

/-- A line that begins within a short literal is read as if it did not: the backslash at the end of
the line before is forgotten. -/
theorem scan_python_escaped_end :
    let lines := ["x = 'a\\", "class B: '"]
    (Python.beginningOf (lines.map String.toList) 1).literal = some (.short '\'')
      ∧ ∃ o ∈ (python.scan lines).occurrences, o.tag.line = 1 := by
  decide +kernel

end Language

end Outliner
