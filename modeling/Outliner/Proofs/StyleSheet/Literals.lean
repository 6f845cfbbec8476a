import Mathlib.Tactic.Lemma
import Outliner.Proofs.Literals
import Outliner.Proofs.Occurrence
import Outliner.Proofs.StyleSheet.Comments
import Outliner.Proofs.StyleSheet.Parts
import Outliner.Scan

set_option autoImplicit false

/-!
# Literals in style sheets

Two style sheets that differ only in what their literals say have the same selectors on the same
lines, up to what the literals in these say. A name is taken from a selector wherever it stands
outside values and arguments. So the documents are the same, as long as the literals differ within
values and arguments only, and not in a bracket or a parenthesis: these count in a literal as they
do elsewhere.

## Main definitions

* `Outliner.StyleSheet.State.Rephrased` — two states differ only in what the literals of the
  selectors say.

## Main results

* `Outliner.StyleSheet.step_rephrased` — a step does the same, whatever literals say.
* `Outliner.StyleSheet.selectors_rephrased` — sheets that differ only in what literals say have the
  same selectors up to that.
* `Outliner.Language.scan_css_literals` — they have the same document, where the selectors differ
  only in what is passed over.
-/

namespace Outliner

namespace StyleSheet

/-! ## States -/

/-- The selectors differ only in what their literals say. -/
structure Selector.Rephrased (a b : Selector) : Prop where
  /-- Their texts do. -/
  text : lexicon.Rephrased a.text b.text
  /-- They begin on the same line. -/
  line : a.line = b.line

/-- The pieces differ only in what their literals say. -/
structure Piece.Rephrased (a b : Piece) : Prop where
  /-- Their texts do. -/
  backwards : lexicon.Rephrased a.backwards b.backwards
  /-- They begin on the same line. -/
  line : a.line = b.line

/-- The states differ only in what the literals of the selectors say. -/
structure State.Rephrased (s t : State) : Prop where
  /-- A comment is open in both or in none. -/
  inComment : s.inComment = t.inComment
  /-- The same blocks are open. -/
  blocks : s.blocks = t.blocks
  /-- The finished selectors differ only in what their literals say. -/
  list : List.Forall₂ Selector.Rephrased s.list t.list
  /-- So does the selector that is being read. -/
  piece : Option.Rel Piece.Rephrased s.piece t.piece
  /-- The same at-rule is being read. -/
  atRule : s.atRule = t.atRule

section States

variable {s t : State} {p q : Piece} {u v : List Char} {line : Nat}

/-- No quote is a blank. -/
lemma isBlank_quote : ∀ quote ∈ lexicon.quotes, isBlank quote = false := by
  intro quote hquote
  obtain rfl | rfl := mem_quotes.1 hquote
  · decide
  · decide

/-- Pieces that say the same go on saying the same. -/
lemma Piece.Rephrased.append (h : p.Rephrased q) (htext : lexicon.Rephrased u v) :
    (p.append u).Rephrased (q.append v) :=
  ⟨htext.reverse.append h.backwards, h.line⟩

/-- Of both pieces a selector is made, or of none. -/
lemma Piece.Rephrased.selector? (h : p.Rephrased q) :
    List.Forall₂ Selector.Rephrased p.selector?.toList q.selector?.toList := by
  have htext := h.backwards.reverse.trim isBlank_quote
  unfold Piece.selector?
  simp only [List.isEmpty_iff, htext.eq_nil_iff]
  split
  · exact .nil
  · exact .cons ⟨htext, h.line⟩ .nil

/-- States that say the same are in the same block. -/
lemma State.Rephrased.block (h : s.Rephrased t) : s.block = t.block := by
  rw [State.block, State.block, h.blocks]

/-- A selector is being read in both or in none.

**Proof sketch.** Both pieces are given or both are missing, since they say the same. -/
lemma State.Rephrased.piece_cases (h : s.Rephrased t) :
    s.piece = none ∧ t.piece = none
      ∨ ∃ p q, s.piece = some p ∧ t.piece = some q ∧ p.Rephrased q := by
  have hpiece := h.piece
  cases hs : s.piece with
  | none =>
    cases ht : t.piece with
    | none => exact .inl ⟨rfl, rfl⟩
    | some q => rw [hs, ht] at hpiece; cases hpiece
  | some p =>
    cases ht : t.piece with
    | none => rw [hs, ht] at hpiece; cases hpiece
    | some q =>
      rw [hs, ht] at hpiece
      cases hpiece with
      | some hpq => exact .inr ⟨p, q, rfl, rfl, hpq⟩

/-- A rule begins in both or in none. -/
lemma State.Rephrased.begins_iff (h : s.Rephrased t) :
    s.piece = none ∧ s.list = [] ↔ t.piece = none ∧ t.list = [] := by
  have hlist : s.list = [] ↔ t.list = [] := by
    rw [← List.length_eq_zero_iff, h.list.length_eq, List.length_eq_zero_iff]
  obtain ⟨hs, ht⟩ | ⟨p, q, hs, ht, -⟩ := h.piece_cases
  · simp [hs, ht, hlist]
  · simp [hs, ht]

/-- Where a selector ends, the states go on saying the same. -/
lemma State.Rephrased.endSelector (h : s.Rephrased t) : s.endSelector.Rephrased t.endSelector := by
  refine ⟨h.inComment, h.blocks, List.rel_append h.list ?_, .none, h.atRule⟩
  obtain ⟨hs, ht⟩ | ⟨p, q, hs, ht, hpq⟩ := h.piece_cases
  · rw [hs, ht]
    exact .nil
  · rw [hs, ht]
    exact hpq.selector?

/-- Where a selector goes on, they do as well. -/
lemma State.Rephrased.extend (h : s.Rephrased t) (htext : lexicon.Rephrased u v) (line : Nat) :
    (s.extend line u).Rephrased (t.extend line v) := by
  refine ⟨h.inComment, h.blocks, h.list, .some (.append ?_ htext), h.atRule⟩
  obtain ⟨hs, ht⟩ | ⟨p, q, hs, ht, hpq⟩ := h.piece_cases
  · rw [hs, ht]
    exact ⟨.nil, rfl⟩
  · rw [hs, ht]
    exact hpq

/-- A blank behind what was read of a selector. -/
lemma State.Rephrased.map_append (h : s.Rephrased t) (blank : List Char) :
    Option.Rel Piece.Rephrased (s.piece.map (·.append blank)) (t.piece.map (·.append blank)) := by
  obtain ⟨hs, ht⟩ | ⟨p, q, hs, ht, hpq⟩ := h.piece_cases
  · rw [hs, ht]
    exact .none
  · rw [hs, ht]
    exact .some (hpq.append (.refl blank))

end States

/-! ## Steps -/

/-- Two steps at two cursors do the same, up to what literals say. -/
structure StepsRephrased (c d : Cursor) (a b : Cursor.Step State Selector) : Prop where
  /-- The states after the steps differ only in what literals say. -/
  state : a.state.Rephrased b.state
  /-- So does what they find. -/
  found : List.Forall₂ Selector.Rephrased a.found b.found
  /-- They move over the same number of characters. -/
  moves : ∃ n, a.cursor = c.forward n ∧ b.cursor = d.forward n

section Steps

variable {s t : State} {c d : Cursor} {ch : Char} {line : Nat} {before before' a b : List Char}

/-- A step in a block that holds no rules says the same in both. -/
lemma blockStep_rephrased (h : s.Rephrased t) (hquote : ¬ (ch = '"' ∨ ch = '\'')) (c d : Cursor) :
    StepsRephrased c d (blockStep s c ch) (blockStep t d ch) := by
  rw [blockStep, blockStep, if_neg hquote, if_neg hquote, h.blocks]
  split_ifs
  · exact ⟨⟨h.inComment, rfl, h.list, h.piece, h.atRule⟩, .nil, 1, rfl, rfl⟩
  · exact ⟨⟨h.inComment, rfl, h.list, h.piece, h.atRule⟩, .nil, 1, rfl, rfl⟩
  · exact ⟨h, .nil, 1, rfl, rfl⟩

/-- So does a step in the prelude of an at-rule. -/
lemma atRuleStep_rephrased (h : s.Rephrased t) (hquote : ¬ (ch = '"' ∨ ch = '\'')) (nests : Bool)
    (c d : Cursor) : StepsRephrased c d (atRuleStep nests s c ch) (atRuleStep nests t d ch) := by
  rw [atRuleStep, atRuleStep, if_neg hquote, if_neg hquote, h.blocks]
  split
  · exact ⟨⟨h.inComment, rfl, h.list, h.piece, rfl⟩, .nil, 1, rfl, rfl⟩
  split
  · exact ⟨⟨h.inComment, rfl, h.list, h.piece, rfl⟩, .nil, 1, rfl, rfl⟩
  · exact ⟨h, .nil, 1, rfl, rfl⟩

/-- So does a step among rules.

**Proof sketch.** Whether an at-rule begins is the same in both, and then they read the same name.
Otherwise the character decides what ends, begins or goes on, and each of these keeps what the
states say. -/
lemma ruleStep_rephrased (h : s.Rephrased t) (hquote : ¬ (ch = '"' ∨ ch = '\''))
    (hname : ch = '@' →
      c.next.after.takeWhile isRuleNameChar = d.next.after.takeWhile isRuleNameChar)
    (line : Nat) : StepsRephrased c d (ruleStep line s c ch) (ruleStep line t d ch) := by
  by_cases hrule : ch = '@' ∧ s.piece = none ∧ s.list = []
  · have hrule' : ch = '@' ∧ t.piece = none ∧ t.list = [] := ⟨hrule.1, h.begins_iff.1 hrule.2⟩
    rw [ruleStep, ruleStep, if_pos hrule, if_pos hrule', Cursor.span, Cursor.span,
      hname hrule.1]
    exact ⟨⟨h.inComment, h.blocks, h.list, h.piece, rfl⟩, .nil, _,
      (Cursor.forward_succ _ c).symm, (Cursor.forward_succ _ d).symm⟩
  · have hrule' : ¬ (ch = '@' ∧ t.piece = none ∧ t.list = []) :=
      fun h' => hrule ⟨h'.1, h.begins_iff.2 h'.2⟩
    have hended := h.endSelector
    rw [ruleStep, ruleStep, if_neg hrule, if_neg hrule', if_neg hquote, if_neg hquote, h.blocks]
    split_ifs
    · exact ⟨⟨h.inComment, rfl, .nil, .none, h.atRule⟩, hended.list, 1, rfl, rfl⟩
    · exact ⟨⟨h.inComment, rfl, .nil, .none, h.atRule⟩, .nil, 1, rfl, rfl⟩
    · exact ⟨⟨h.inComment, h.blocks, .nil, .none, h.atRule⟩, .nil, 1, rfl, rfl⟩
    · exact ⟨hended, .nil, 1, rfl, rfl⟩
    · exact ⟨⟨h.inComment, rfl, h.list, h.map_append [ch], h.atRule⟩, .nil, 1, rfl, rfl⟩
    · exact ⟨h.extend (.refl [ch]) line, .nil, 1, rfl, rfl⟩

/-- A step in code at a character that begins no literal. -/
lemma codeStep_rephrased (h : s.Rephrased t) (hquote : ch ∉ lexicon.quotes)
    (hname : ch = '@' →
      c.next.after.takeWhile isRuleNameChar = d.next.after.takeWhile isRuleNameChar)
    (line : Nat) : StepsRephrased c d (codeStep line s c ch) (codeStep line t d ch) := by
  have hquote : ¬ (ch = '"' ∨ ch = '\'') := fun hq => hquote (mem_quotes.2 hq)
  unfold codeStep
  rw [h.block, h.atRule]
  split
  · exact atRuleStep_rephrased h hquote _ c d
  · exact ruleStep_rephrased h hquote hname line
  · exact blockStep_rephrased h hquote c d

/-- A literal is passed over to its closing quote, or to the end of the line.

**Proof sketch.** If the literal is closed, it is closed at the same place in both, and only its
interior differs. If it is left open, the texts do not differ at all. -/
lemma exists_overQuoted (hquote : ch ∈ lexicon.quotes)
    (h : lexicon.Agree (.literal ch false) a b) (before before' : List Char) :
    ∃ n, ((⟨before, ch :: a⟩ : Cursor).overQuoted ch).2 = (⟨before, ch :: a⟩ : Cursor).forward n
      ∧ ((⟨before', ch :: b⟩ : Cursor).overQuoted ch).2 = (⟨before', ch :: b⟩ : Cursor).forward n
      ∧ n ≤ (ch :: a).length ∧ lexicon.Rephrased ((ch :: a).take n) ((ch :: b).take n) := by
  have hpeek : ∀ before t, (⟨before, ch :: t⟩ : Cursor).peek? = some ch := fun _ _ => rfl
  have hnext : ∀ before t, (⟨before, ch :: t⟩ : Cursor).next.after = t := fun _ _ => rfl
  rw [Cursor.overQuoted, Cursor.overQuoted, if_pos (hpeek before a), if_pos (hpeek before' b),
    Cursor.toClosingQuote, Cursor.toClosingQuote, hnext, hnext]
  cases hlength : Cursor.quotedLength? ch a with
  | some n =>
    obtain ⟨hlength', interior, interior', hinterior, htake, htake'⟩ := h.literal hquote hlength
    rw [hlength']
    refine ⟨n + 1, (Cursor.forward_succ n _).symm, (Cursor.forward_succ n _).symm,
      Nat.succ_le_succ (Lexicon.quotedLength?_le hlength), ?_⟩
    rw [List.take_succ_cons, List.take_succ_cons, htake, htake']
    exact .literal hquote hinterior .nil
  | none =>
    obtain rfl := h.eq_of_open hlength
    rw [hlength]
    exact ⟨_, Cursor.toEnd_forward 1 _, Cursor.toEnd_forward 1 _, Nat.le_refl _, .refl _⟩

/-- A step at a literal. -/
lemma literalStep_rephrased (h : s.Rephrased t) (hquote : ch ∈ lexicon.quotes)
    (hagree : lexicon.Agree (.literal ch false) a b) (line : Nat) (before before' : List Char) :
    StepsRephrased ⟨before, ch :: a⟩ ⟨before', ch :: b⟩
      (codeStep line s ⟨before, ch :: a⟩ ch) (codeStep line t ⟨before', ch :: b⟩ ch) := by
  obtain ⟨n, hfirst, hsecond, hle, htext⟩ := exists_overQuoted hquote hagree before before'
  have hle' : n ≤ (ch :: b).length := by
    rwa [List.length_cons, ← hagree.length_eq]
  rw [codeStep_quoted hquote, codeStep_quoted hquote, hfirst, hsecond, h.block, h.atRule]
  simp only [Cursor.length_after_forward, Nat.sub_sub_self hle, Nat.sub_sub_self hle']
  refine ⟨?_, .nil, n, rfl, rfl⟩
  split
  · exact h.extend htext line
  · exact h

/-- **A step does the same, whatever literals say.**

**Proof sketch.** In a comment the texts agree on where it ends. In code they agree on whether a
comment begins. A literal is passed over in both, whatever it says, and any other character is the
same in both, with the name behind it. -/
theorem step_rephrased (h : s.Rephrased t)
    (hagree : lexicon.Agree (.start s.inComment) (ch :: a) (ch :: b)) (line : Nat)
    (before before' : List Char) :
    StepsRephrased ⟨before, ch :: a⟩ ⟨before', ch :: b⟩
      (step line s ⟨before, ch :: a⟩ ch) (step line t ⟨before', ch :: b⟩ ch) := by
  have hcomment := h.inComment
  cases hs : s.inComment with
  -- a comment is open
  | true =>
    rw [hs] at hagree hcomment
    have hsame : offset? "*/".toList (ch :: a) = offset? "*/".toList (ch :: b) :=
      Lexicon.Agree.offset?_close hagree (by simp)
    rw [step, step, if_pos hs, if_pos hcomment.symm, Cursor.beyond, Cursor.beyond, hsame]
    cases offset? "*/".toList (ch :: b) with
    | some n => exact ⟨⟨rfl, h.blocks, h.list, h.piece, h.atRule⟩, .nil, n + 2, rfl, rfl⟩
    | none =>
      refine ⟨⟨rfl, h.blocks, h.list, h.piece, h.atRule⟩, .nil, (ch :: a).length, rfl, ?_⟩
      rw [hagree.length_eq]
      rfl
  | false =>
    rw [hs] at hagree hcomment
    have hbegin : lexicon.Agree (lexicon.next (.code false) ch) a b := hagree.2
    have hopens : startsWith "/*".toList (ch :: a) = startsWith "/*".toList (ch :: b) := by
      refine Lexicon.startsWith_pair '/' '*' fun hslash => ?_
      rw [hslash, lexicon.next_slash] at hbegin
      exact hbegin.head?_eq rfl
    have hnot : ¬ s.inComment = true := by rw [hs]; exact Bool.false_ne_true
    have hnot' : ¬ t.inComment = true := by rw [← hcomment]; exact Bool.false_ne_true
    rw [step, step, if_neg hnot, if_neg hnot', Cursor.startsWith, Cursor.startsWith, hopens]
    split
    -- a comment begins
    · exact ⟨⟨rfl, h.blocks, h.list, h.piece, h.atRule⟩, .nil, 2, rfl, rfl⟩
    · by_cases hquote : ch ∈ lexicon.quotes
      -- a literal begins
      · have hplace : lexicon.next (.code false) ch = .literal ch false := by
          simp [Lexicon.next, hquote]
        exact literalStep_rephrased h hquote (hplace ▸ hbegin) line before before'
      -- any other character of code
      · refine codeStep_rephrased h hquote (fun hsign => ?_) line
        have hplace : lexicon.next (.code false) ch = .code false := by
          rw [hsign]
          decide
        exact Lexicon.Agree.takeWhile_eq (hplace ▸ hbegin) fun _ => isPlain_of_isRuleNameChar

end Steps

/-! ## Reading -/

section Reading

variable {s t : State} {a b : List Char} {lines lines' : List (List Char)}

/-- Two lines that differ only in what their literals say are walked along alike.

**Proof sketch.** Induction on the length of the lines. Behind each step they differ only in what
their literals say, and the state tells whether a comment is open there. -/
lemma walk_rephrased (h : s.Rephrased t) (hagree : lexicon.Agree (.start s.inComment) a b)
    (line : Nat) (before before' : List Char) :
    (Cursor.walk (step line) s ⟨before, a⟩).1.Rephrased (Cursor.walk (step line) t ⟨before', b⟩).1
      ∧ List.Forall₂ Selector.Rephrased (Cursor.walk (step line) s ⟨before, a⟩).2
        (Cursor.walk (step line) t ⟨before', b⟩).2 := by
  induction hn : a.length using Nat.strong_induction_on generalizing s t before before' a b with
  | _ length ih =>
    cases a with
    | nil =>
      obtain rfl := List.length_eq_zero_iff.1 hagree.length_eq.symm
      rw [Cursor.walk_end _ _ rfl, Cursor.walk_end _ _ rfl]
      exact ⟨h, .nil⟩
    | cons ch a =>
      have hplace : (Lexicon.Place.start s.inComment).isLiteral = false := by
        cases s.inComment <;> rfl
      obtain ⟨b, rfl, -⟩ := hagree.exists_cons hplace
      obtain ⟨hstate, hfound, n, hfirst, hsecond⟩ := step_rephrased h hagree line before before'
      have hpeek : (⟨before, ch :: a⟩ : Cursor).peek? = some ch := rfl
      have hpeek' : (⟨before', ch :: b⟩ : Cursor).peek? = some ch := rfl
      obtain ⟨m, hm, hcursor, hsettles⟩ := commentReader.step_settles line s hpeek
      rw [commentReader_step] at hcursor hsettles
      obtain ⟨htake, hdrop⟩ := Cursor.mk.inj (hfirst.symm.trans hcursor)
      rw [List.append_cancel_right_eq, List.reverse_inj] at htake
      -- behind the first step the lines differ in literals only, too
      have hlater : lexicon.Agree (.start (step line s ⟨before, ch :: a⟩ ch).state.inComment)
          ((ch :: a).drop n) ((ch :: b).drop n) := by
        refine (hagree.drop n).settled ?_
        rw [htake, hdrop]
        exact hsettles
      have hshorter : ((ch :: a).drop n).length < length := by
        rw [hdrop, ← hn, List.length_drop]
        exact Nat.sub_lt (Nat.succ_pos _) hm
      obtain ⟨hlast, hrest⟩ := ih _ hshorter hstate hlater
        (((ch :: a).take n).reverse ++ before) (((ch :: b).take n).reverse ++ before') rfl
      have hwalk := commentReader.walk_eq line s hpeek
      have hwalk' := commentReader.walk_eq line t hpeek'
      rw [commentReader_step, hfirst] at hwalk
      rw [commentReader_step, hsecond] at hwalk'
      rw [hwalk, hwalk']
      exact ⟨hlast, List.rel_append hfound hrest⟩

/-- Lines that agree are read alike. -/
lemma readLine_rephrased (h : s.Rephrased t) (hagree : lexicon.Agree (.start s.inComment) a b)
    (line : Nat) :
    (readLine s line a).1.Rephrased (readLine t line b).1
      ∧ List.Forall₂ Selector.Rephrased (readLine s line a).2 (readLine t line b).2 := by
  obtain ⟨hlast, hfound⟩ := walk_rephrased h hagree line [] []
  exact ⟨⟨hlast.inComment, hlast.blocks, hlast.list, hlast.map_append [' '], hlast.atRule⟩, hfound⟩

/-- At the end of a line the state tells whether a comment goes on. -/
lemma inComment_readLine (s : State) (line : Nat) (a : List Char) :
    (readLine s line a).1.inComment = lexicon.commentBehind s.inComment a :=
  CommentReader.inComment_walk (R := commentReader) line s (.start a)

/-- So are sources that agree.

**Proof sketch.** Induction on the lines. Whether a comment is open at the end of a line is the same
in both. -/
lemma readLines_rephrased (h : s.Rephrased t)
    (hagree : lexicon.AgreeLines s.inComment lines lines') (first : Nat) :
    List.Forall₂ Selector.Rephrased (readLines readLine first s lines).2
      (readLines readLine first t lines').2 := by
  induction lines generalizing s t lines' first with
  | nil =>
    cases lines' with
    | nil => exact .nil
    | cons b lines' => cases hagree
  | cons a lines ih =>
    cases lines' with
    | nil => cases hagree
    | cons b lines' =>
      obtain ⟨hline, hrest⟩ := hagree
      obtain ⟨hlast, hfound⟩ := readLine_rephrased h hline first
      rw [← inComment_readLine s first a] at hrest
      exact List.rel_append hfound (ih hlast hrest (first + 1))

/-- **Sheets that differ only in what their literals say have the same selectors up to that**, on
the same lines. -/
theorem selectors_rephrased (hagree : lexicon.AgreeLines false lines lines') :
    List.Forall₂ Selector.Rephrased (selectors lines) (selectors lines') :=
  readLines_rephrased ⟨rfl, rfl, .nil, .none, rfl⟩ hagree 0

/-- Selectors on the same lines that use the same names make the same marks. -/
lemma marks_eq_of_names
    (hlines : List.Forall₂ Selector.Rephrased (selectors lines) (selectors lines'))
    (hnames : ∀ pair ∈ (selectors lines).zip (selectors lines'),
      names pair.1.text = names pair.2.text) : marks lines = marks lines' := by
  rw [marks, marks]
  generalize selectors lines = found at hlines hnames ⊢
  generalize selectors lines' = found' at hlines hnames ⊢
  induction hlines with
  | nil => rfl
  | @cons a b found found' hab hrest ih =>
    have hfirst : names a.text = names b.text := hnames (a, b) List.mem_cons_self
    have hlater := ih fun pair hpair => hnames pair (List.mem_cons_of_mem (a, b) hpair)
    rw [List.flatMap_cons, List.flatMap_cons, hfirst, hab.line, hlater]

end Reading

end StyleSheet

namespace Language

open StyleSheet (PassedOver names outside selectors)

/-- **Literals name nothing, as far as they stand in values and arguments.** Two sheets that differ
only in what the literals that are closed on their lines say have the same selectors on the same
lines, up to what the literals in these say. Where these differ only in characters of values and of
arguments that do not end them, the documents are the same; and no name is taken from a value or
from arguments. -/
theorem scan_css_literals {lines lines' : List String}
    (hagree : StyleSheet.lexicon.AgreeLines false (lines.map String.toList)
      (lines'.map String.toList)) :
    List.Forall₂ StyleSheet.Selector.Rephrased (selectors (lines.map String.toList))
        (selectors (lines'.map String.toList))
      ∧ ((∀ pair ∈ (selectors (lines.map String.toList)).zip (selectors (lines'.map String.toList)),
          PassedOver .plain pair.1.text pair.2.text) → css.scan lines = css.scan lines')
      ∧ ∀ selector ∈ selectors (lines.map String.toList),
          names (outside .plain selector.text) = names selector.text := by
  have hselectors := StyleSheet.selectors_rephrased hagree
  refine ⟨hselectors, fun hpassed => ?_, fun selector _ => StyleSheet.names_outside selector.text⟩
  have hmarks : css.marks (lines.map String.toList) = css.marks (lines'.map String.toList) :=
    StyleSheet.marks_eq_of_names hselectors fun pair hpair =>
      StyleSheet.names_eq_of_passedOver (hpassed pair hpair)
  rw [scan, scan, hmarks]

/-- The value of an attribute and the arguments of a pseudo-class say something else, and so does a
literal that belongs to no selector. -/
theorem scan_css_literals_value :
    let lines := ["@import 'a.css';", "a[title=\"x #y\"]:is([lang='.z']) p \x7b\x7d"]
    let lines' := ["@import '/*;*/';", "a[title=\"\x7b\x7d, \"]:is([lang='//']) p \x7b\x7d"]
    StyleSheet.lexicon.AgreeLines false (lines.map String.toList) (lines'.map String.toList)
      ∧ css.scan lines = css.scan lines' := by
  intro lines lines'
  have hagree : StyleSheet.lexicon.AgreeLines false (lines.map String.toList)
      (lines'.map String.toList) := by decide +kernel
  exact ⟨hagree, (scan_css_literals hagree).2.1 (by decide +kernel)⟩

/-- A bracket in a literal ends the value, and what the literal says behind it is a name. -/
theorem scan_css_closing_bracket :
    let lines := ["a[title=\"x]b\"] \x7b\x7d"]
    let lines' := ["a[title=\"x b\"] \x7b\x7d"]
    StyleSheet.lexicon.AgreeLines false (lines.map String.toList) (lines'.map String.toList)
      ∧ (css.scan lines).occurrences.map (·.tag.name) = ["a", "b"]
      ∧ (css.scan lines').occurrences.map (·.tag.name) = ["a"] := by
  decide +kernel

end Language

end Outliner
