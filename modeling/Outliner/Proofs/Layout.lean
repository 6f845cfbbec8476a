import Mathlib.Data.List.Basic
import Mathlib.Tactic.Lemma
import Outliner.Outline.Text

set_option autoImplicit false

/-!
# What a text tells of its outline

An outline written as a text shows the labels of its headings, the names and lines of its items, and
how they are nested, and nothing else. This much, its sketch, can be read back: how far a row of the
text is indented tells whether it holds a label or an item and how deep it stands, and the line of
an item is what stands in its last pair of parentheses, whatever the name before it looks like.

## Main definitions

* `Outliner.Row` — a row of a text: its indentation and what stands after it.
* `Outliner.Sketch`, `Outliner.Outline.sketch` — what can be seen of an item and of an outline.
* `Outliner.Outline.Legible` — no label and no name spreads over lines or begins with a space.

## Main results

* `Outliner.Row.eq_of_flatMap_chars` — a text is known by its characters to consist of its rows.
* `Outliner.Sketch.eq_of_rowsOfHeadings` — the rows tell the sketch.
* `Outliner.Outline.render_eq_iff` — two outlines are written alike only if they have one sketch.
-/

namespace Outliner

/-! ## Rows -/

/-- A row of a text: how many spaces stand in front, and what follows them. -/
structure Row where
  /-- The number of spaces in front. -/
  indent : Nat
  /-- What follows them. -/
  text : List Char

namespace Row

/-- The characters of the row, with the line feed that ends it. -/
def chars (r : Row) : List Char := List.replicate r.indent ' ' ++ (r.text ++ ['\n'])

/-- The row can be read back from its characters. -/
structure Clean (r : Row) : Prop where
  /-- The row ends at its first line feed. -/
  feed : '\n' ∉ r.text
  /-- All spaces in front belong to the indentation. -/
  front : r.text.head? ≠ some ' '

end Row

/-- The first place of a character cuts a text in one way only. -/
lemma eq_of_append_cons {c : Char} {a b x y : List Char} (ha : c ∉ a) (hb : c ∉ b)
    (h : a ++ c :: x = b ++ c :: y) : a = b ∧ x = y := by
  induction a generalizing b with
  | nil =>
    cases b with
    | nil => exact ⟨rfl, (List.cons.inj h).2⟩
    | cons d b => exact absurd ((List.cons.inj h).1 ▸ List.mem_cons_self) hb
  | cons d a ih =>
    cases b with
    | nil => exact absurd ((List.cons.inj h).1 ▸ List.mem_cons_self) ha
    | cons e b =>
      obtain ⟨rfl, hrest⟩ := List.cons.inj h
      obtain ⟨rfl, rfl⟩ := ih (fun hc => ha (List.mem_cons_of_mem d hc))
        (fun hc => hb (List.mem_cons_of_mem d hc)) hrest
      exact ⟨rfl, rfl⟩

/-- The number of times that a character stands in front of a text that does not begin with it is
known.

**Proof sketch.** Induction on the number in front of the first text. If one text has no such
character in front and the other has one, they begin with different characters. -/
lemma eq_of_replicate_append {c : Char} {m n : Nat} {a b : List Char} (ha : a.head? ≠ some c)
    (hb : b.head? ≠ some c) (h : List.replicate m c ++ a = List.replicate n c ++ b) :
    m = n ∧ a = b := by
  induction m generalizing n with
  | zero =>
    cases n with
    | zero => exact ⟨rfl, h⟩
    | succ n =>
      have hfront : a.head? = some c := by
        rw [show a = c :: (List.replicate n c ++ b) from h, List.head?_cons]
      exact absurd hfront ha
  | succ m ih =>
    cases n with
    | zero =>
      have hfront : b.head? = some c := by
        rw [show b = c :: (List.replicate m c ++ a) from h.symm, List.head?_cons]
      exact absurd hfront hb
    | succ n =>
      obtain ⟨rfl, rfl⟩ := ih (List.cons.inj h).2
      exact ⟨rfl, rfl⟩

namespace Row

/-- The first row of a text is known, if it is clean.

**Proof sketch.** A clean row does not begin with a blank behind its indentation, so the indentation
is known, and its text holds no line end, so it ends at the first one. -/
lemma eq_of_chars_append {r r' : Row} (hr : r.Clean) (hr' : r'.Clean) {text text' : List Char}
    (h : r.chars ++ text = r'.chars ++ text') : r = r' ∧ text = text' := by
  have hfront : ∀ {r : Row}, r.Clean → ∀ text, (r.text ++ '\n' :: text).head? ≠ some ' ' := by
    intro r hr text
    cases hchars : r.text with
    | nil => exact fun hfeed => absurd (Option.some.inj hfeed) (by decide)
    | cons c rest =>
      have hc := hr.front
      rwa [hchars] at hc
  simp only [chars, List.append_assoc, List.singleton_append] at h
  obtain ⟨hindent, hrest⟩ := eq_of_replicate_append (hfront hr text) (hfront hr' text') h
  obtain ⟨htext, hmore⟩ := eq_of_append_cons hr.feed hr'.feed hrest
  obtain ⟨indent, chars⟩ := r
  obtain ⟨indent', chars'⟩ := r'
  obtain rfl : indent = indent' := hindent
  obtain rfl : chars = chars' := htext
  exact ⟨rfl, hmore⟩

/-- **Clean rows are known by the text they make.**

**Proof sketch.** Induction on the rows. A row makes at least a line end, so no rows are left where
no text is. -/
theorem eq_of_flatMap_chars {rows rows' : List Row} (hrows : ∀ r ∈ rows, r.Clean)
    (hrows' : ∀ r ∈ rows', r.Clean) (h : rows.flatMap chars = rows'.flatMap chars) :
    rows = rows' := by
  have hsome : ∀ (r : Row) (text : List Char), r.chars ++ text ≠ [] := by
    simp [chars]
  induction rows generalizing rows' with
  | nil =>
    cases rows' with
    | nil => rfl
    | cons r' rows' => exact absurd h.symm (hsome r' _)
  | cons r rows ih =>
    cases rows' with
    | nil => exact absurd h (hsome r _)
    | cons r' rows' =>
      obtain ⟨rfl, hrest⟩ := eq_of_chars_append (hrows r List.mem_cons_self)
        (hrows' r' List.mem_cons_self) h
      rw [ih (fun s hs => hrows s (List.mem_cons_of_mem r hs))
        (fun s hs => hrows' s (List.mem_cons_of_mem r hs)) hrest]

end Row

/-! ## The text of an item -/

/-- What stands in the row of an item: its name, and its line counted from one. -/
def itemText (name : String) (line : Nat) : List Char :=
  name.toList ++ " (line ".toList ++ (toString (line + 1)).toList ++ ")".toList

/-- A number is written with digits alone. -/
lemma notMem_toString {c : Char} (hc : c.isDigit = false) (n : Nat) : c ∉ (toString n).toList := by
  intro hmem
  rw [Nat.toString_eq_repr, Nat.toList_repr] at hmem
  have hdigit := Nat.isDigit_of_mem_toDigits (by decide) (by decide) hmem
  rw [hc] at hdigit
  exact absurd hdigit (by decide)

/-- The name and the line of an item are known by its text.

**Proof sketch.** Read the text from its end. The digits end at the last space, and what stands
before the six characters that end there is the name, even if it ends in a line of its own. -/
lemma itemText_inj {name name' : String} {line line' : Nat}
    (h : itemText name line = itemText name' line') : name = name' ∧ line = line' := by
  have hback : ∀ (name : String) (line : Nat), (itemText name line).reverse
      = ')' :: ((toString (line + 1)).toList.reverse
        ++ ' ' :: ("enil( ".toList ++ name.toList.reverse)) := by
    intro name line
    simp [itemText]
  have hdigits : ∀ n : Nat, ' ' ∉ (toString n).toList.reverse := by
    intro n hmem
    exact notMem_toString (by decide) n (List.mem_reverse.1 hmem)
  have hreverse := congrArg List.reverse h
  rw [hback, hback] at hreverse
  obtain ⟨hline, hname⟩ :=
    eq_of_append_cons (hdigits _) (hdigits _) (List.cons.inj hreverse).2
  constructor
  · exact String.toList_inj.1 (List.reverse_inj.1 (List.append_cancel_left hname))
  · have hnumber : Nat.toDigits 10 (line + 1) = Nat.toDigits 10 (line' + 1) := by
      simpa only [Nat.toString_eq_repr, Nat.toList_repr] using List.reverse_inj.1 hline
    have hread := congrArg (Nat.ofDigitChars 10 · 0) hnumber
    rw [Nat.ofDigitChars_ten_toDigits, Nat.ofDigitChars_ten_toDigits] at hread
    exact Nat.succ.inj hread

/-! ## Sketches -/

/-- What can be seen of an item: its name, its line, and the labels below it, each with the items
that stand under it. -/
inductive Sketch where
  /-- An item with what stands below it. -/
  | item (name : String) (line : Nat) (headings : List (String × List Sketch))

namespace Node

mutual

/-- What can be seen of a node. -/
def sketch : Node → Sketch
  | ⟨name, _, line, _, groups⟩ => .item name line (sketchGroups groups)

/-- What can be seen of groups. -/
def sketchGroups : List (Heading Node) → List (String × List Sketch)
  | [] => []
  | ⟨kind, description, _, items⟩ :: groups =>
    (description.getD kind.key, sketchItems items) :: sketchGroups groups

/-- What can be seen of the nodes of a group. -/
def sketchItems : List Node → List Sketch
  | [] => []
  | n :: items => n.sketch :: sketchItems items

end

end Node

/-- What can be seen of an outline. -/
def Outline.sketch (o : Outline) : List (String × List Sketch) := Node.sketchGroups o.groups

/-- The text does not spread over lines, and it does not begin with a space. -/
structure OneLine (text : String) : Prop where
  /-- There is no line feed in the text. -/
  feed : '\n' ∉ text.toList
  /-- The text does not begin with a space. -/
  front : text.toList.head? ≠ some ' '

/-- All names and labels of the item and below it stand on one line, and no name is empty. -/
inductive Sketch.Legible : Sketch → Prop where
  /-- Those of the item and of the headings below it do, and those of their items do. -/
  | item {name : String} {line : Nat} {headings : List (String × List Sketch)}
    (named : name ≠ "") (oneLine : OneLine name) (labels : ∀ h ∈ headings, OneLine h.1)
    (items : ∀ h ∈ headings, ∀ s ∈ h.2, Sketch.Legible s) :
    Sketch.Legible (.item name line headings)

/-- All names and labels of the outline stand on one line, and no name is empty. -/
structure Outline.Legible (o : Outline) : Prop where
  /-- The labels at the top do. -/
  labels : ∀ h ∈ o.sketch, OneLine h.1
  /-- The names and labels below them do, at any depth, and no name is empty. -/
  items : ∀ h ∈ o.sketch, ∀ s ∈ h.2, s.Legible

namespace Sketch

mutual

/-- The rows of an item and of all that stands below it, where its heading stands at a depth of
nesting. -/
def rowsAt (depth : Nat) : Sketch → List Row
  | .item name line headings =>
    ⟨4 * depth + 2, itemText name line⟩ :: rowsOfHeadings (depth + 1) headings

/-- The rows of headings at a depth of nesting, with their items. -/
def rowsOfHeadings (depth : Nat) : List (String × List Sketch) → List Row
  | [] => []
  | (label, items) :: headings =>
    ⟨4 * depth, label.toList⟩ :: (rowsOfItems depth items ++ rowsOfHeadings depth headings)

/-- The rows of items whose heading stands at a depth of nesting. -/
def rowsOfItems (depth : Nat) : List Sketch → List Row
  | [] => []
  | s :: items => s.rowsAt depth ++ rowsOfItems depth items

end

end Sketch

/-! ## From a text to its rows -/

namespace Node

/-- The indentation of a depth, as characters. -/
lemma toList_indentation (depth : Nat) :
    (indentation depth).toList = List.replicate (4 * depth) ' ' := String.toList_ofList

mutual

/-- The text of a node is made of the rows of its sketch. -/
lemma toList_renderAt (depth : Nat) : (n : Node) →
    (n.renderAt depth).toList = (n.sketch.rowsAt depth).flatMap Row.chars
  | ⟨name, kind, line, scope, groups⟩ => by
    have hgroups := toList_renderGroups (depth + 1) groups
    have hindent : List.replicate (4 * depth + 2) ' '
        = List.replicate (4 * depth) ' ' ++ "  ".toList := List.replicate_append_replicate.symm
    simp only [renderAt, sketch, Sketch.rowsAt, List.flatMap_cons, Row.chars, itemText, hindent,
      String.toList_append, toList_indentation, hgroups]
    simp

/-- The text of groups is made of the rows of their sketch. -/
lemma toList_renderGroups (depth : Nat) : (groups : List (Heading Node)) →
    (renderGroups depth groups).toList
      = (Sketch.rowsOfHeadings depth (sketchGroups groups)).flatMap Row.chars
  | [] => by
    rw [renderGroups, sketchGroups, Sketch.rowsOfHeadings]
    rfl
  | ⟨kind, description, priority, items⟩ :: groups => by
    have hitems := toList_renderItems depth items
    have hgroups := toList_renderGroups depth groups
    simp only [renderGroups, sketchGroups, Sketch.rowsOfHeadings, List.flatMap_cons,
      List.flatMap_append, Row.chars, String.toList_append, toList_indentation, hitems, hgroups]
    simp

/-- The text of nodes is made of the rows of their sketches. -/
lemma toList_renderItems (depth : Nat) : (items : List Node) →
    (renderItems depth items).toList
      = (Sketch.rowsOfItems depth (sketchItems items)).flatMap Row.chars
  | [] => by
    rw [renderItems, sketchItems, Sketch.rowsOfItems]
    rfl
  | n :: items => by
    rw [renderItems, sketchItems, Sketch.rowsOfItems, String.toList_append,
      toList_renderAt depth n, toList_renderItems depth items, List.flatMap_append]

end

end Node

namespace Sketch

/-- The row of a label is clean, if the label stands on one line. -/
lemma clean_label {label : String} (h : OneLine label) (indent : Nat) :
    Row.Clean ⟨indent, label.toList⟩ := ⟨h.feed, h.front⟩

/-- The row of an item is clean, if its name stands on one line and is not empty. -/
lemma clean_item {name : String} (hnamed : name ≠ "") (h : OneLine name) (indent line : Nat) :
    Row.Clean ⟨indent, itemText name line⟩ := by
  constructor
  · have hrest : '\n' ∉ " (line ".toList ∧ '\n' ∉ ")".toList := by decide
    have hdigits : '\n' ∉ (toString (line + 1)).toList := notMem_toString (by decide) _
    simp only [itemText, List.mem_append, not_or]
    exact ⟨⟨⟨h.feed, hrest.1⟩, hdigits⟩, hrest.2⟩
  · have hfront := h.front
    have hname : name.toList ≠ [] := fun hnil => hnamed (String.toList_eq_nil_iff.1 hnil)
    simp only [itemText, List.append_assoc]
    rwa [List.head?_append_of_ne_nil _ hname]

/-- The rows of legible items are clean, if those of each of them are. -/
lemma clean_rowsOfItems {depth : Nat} {items : List Sketch}
    (h : ∀ s ∈ items, ∀ r ∈ s.rowsAt depth, r.Clean) : ∀ r ∈ rowsOfItems depth items, r.Clean := by
  induction items with
  | nil => simp [rowsOfItems]
  | cons s items ih =>
    intro r hr
    rw [rowsOfItems] at hr
    rcases List.mem_append.1 hr with hr | hr
    · exact h s List.mem_cons_self r hr
    · exact ih (fun s hs => h s (List.mem_cons_of_mem _ hs)) r hr

/-- The rows of legible headings are clean, if those of each of their items are.

**Proof sketch.** Induction on the headings: a row is that of the label, one of the items under it,
or one of the headings behind it. -/
lemma clean_rowsOfHeadings {depth : Nat} {headings : List (String × List Sketch)}
    (hlabels : ∀ h ∈ headings, OneLine h.1)
    (hitems : ∀ h ∈ headings, ∀ s ∈ h.2, ∀ r ∈ s.rowsAt depth, r.Clean) :
    ∀ r ∈ rowsOfHeadings depth headings, r.Clean := by
  induction headings with
  | nil => simp [rowsOfHeadings]
  | cons heading headings ih =>
    obtain ⟨label, items⟩ := heading
    intro r hr
    rw [rowsOfHeadings] at hr
    rcases List.mem_cons.1 hr with rfl | hr
    · exact clean_label (hlabels _ List.mem_cons_self) _
    rcases List.mem_append.1 hr with hr | hr
    · exact clean_rowsOfItems (hitems _ List.mem_cons_self) r hr
    · exact ih (fun h hh => hlabels h (List.mem_cons_of_mem _ hh))
        (fun h hh => hitems h (List.mem_cons_of_mem _ hh)) r hr

/-- The rows of a legible item are clean. -/
lemma Legible.clean {s : Sketch} (h : s.Legible) (depth : Nat) : ∀ r ∈ s.rowsAt depth, r.Clean := by
  induction h generalizing depth with
  | item hnamed hname hlabels _ ih =>
    intro r hr
    rw [rowsAt] at hr
    rcases List.mem_cons.1 hr with rfl | hr
    · exact clean_item hnamed hname _ _
    · exact clean_rowsOfHeadings hlabels (fun h hh s hs => ih h hh s hs (depth + 1)) r hr

/-! ## From rows to sketches -/

/-- The rows begin, if there are any, with one that is indented less. -/
def StartsLeftOf (indent : Nat) (rows : List Row) : Prop := ∀ r ∈ rows.head?, r.indent < indent

/-- Headings begin at the indentation of their depth, and so does what follows them. -/
lemma startsLeftOf_rowsOfHeadings {depth indent : Nat} (hindent : 4 * depth < indent)
    (headings : List (String × List Sketch)) {rest : List Row} (hrest : StartsLeftOf indent rest) :
    StartsLeftOf indent (rowsOfHeadings depth headings ++ rest) := by
  cases headings with
  | nil => rwa [rowsOfHeadings]
  | cons heading headings =>
    rintro r ⟨⟩
    exact hindent

/-- Items begin two columns further in, and so does what follows them. -/
lemma startsLeftOf_rowsOfItems {depth indent : Nat} (hindent : 4 * depth + 2 < indent)
    (items : List Sketch) {rest : List Row} (hrest : StartsLeftOf indent rest) :
    StartsLeftOf indent (rowsOfItems depth items ++ rest) := by
  cases items with
  | nil => rwa [rowsOfItems]
  | cons s items =>
    obtain ⟨name, line, headings⟩ := s
    rw [rowsOfItems, rowsAt]
    rintro r ⟨⟩
    exact hindent

/-- Rows that start left of a column start left of any further one. -/
lemma StartsLeftOf.mono {m n : Nat} (h : m ≤ n) {rows : List Row} (hrows : StartsLeftOf m rows) :
    StartsLeftOf n rows := fun r hr => Nat.lt_of_lt_of_le (hrows r hr) h

mutual

/-- An item and all that stands below it are known by their rows, where what follows is indented no
deeper than the item. -/
lemma eq_of_rowsAt {depth : Nat} {rest rest' : List Row} : (s s' : Sketch) →
    StartsLeftOf (4 * (depth + 1)) rest → StartsLeftOf (4 * (depth + 1)) rest' →
    s.rowsAt depth ++ rest = s'.rowsAt depth ++ rest' → s = s' ∧ rest = rest'
  | .item name line headings, .item name' line' headings' => by
    intro hrest hrest' h
    rw [rowsAt, rowsAt] at h
    obtain ⟨hrow, hbelow⟩ := List.cons.inj h
    obtain ⟨rfl, rfl⟩ := itemText_inj (Row.mk.inj hrow).2
    obtain ⟨rfl, hmore⟩ := eq_of_rowsOfHeadings headings headings' hrest hrest' hbelow
    exact ⟨rfl, hmore⟩

/-- **Headings and all that stands below them are known by their rows**, where what follows is
indented less.

**Proof sketch.** The first row is that of a label on both sides, since what follows the headings
is indented less. The items under the label end where a row is indented less than they are, be it
the next label or what follows the headings. -/
theorem eq_of_rowsOfHeadings {depth : Nat} {rest rest' : List Row} :
    (headings headings' : List (String × List Sketch)) →
    StartsLeftOf (4 * depth) rest → StartsLeftOf (4 * depth) rest' →
    rowsOfHeadings depth headings ++ rest = rowsOfHeadings depth headings' ++ rest' →
    headings = headings' ∧ rest = rest'
  | [], [] => by
    intro _ _ h
    rw [rowsOfHeadings] at h
    exact ⟨rfl, h⟩
  | [], (label, items) :: headings => by
    intro hrest _ h
    rw [rowsOfHeadings, rowsOfHeadings, List.nil_append] at h
    exact absurd (hrest _ (by rw [h]; rfl)) (Nat.lt_irrefl _)
  | (label, items) :: headings, [] => by
    intro _ hrest' h
    rw [rowsOfHeadings, rowsOfHeadings, List.nil_append] at h
    exact absurd (hrest' _ (by rw [← h]; rfl)) (Nat.lt_irrefl _)
  | (label, items) :: headings, (label', items') :: headings' => by
    intro hrest hrest' h
    simp only [rowsOfHeadings, List.cons_append, List.append_assoc] at h
    obtain ⟨hrow, hunder⟩ := List.cons.inj h
    obtain rfl : label = label' := String.toList_inj.1 (Row.mk.inj hrow).2
    have hless : 4 * depth < 4 * depth + 2 := by omega
    obtain ⟨rfl, hfurther⟩ := eq_of_rowsOfItems items items'
      (startsLeftOf_rowsOfHeadings hless headings (hrest.mono (Nat.le_of_lt hless)))
      (startsLeftOf_rowsOfHeadings hless headings' (hrest'.mono (Nat.le_of_lt hless))) hunder
    obtain ⟨rfl, hmore⟩ := eq_of_rowsOfHeadings headings headings' hrest hrest' hfurther
    exact ⟨rfl, hmore⟩

/-- Items and all that stands below them are known by their rows, where what follows is indented
less than they are.

**Proof sketch.** Induction on both lists, together with that on the items (`eq_of_rowsAt`). If one
of the lists is at its end and the other is not, a row of an item would be indented less than an
item. -/
lemma eq_of_rowsOfItems {depth : Nat} {rest rest' : List Row} : (items items' : List Sketch) →
    StartsLeftOf (4 * depth + 2) rest → StartsLeftOf (4 * depth + 2) rest' →
    rowsOfItems depth items ++ rest = rowsOfItems depth items' ++ rest' →
    items = items' ∧ rest = rest'
  | [], [] => by
    intro _ _ h
    rw [rowsOfItems] at h
    exact ⟨rfl, h⟩
  | [], .item name line headings :: items => by
    intro hrest _ h
    rw [rowsOfItems, rowsOfItems, rowsAt, List.nil_append] at h
    exact absurd (hrest _ (by rw [h]; rfl)) (Nat.lt_irrefl _)
  | .item name line headings :: items, [] => by
    intro _ hrest' h
    rw [rowsOfItems, rowsOfItems, rowsAt, List.nil_append] at h
    exact absurd (hrest' _ (by rw [← h]; rfl)) (Nat.lt_irrefl _)
  | s :: items, s' :: items' => by
    intro hrest hrest' h
    simp only [rowsOfItems, List.append_assoc] at h
    have hless : 4 * depth + 2 < 4 * (depth + 1) := by omega
    obtain ⟨rfl, hfurther⟩ := eq_of_rowsAt s s'
      (startsLeftOf_rowsOfItems hless items (hrest.mono (Nat.le_of_lt hless)))
      (startsLeftOf_rowsOfItems hless items' (hrest'.mono (Nat.le_of_lt hless))) h
    obtain ⟨rfl, hmore⟩ := eq_of_rowsOfItems items items' hrest hrest' hfurther
    exact ⟨rfl, hmore⟩

end

end Sketch

/-! ## Reading an outline back -/

namespace Outline

/-- The text of an outline is made of the rows of its sketch. -/
lemma toList_render (o : Outline) :
    o.render.toList = (Sketch.rowsOfHeadings 0 o.sketch).flatMap Row.chars :=
  Node.toList_renderGroups 0 o.groups

/-- **Outlines are written alike only if they look alike**: the same labels, with the same names and
lines under them in the same order, nested in the same way.

**Proof sketch.** Legible outlines are written in clean rows, so equal texts have equal rows
(`Row.eq_of_flatMap_chars`), and the rows are those of equal sketches
(`Sketch.eq_of_rowsOfHeadings`). What is written depends on the sketch alone. -/
theorem render_eq_iff {o o' : Outline} (ho : o.Legible) (ho' : o'.Legible) :
    o.render = o'.render ↔ o.sketch = o'.sketch := by
  have hclean : ∀ {o : Outline}, o.Legible →
      ∀ r ∈ Sketch.rowsOfHeadings 0 o.sketch, r.Clean := fun ho =>
    Sketch.clean_rowsOfHeadings ho.labels fun h hh s hs => (ho.items h hh s hs).clean 0
  constructor
  · intro h
    have hchars := congrArg String.toList h
    rw [toList_render, toList_render] at hchars
    have hrows := Row.eq_of_flatMap_chars (hclean ho) (hclean ho') hchars
    have hnothing : Sketch.StartsLeftOf (4 * 0) [] := by
      rintro r ⟨⟩
    refine (Sketch.eq_of_rowsOfHeadings o.sketch o'.sketch hnothing hnothing ?_).1
    rw [hrows]
  · intro h
    rw [← String.toList_inj, toList_render, toList_render, h]

/-- A class whose name ends like the row of an item, and an empty group without a label that stands
below the class or beside it. -/
def lookalike (below : Bool) : Outline :=
  let unlabelled : List (Heading Node) := [⟨.methods, some "", 0, []⟩]
  let item : Node := ⟨"A (line 2)", .classes, 0, none, if below then unlabelled else []⟩
  ⟨⟨.classes, none, 0, [item]⟩ :: if below then [] else unlabelled⟩

/-- An empty row tells by its indentation alone where it belongs.

**Proof sketch.** Both outlines are legible, heading by heading. Their sketches differ, so what is
written differs. -/
theorem render_eq_iff_lookalike :
    (lookalike true).Legible ∧ (lookalike false).Legible
      ∧ (lookalike true).render ≠ (lookalike false).render := by
  have hlegible : ∀ below, (lookalike below).Legible := by
    intro below
    have hclass : OneLine "class" := ⟨by decide, by decide⟩
    have hempty : OneLine "" := ⟨by decide, by decide⟩
    have hname : OneLine "A (line 2)" := ⟨by decide, by decide⟩
    have hlone : Sketch.Legible (.item "A (line 2)" 0 []) :=
      .item (by decide) hname (List.forall_mem_nil _) (List.forall_mem_nil _)
    have hholder : Sketch.Legible (.item "A (line 2)" 0 [("", [])]) :=
      .item (by decide) hname (List.forall_mem_singleton.2 hempty)
        (List.forall_mem_singleton.2 (List.forall_mem_nil _))
    cases below with
    | false =>
      have hsketch : (lookalike false).sketch
          = [("class", [.item "A (line 2)" 0 []]), ("", [])] := rfl
      constructor
      · rw [hsketch]
        exact List.forall_mem_cons.2 ⟨hclass, List.forall_mem_singleton.2 hempty⟩
      · rw [hsketch]
        exact List.forall_mem_cons.2 ⟨List.forall_mem_singleton.2 hlone,
          List.forall_mem_singleton.2 (List.forall_mem_nil _)⟩
    | true =>
      have hsketch : (lookalike true).sketch
          = [("class", [.item "A (line 2)" 0 [("", [])]])] := rfl
      constructor
      · rw [hsketch]
        exact List.forall_mem_singleton.2 hclass
      · rw [hsketch]
        exact List.forall_mem_singleton.2 (List.forall_mem_singleton.2 hholder)
  refine ⟨hlegible true, hlegible false, fun h => ?_⟩
  have hsketch := (render_eq_iff (hlegible true) (hlegible false)).1 h
  simp [lookalike, sketch, Node.sketchGroups, Node.sketchItems, Node.sketch] at hsketch

end Outline

end Outliner
