import Outliner.Proofs.Reading

set_option autoImplicit false

/-!
# Names that are not empty

Readers cut names out of lines in many ways, and most of them look at what they have cut before they
report it. Here stands what the ways of cutting have in common.

## Main definitions

* `Outliner.Report.HasName` — the element has a name.

## Main results

* `Outliner.Report.hasName_ofList` — a name of some characters is a name.
* `Outliner.isIdentifier_ne_nil`, `Outliner.takeWhile_ne_nil` — words that have some characters.
-/

namespace Outliner

/-- The element has a name. -/
def Report.HasName (r : Report) : Prop := r.tag.name ≠ ""

/-- A name with characters is not empty. -/
lemma ofList_ne_empty {name : List Char} (h : name ≠ []) : String.ofList name ≠ "" := by
  intro hempty
  have hchars := congrArg String.toList hempty
  rw [String.toList_ofList] at hchars
  exact h hchars

/-- An element without members has a name if its name has some characters. -/
lemma Report.hasName_ofList {group kind : Kind} {line : Nat} {name : List Char} (h : name ≠ []) :
    HasName ⟨group, { name := .ofList name, line := line, kind := kind }⟩ :=
  ofList_ne_empty h

/-- What is not empty has characters. -/
lemma ne_nil_of_isEmpty {text : List Char} (h : ¬text.isEmpty = true) : text ≠ [] := by
  rintro rfl
  exact h rfl

/-- An identifier has characters. -/
lemma isIdentifier_ne_nil {name : List Char} (h : isIdentifier name = true) : name ≠ [] := by
  rintro rfl
  exact absurd h (by decide)

/-- A run of characters of a class is not empty where one of them stands. -/
lemma takeWhile_ne_nil {p : Char → Bool} {c : Char} {text : List Char} (h : p c = true) :
    (c :: text).takeWhile p ≠ [] := by
  rw [List.takeWhile_cons_of_pos h]
  exact List.cons_ne_nil _ _

namespace Cursor

/-- The next character is the first of the rest. -/
lemma after_of_peek? {c : Cursor} {ch : Char} (h : c.peek? = some ch) :
    ∃ text, c.after = ch :: text := by
  obtain ⟨before, after⟩ := c
  cases after with
  | nil => exact absurd h (by simp [peek?])
  | cons d text =>
    obtain rfl := Option.some.inj h
    exact ⟨text, rfl⟩

/-- A run at a cursor is not empty where the next character belongs to it. -/
lemma span_ne_nil {p : Char → Bool} {c : Cursor} {ch : Char} (h : c.peek? = some ch)
    (hp : p ch = true) : (c.span p).1 ≠ [] := by
  obtain ⟨text, htext⟩ := after_of_peek? h
  rw [span, htext]
  exact takeWhile_ne_nil hp

end Cursor

end Outliner
