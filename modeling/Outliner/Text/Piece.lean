set_option autoImplicit false

/-!
# Pieces of a text between separators

A text is cut at each of its separators, so that it has one piece more than separators. A piece may
be empty: two separators in a row have an empty piece between them.

## Main definitions

* `Outliner.pieces` — the pieces of a text.

## Main results

* `Outliner.pieces_of_none` — a text without separators is one piece.
* `Outliner.pieces_append_cons` — the pieces on the two sides of a separator do not depend on each
  other.
-/

namespace Outliner

/-- The pieces of the text between the characters that separate. -/
def pieces (separates : Char → Bool) : List Char → List (List Char)
  | [] => [[]]
  | c :: text =>
    if separates c then [] :: pieces separates text
    else
      match pieces separates text with
      | [] => [[c]]
      | piece :: further => (c :: piece) :: further

variable {separates : Char → Bool}

/-- Every text has a piece, if only an empty one. -/
theorem pieces_ne_nil (text : List Char) : pieces separates text ≠ [] := by
  cases text with
  | nil => simp [pieces]
  | cons c text =>
    rw [pieces]
    split
    · simp
    · split <;> simp

/-- A text without separators is one piece. -/
theorem pieces_of_none {text : List Char} (h : ∀ c ∈ text, separates c = false) :
    pieces separates text = [text] := by
  induction text with
  | nil => rfl
  | cons c text ih =>
    have further := ih fun d member => h d (List.mem_cons_of_mem c member)
    simp [pieces, h c List.mem_cons_self, further]

/-- The pieces on the two sides of a separator do not depend on each other. -/
theorem pieces_append_cons (before : List Char) {c : Char} (h : separates c = true)
    (after : List Char) :
    pieces separates (before ++ c :: after)
      = pieces separates before ++ pieces separates after := by
  induction before with
  | nil => simp [pieces, h]
  | cons d before ih =>
    by_cases separator : separates d = true
    · simp [pieces, separator, ih]
    · have some : pieces separates before ≠ [] := pieces_ne_nil before
      obtain ⟨piece, further, eq⟩ := List.exists_cons_of_ne_nil some
      simp [pieces, separator, ih, eq]

end Outliner
