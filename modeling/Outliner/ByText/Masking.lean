set_option autoImplicit false

/-!
# Masking comments and literals

Before a text is searched for patterns, its comments and the contents of its literals are blanked
out. Every character keeps its place and every line its end, so places and lines found in the masked
text are those of the text itself. The quotes around a literal stay; a literal that is not closed
ends with its line.

## Main definitions

* `Outliner.Masking.Region` — what a character is part of.
* `Outliner.Masking.mask` — the masked text.

## Main results

* `Outliner.Masking.length_mask` — masking keeps every character's place.
-/

namespace Outliner.Masking

/-- What a character is part of. -/
inductive Region where
  /-- Code. -/
  | code
  /-- A comment that ends with its line. -/
  | lineComment
  /-- A comment that ends with its closing token. -/
  | blockComment
  /-- A literal in these quotes. -/
  | literal (quote : Char)
deriving DecidableEq, Repr

/-- What is left of a masked character: the end of a line. -/
def blanked (c : Char) : Char := if c = '\n' then '\n' else ' '

/-- The text with comments and literals masked, beginning in a region. -/
def maskFrom : Region → List Char → List Char
  | _, [] => []
  | .code, '/' :: '/' :: text => ' ' :: ' ' :: maskFrom .lineComment text
  | .code, '/' :: '*' :: text => ' ' :: ' ' :: maskFrom .blockComment text
  | .code, c :: text => c :: maskFrom (if c = '"' ∨ c = '\'' then .literal c else .code) text
  | .lineComment, c :: text => blanked c :: maskFrom (if c = '\n' then .code else .lineComment) text
  | .blockComment, '*' :: '/' :: text => ' ' :: ' ' :: maskFrom .code text
  | .blockComment, c :: text => blanked c :: maskFrom .blockComment text
  | .literal _, ['\\'] => [' ']
  | .literal quote, '\\' :: c :: text => ' ' :: blanked c :: maskFrom (.literal quote) text
  | .literal quote, c :: text =>
    if c = '\n' ∨ c = quote then c :: maskFrom .code text else ' ' :: maskFrom (.literal quote) text

/-- The text with comments and literals masked. -/
def mask (text : List Char) : List Char := maskFrom .code text

/-- Masking replaces each character by one, whatever the region. -/
theorem length_maskFrom (region : Region) (text : List Char) :
    (maskFrom region text).length = text.length := by
  fun_induction maskFrom region text <;> simp_all

/-- A masked text is as long as the text. -/
theorem length_mask (text : List Char) : (mask text).length = text.length :=
  length_maskFrom .code text

end Outliner.Masking
