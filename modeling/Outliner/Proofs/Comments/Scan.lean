import Mathlib.Tactic.Lemma
import Outliner.Scan
import Outliner.Proofs.StyleSheet.Comments
import Outliner.Proofs.Verilog.Tokens

set_option autoImplicit false

/-!
# Block comments are opaque

In style sheets and in Verilog sources a block comment may be opened wherever there is code: between
two items, in the middle of a selector list, in a block, in a unit, in the body of a routine. What
stands in it makes no difference to the document, as long as it goes over as many lines as before.

## Main definitions

* `Outliner.Language.lexicon?` — what comments and literals look like.

## Main results

* `Outliner.Language.scan_comment` — the interior of a block comment makes no difference.
-/

namespace Outliner.Language

/-- What comments and literals look like, in the languages whose readers tell them apart character
by character. -/
def lexicon? : Language → Option Lexicon
  | css | ess => some StyleSheet.lexicon
  | verilog | systemVerilog => some Verilog.lexicon
  | _ => none

section Comments

variable {language : Language} {x : Lexicon} {lines interior interior' rest : List (List Char)}
  {text : List Char}

/-- **The interior of a block comment makes no difference to the marks.**

**Proof sketch.** For each of the languages with block comments what is read on the page is the
same: the selectors of a style sheet (`StyleSheet.selectors_comment`), the marks of a Verilog source
(`Verilog.marks_comment`). -/
lemma marks_comment (hlanguage : language.lexicon? = some x) (hopens : x.OpensComment lines text)
    (hlength : interior.length = interior'.length)
    (hinterior : ∀ text ∈ interior, ¬ "*/".toList <:+: text)
    (hinterior' : ∀ text ∈ interior', ¬ "*/".toList <:+: text)
    (hrest : CommentReader.ClosesComment rest) :
    language.marks (lines ++ spliceLines [text ++ "/*".toList] (spliceLines interior rest))
      = language.marks
        (lines ++ spliceLines [text ++ "/*".toList] (spliceLines interior' rest)) := by
  cases language with
  | css =>
    obtain rfl := Option.some.inj hlanguage
    simp only [marks, StyleSheet.marks,
      StyleSheet.selectors_comment hopens hlength hinterior hinterior' hrest]
  | ess =>
    obtain rfl := Option.some.inj hlanguage
    simp only [marks, StyleSheet.styleMarks,
      StyleSheet.selectors_comment hopens hlength hinterior hinterior' hrest]
  | verilog | systemVerilog =>
    obtain rfl := Option.some.inj hlanguage
    exact Verilog.marks_comment hopens hlength hinterior hinterior' hrest
  | _ => cases hlanguage

/-- **Block comments are opaque.** Behind some lines and the beginning of a line, in code, a block
comment is opened. Any interior of as many lines, in which no `*/` stands, gives the same document,
whether the comment is closed behind it, on the same line or on a later one, or never. -/
theorem scan_comment (hlanguage : language.lexicon? = some x)
    (hopens : x.OpensComment lines text) (hlength : interior.length = interior'.length)
    (hinterior : ∀ text ∈ interior, ¬ "*/".toList <:+: text)
    (hinterior' : ∀ text ∈ interior', ¬ "*/".toList <:+: text)
    (hrest : CommentReader.ClosesComment rest) :
    language.scan ((lines ++ spliceLines [text ++ "/*".toList] (spliceLines interior rest)).map
        String.ofList)
      = language.scan ((lines ++ spliceLines [text ++ "/*".toList] (spliceLines interior' rest)).map
        String.ofList) := by
  have htext : ∀ lines : List (List Char), (lines.map String.ofList).map String.toList = lines :=
    fun lines => by simp [List.map_map, Function.comp_def]
  simp only [scan, htext, marks_comment hlanguage hopens hlength hinterior hinterior' hrest]

end Comments

/-- A comment over two lines in the middle of a selector list says a rule of its own, or something
that is none. -/
theorem scan_comment_selectors :
    let lines := ["h1 \x7b\x7d".toList]
    let interior := [" li \x7b\x7d".toList, "@media \x7b'".toList]
    let interior' := [" '//\"".toList, "/**".toList]
    let rest := ["*/ ol \x7b\x7d".toList]
    StyleSheet.lexicon.OpensComment lines "ul, ".toList
      ∧ (lines ++ spliceLines ["ul, ".toList ++ "/*".toList] (spliceLines interior rest)).map
          String.ofList = ["h1 \x7b\x7d", "ul, /* li \x7b\x7d", "@media \x7b'*/ ol \x7b\x7d"]
      ∧ Language.css.scan ((lines ++ spliceLines ["ul, ".toList ++ "/*".toList]
          (spliceLines interior rest)).map String.ofList)
        = Language.css.scan ((lines ++ spliceLines ["ul, ".toList ++ "/*".toList]
          (spliceLines interior' rest)).map String.ofList) := by
  intro lines interior interior' rest
  have hopens : StyleSheet.lexicon.OpensComment lines "ul, ".toList := by decide
  exact ⟨hopens, by decide, scan_comment rfl hopens rfl (by decide) (by decide)
    (.inr ⟨" ol \x7b\x7d".toList, [], rfl⟩)⟩

end Outliner.Language
