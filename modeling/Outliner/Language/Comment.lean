import Outliner.Text.Word

set_option autoImplicit false

/-!
# Comments of a language

Which tokens begin a comment that runs to the end of the line, and which tokens enclose a comment
that may run over several lines. A token without characters marks nothing.

## Main definitions

* `Outliner.CommentStyle` — the comment tokens.
* `Outliner.CommentStyle.isLineComment` — whether a text is a comment to its end.
-/

namespace Outliner

/-- The comment tokens of a language. -/
structure CommentStyle where
  /-- The tokens that begin a comment running to the end of the line. -/
  line : List String := []
  /-- The tokens around a comment that may run over several lines. -/
  block : Option (String × String) := none
deriving DecidableEq, Repr

namespace CommentStyle

/-- Whether a token for line comments is set. -/
def hasLine (style : CommentStyle) : Bool := style.line.any (!·.isEmpty)

/-- Whether both tokens for block comments are set. -/
def hasBlock (style : CommentStyle) : Bool :=
  style.block.any fun (opening, closing) => !opening.isEmpty && !closing.isEmpty

/-- Whether the text, whose leading blanks are removed already, is a line comment. -/
def isLineComment (style : CommentStyle) (text : List Char) : Bool :=
  style.line.any fun token => !token.isEmpty && startsWith token.toList text

end CommentStyle

end Outliner
