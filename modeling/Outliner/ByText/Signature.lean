import Outliner.ByText.Definition

set_option autoImplicit false

/-!
# Signatures of functions with a body

A signature is a return type, a name, parameters in parentheses, perhaps some of the words `const`,
`noexcept` and `override` in this order, and the opening brace of a body. Blanks, stars and
ampersands may stand between the type and the name, and blanks between all other parts. Parameters
may hold parentheses, but none within these.

Type and name together are a run of characters that ends just before the parameters: the name is the
last word of the run, and what precedes it has to be a type of at least two characters that ends in
a blank, a star or an ampersand. Signatures are searched for from left to right, each after the
opening brace of the one before it.

## Main definitions

* `Outliner.Signature` — a signature and the place of its name.
* `Outliner.Signature.all` — the signatures in a text.
-/

namespace Outliner

/-- The signature of a function with a body. -/
structure Signature where
  /-- The name, perhaps qualified. -/
  name : List Char
  /-- The place of the name. -/
  place : Nat
deriving DecidableEq, Repr

namespace Signature

/-- Whether the character may stand in the name of a function. -/
def isNameChar (c : Char) : Bool := isAsciiNameChar c || c == ':' || c == '~'

/-- Whether the character may begin the name of a function. -/
def beginsName (c : Char) : Bool := beginsAsciiName c || c == '~'

/-- Whether the character may stand between a type and a name. -/
def isJoint (c : Char) : Bool := isSpacing c || c == '*' || c == '&'

/-- Whether the character may stand in a type or a name or between them. -/
def isHeadChar (c : Char) : Bool := isNameChar c || isJoint c || c == '<' || c == '>'

/-- The name at the end of a run of type and name, and the number of characters before it, if the
run is one. -/
def nameIn? (run : List Char) : Option (List Char × Nat) :=
  let backwards := run.reverse.dropWhile isSpacing
  let name := (backwards.takeWhile isNameChar).reverse
  let type := backwards.dropWhile isNameChar
  if name.head?.any beginsName && type.head?.any isJoint
      && 2 ≤ (type.reverse.dropWhile isSpacing).length then
    some (name, type.length)
  else none

/-- What follows the parameters whose opening parenthesis is consumed. `nested` says whether
parentheses are open within them. -/
def afterParameters? : Bool → List Char → Option (List Char)
  | _, [] => none
  | nested, c :: text =>
    if c = ')' then if nested then afterParameters? false text else some text
    else if c = '(' then if nested then none else afterParameters? true text
    else afterParameters? nested text

/-- The text after the word and the blanks after it, or the text itself if it does not begin with
the word. -/
def skipWord (word : String) (text : List Char) : List Char :=
  match after? word.toList text with
  | some rest => rest.dropWhile isSpacing
  | none => text

/-- What follows the opening brace of the body, given the text after the opening parenthesis. -/
def afterBrace? (text : List Char) : Option (List Char) :=
  (afterParameters? false text).bind fun rest =>
    after? ['\x7b'] <|
      skipWord "override" <| skipWord "noexcept" <| skipWord "const" <| rest.dropWhile isSpacing

/-- Behind a list of parameters no more is left than before. -/
theorem length_afterParameters?_le {nested : Bool} {text rest : List Char}
    (h : afterParameters? nested text = some rest) : rest.length ≤ text.length := by
  induction text generalizing nested with
  | nil => simp [afterParameters?] at h
  | cons c text ih =>
    simp only [afterParameters?] at h
    split at h
    · split at h
      · exact Nat.le_succ_of_le (ih h)
      · simp_all
    · split at h
      · split at h
        · simp at h
        · exact Nat.le_succ_of_le (ih h)
      · exact Nat.le_succ_of_le (ih h)

/-- Behind a word no more is left than before. -/
theorem length_skipWord_le (word : String) (text : List Char) :
    (skipWord word text).length ≤ text.length := by
  unfold skipWord
  split
  · next rest h =>
    have := length_dropWhile_le isSpacing rest
    rw [after?_eq_some_iff.1 h, List.length_append]
    omega
  · exact Nat.le_refl _

/-- Behind an opening brace no more is left than before. -/
theorem length_afterBrace?_le {text rest : List Char} (h : afterBrace? text = some rest) :
    rest.length ≤ text.length := by
  simp only [afterBrace?, Option.bind_eq_some_iff, after?_eq_some_iff] at h
  obtain ⟨middle, closed, opened⟩ := h
  have inParameters := length_afterParameters?_le closed
  have inBlanks := length_dropWhile_le isSpacing middle
  have inConst := length_skipWord_le "const" (middle.dropWhile isSpacing)
  have inNoexcept := length_skipWord_le "noexcept" (skipWord "const" (middle.dropWhile isSpacing))
  have inOverride :=
    length_skipWord_le "override"
      (skipWord "noexcept" (skipWord "const" (middle.dropWhile isSpacing)))
  have size := congrArg List.length opened
  simp only [List.length_append, List.length_cons, List.length_nil] at size
  omega

/-- Reads what follows a run. Gives the name in the run and the number of characters before it, if
they are a signature, and the text to go on with: after the opening brace of the body, or else after
the character that follows the run. -/
def readAfter (run : List Char) : List Char → Option (List Char × Nat) × List Char
  | [] => (none, [])
  | c :: text =>
    let found :=
      if c = '(' then (nameIn? run).bind fun name => (afterBrace? text).map (name, ·) else none
    match found with
    | some (name, body) => (some name, body)
    | none => (none, text)

/-- Reads the run at the front of the text and what follows it. -/
def readFront (text : List Char) : Option (List Char × Nat) × List Char :=
  readAfter (text.takeWhile isHeadChar) (text.dropWhile isHeadChar)

/-- Reading on behind a name takes at least one character. -/
theorem length_readAfter_le (run text : List Char) :
    (readAfter run text).2.length ≤ text.length - 1 := by
  cases text with
  | nil => simp [readAfter]
  | cons c text =>
    simp only [readAfter]
    split
    · next name body found =>
      split at found
      · simp only [Option.bind_eq_some_iff, Option.map_eq_some_iff, Prod.mk.injEq] at found
        obtain ⟨_, -, _, closed, -, rfl⟩ := found
        simpa using length_afterBrace?_le closed
      · simp at found
    · simp

/-- Reading at the front of a text takes at least one character. -/
theorem length_readFront_lt {text : List Char} (h : text ≠ []) :
    (readFront text).2.length < text.length := by
  have positive : 0 < text.length := List.length_pos_iff.2 h
  have inRun := length_dropWhile_le isHeadChar text
  have inRest := length_readAfter_le (text.takeWhile isHeadChar) (text.dropWhile isHeadChar)
  unfold readFront
  omega

/-- The signatures in the text, which is at the given place. -/
def allFrom (place : Nat) : List Char → List Signature
  | [] => []
  | c :: text =>
    let front := readFront (c :: text)
    (front.1.map fun (name, before) => ⟨name, place + before⟩).toList
      ++ allFrom (place + ((c :: text).length - front.2.length)) front.2
termination_by text => text.length
decreasing_by exact length_readFront_lt (List.cons_ne_nil c text)

/-- There are no signatures in the empty text. -/
theorem allFrom_nil (place : Nat) : allFrom place [] = [] := by
  rw [allFrom.eq_def]

/-- The signatures of a text are the one at its front, if there is one, and those of what is left.
-/
theorem allFrom_cons (place : Nat) (c : Char) (text : List Char) :
    allFrom place (c :: text) =
      ((readFront (c :: text)).1.map fun (name, before) => (⟨name, place + before⟩ : Signature)).toList
        ++ allFrom (place + ((c :: text).length - (readFront (c :: text)).2.length))
          (readFront (c :: text)).2 := by
  rw [allFrom.eq_def]

/-- The signatures in a text. -/
def all (text : List Char) : List Signature := allFrom 0 text

end Signature

end Outliner
