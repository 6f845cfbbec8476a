import Mathlib.Tactic.Lemma
import Outliner.ByCharacter.StyleSheet
import Outliner.Proofs.Checked.ByCharacter
import Outliner.Proofs.Passage

set_option autoImplicit false

/-!
# The parts of a selector

The names that a selector uses stand outside the values of its attributes and outside the arguments
of its pseudo-classes. Which part of a selector a character belongs to can be told by following the
characters one by one: a value goes as far as the next closing bracket, and arguments as far as the
parenthesis that closes them. What values and arguments say makes no difference to the names.

## Main definitions

* `Outliner.StyleSheet.Part`, `Outliner.StyleSheet.Part.next` — the part of a selector that a
  character belongs to, and the part that the next one belongs to.
* `Outliner.StyleSheet.outside` — a selector whose values and arguments are overwritten.
* `Outliner.StyleSheet.PassedOver` — two selectors differ only in values and arguments.

## Main results

* `Outliner.StyleSheet.names_outside` — no name is taken from a value or from arguments.
* `Outliner.StyleSheet.names_eq_of_passedOver` — selectors that differ only there use the same
  names.
-/

namespace Outliner.StyleSheet

/-! ## Parts -/

/-- The part of a selector that the next character belongs to. -/
inductive Part where
  /-- Neither a value nor arguments. -/
  | plain
  /-- The name of a pseudo-class or pseudo-element, perhaps directly after its first colon. -/
  | pseudo (fresh : Bool)
  /-- The brackets of an attribute and its value. -/
  | value
  /-- The arguments of a pseudo-class, in some inner parentheses. -/
  | arguments (inner : Nat)
deriving DecidableEq, Repr

/-- The part behind a character that stands in no other part. -/
def Part.behind (c : Char) : Part :=
  if c = ':' then .pseudo true else if c = '[' then .value else .plain

/-- The part behind a character. -/
def Part.next : Part → Char → Part
  | .plain, c => behind c
  | .pseudo fresh, c =>
    if (fresh && c == ':') || isNameChar c then .pseudo false
    else if c = '(' then .arguments 0
    else behind c
  | .value, c => if c = ']' then .plain else .value
  | .arguments inner, c =>
    if c = '(' then .arguments (inner + 1)
    else if c = ')' then
      match inner with
      | 0 => .plain
      | inner + 1 => .arguments inner
    else .arguments inner

/-- Whether the character is passed over in the part: it belongs to a value or to arguments, and it
does not end them. -/
def Part.hides : Part → Char → Bool
  | .value, c => c != ']'
  | .arguments _, c => c != '(' && c != ')'
  | _, _ => false

/-- The text with what is passed over overwritten by blanks. -/
def outside : Part → List Char → List Char
  | _, [] => []
  | p, c :: text => (if p.hides c then ' ' else c) :: outside (p.next c) text

/-- The texts differ only in characters that are passed over. -/
def PassedOver : Part → List Char → List Char → Prop
  | _, [], [] => True
  | p, c :: a, d :: b => (c = d ∨ p.hides c ∧ p.hides d) ∧ PassedOver (p.next c) a b
  | _, _, _ => False

instance decidablePassedOver : ∀ (p : Part) (a b : List Char), Decidable (PassedOver p a b)
  | _, [], [] => .isTrue trivial
  | p, c :: a, d :: b =>
    have := decidablePassedOver (p.next c) a b
    inferInstanceAs (Decidable ((c = d ∨ p.hides c ∧ p.hides d) ∧ PassedOver (p.next c) a b))
  | _, [], _ :: _ => .isFalse id
  | _, _ :: _, [] => .isFalse id

section Parts

variable {p : Part} {c d : Char} {a b text word rest : List Char} {fresh : Bool}

/-- Characters that are passed over lead to the same part. -/
lemma Part.next_of_hides (hc : p.hides c = true) (hd : p.hides d = true) : p.next c = p.next d := by
  cases p with
  | value =>
    simp only [hides, bne_iff_ne] at hc hd
    simp only [next, hc, hd, if_false]
  | arguments inner =>
    simp only [hides, Bool.and_eq_true, bne_iff_ne] at hc hd
    simp only [next, hc, hd, if_false]
  | _ => cases hc

/-- Texts that differ only in what is passed over are the same outside. -/
lemma outside_eq_of_passedOver (h : PassedOver p a b) : outside p a = outside p b := by
  induction a generalizing p b with
  | nil =>
    cases b with
    | nil => rfl
    | cons d b => cases h
  | cons c a ih =>
    cases b with
    | nil => cases h
    | cons d b =>
      obtain ⟨rfl | ⟨hc, hd⟩, hrest⟩ := h
      · rw [outside, outside, ih hrest]
      · rw [outside, outside, if_pos hc, if_pos hd, ih hrest, Part.next_of_hides hc hd]

/-! ## Plain text -/

/-- A character outside the parts stays. -/
lemma outside_plain (h : Part.behind c = .plain) (text : List Char) :
    outside .plain (c :: text) = c :: outside .plain text := by
  rw [outside, Part.next, h]
  rfl

/-- A character of a name begins no other part. -/
lemma behind_of_isNameChar (h : isNameChar c = true) : Part.behind c = .plain := by
  have hsigns : [':', '['].any isNameChar = false := by decide
  have hnot : c ∉ [':', '['] := fun hmem => List.any_eq_false.1 hsigns c hmem h
  simp only [List.mem_cons, List.not_mem_nil, or_false, not_or] at hnot
  rw [Part.behind, if_neg hnot.1, if_neg hnot.2]

/-- Names stay as they are. -/
lemma outside_name (hword : word.all isNameChar = true) (rest : List Char) :
    outside .plain (word ++ rest) = word ++ outside .plain rest := by
  induction word with
  | nil => rfl
  | cons c word ih =>
    rw [List.all_cons, Bool.and_eq_true] at hword
    rw [List.cons_append, outside_plain (behind_of_isNameChar hword.1), ih hword.2]
    rfl

/-- Outside values and arguments the first character stays as it is. -/
lemma head?_outside (h : p.hides = fun _ => false) (text : List Char) :
    (outside p text).head? = text.head? := by
  cases text with
  | nil => rfl
  | cons c text => rw [outside, h]; rfl

/-- A text is the characters of a name in front of it and what follows them. -/
lemma exists_name (text : List Char) :
    ∃ word rest, text = word ++ rest ∧ word.all isNameChar = true
      ∧ rest.head?.any isNameChar = false :=
  ⟨text.takeWhile isNameChar, text.dropWhile isNameChar, List.takeWhile_append_dropWhile.symm,
    List.all_takeWhile, head?_any_dropWhile isNameChar text⟩

/-- **The name in front of a text is the same outside**, and so is what follows it. -/
lemma span_outside (before before' text : List Char) :
    ((⟨before', outside .plain text⟩ : Cursor).span isNameChar).1
        = ((⟨before, text⟩ : Cursor).span isNameChar).1
      ∧ ((⟨before', outside .plain text⟩ : Cursor).span isNameChar).2.after
        = outside .plain ((⟨before, text⟩ : Cursor).span isNameChar).2.after := by
  obtain ⟨word, rest, rfl, hword, hrest⟩ := exists_name text
  have hrest' : (outside .plain rest).head?.any isNameChar = false := by
    rw [head?_outside rfl, hrest]
  rw [outside_name hword, Cursor.span_word hword hrest, Cursor.span_word hword hrest']
  exact ⟨rfl, rfl⟩

/-! ## Values and arguments -/

/-- The bracket is one character further away behind any other character. -/
lemma offset?_bracket (c : Char) (text : List Char) : offset? [']'] (c :: text)
    = if c = ']' then some 0 else (offset? [']'] text).map (· + 1) := by
  by_cases h : c = ']'
  · subst h
    rfl
  · simp [offset?, startsWith, after?, h, Ne.symm h]

/-- A value ends at the same place outside.

**Proof sketch.** Induction on the text. The bracket itself ends the value on both sides, and any
other character is hidden by a space, which is no bracket. -/
lemma offset?_outside_value (text : List Char) :
    offset? [']'] (outside .value text) = offset? [']'] text
      ∧ ∀ n, offset? [']'] text = some n →
        (outside .value text).drop (n + 1) = outside .plain (text.drop (n + 1)) := by
  induction text with
  | nil => exact ⟨rfl, fun n h => by cases h⟩
  | cons c text ih =>
    by_cases h : c = ']'
    · subst h
      refine ⟨?_, fun n hn => ?_⟩
      · rw [outside, offset?_bracket, offset?_bracket]
        rfl
      · rw [offset?_bracket, if_pos rfl] at hn
        obtain rfl := Option.some.inj hn
        rfl
    · have hstays : outside .value (c :: text) = ' ' :: outside .value text := by
        simp [outside, Part.hides, Part.next, h]
      have hspace : ' ' ≠ ']' := by decide
      rw [hstays, offset?_bracket, offset?_bracket, if_neg h, if_neg hspace, ih.1]
      refine ⟨rfl, fun n hn => ?_⟩
      obtain ⟨m, hm, rfl⟩ := Option.map_eq_some_iff.1 hn
      exact ih.2 m hm

/-- Arguments end at the same place outside.

**Proof sketch.** Induction on the text. Parentheses stay and count on both sides; any other
character is hidden by a space, which is no parenthesis. -/
lemma argumentsLength_outside (inner : Nat) (text : List Char) :
    argumentsLength inner (outside (.arguments inner) text) = argumentsLength inner text
      ∧ (outside (.arguments inner) text).drop (argumentsLength inner text)
        = outside .plain (text.drop (argumentsLength inner text)) := by
  induction text generalizing inner with
  | nil => exact ⟨rfl, rfl⟩
  | cons c text ih =>
    by_cases hopen : c = '('
    · subst hopen
      have hinner := ih (inner + 1)
      have hdeeper : outside (.arguments inner) ('(' :: text)
          = '(' :: outside (.arguments (inner + 1)) text := rfl
      have hlength : ∀ t, argumentsLength inner ('(' :: t) = argumentsLength (inner + 1) t + 1 :=
        fun _ => rfl
      rw [hdeeper, hlength, hlength, hinner.1]
      exact ⟨rfl, hinner.2⟩
    by_cases hclose : c = ')'
    · subst hclose
      cases inner with
      | zero => exact ⟨rfl, rfl⟩
      | succ inner =>
        have hinner := ih inner
        have hhigher : outside (.arguments (inner + 1)) (')' :: text)
            = ')' :: outside (.arguments inner) text := rfl
        have hlength : ∀ t, argumentsLength (inner + 1) (')' :: t) = argumentsLength inner t + 1 :=
          fun _ => rfl
        rw [hhigher, hlength, hlength, hinner.1]
        exact ⟨rfl, hinner.2⟩
    -- a character that is hidden counts no more than the space in its place
    · have hstays : outside (.arguments inner) (c :: text)
          = ' ' :: outside (.arguments inner) text := by
        simp [outside, Part.hides, Part.next, hopen, hclose]
      have hlength : ∀ d t, d ≠ '(' → d ≠ ')' →
          argumentsLength inner (d :: t) = argumentsLength inner t + 1 := by
        intro d t hopen hclose
        simp [argumentsLength, hopen, hclose]
      rw [hstays, hlength c text hopen hclose, hlength ' ' _ (by decide) (by decide), (ih inner).1]
      exact ⟨rfl, (ih inner).2⟩

/-! ## Pseudo-classes -/

/-- Where no name, no colon and no parenthesis goes on, a pseudo-class is at its end.

**Proof sketch.** The first character ends the pseudo-class, and what stands behind it is outside.
-/
lemma outside_pseudo (hname : text.head?.any isNameChar = false) (hcolon : fresh = true →
    text.head? ≠ some ':') (hopen : text.head? ≠ some '(') :
    outside (.pseudo fresh) text = outside .plain text := by
  cases text with
  | nil => rfl
  | cons c text =>
    have hname : isNameChar c = false := hname
    have hopen : c ≠ '(' := fun h => hopen (congrArg some h)
    have hcolon : (fresh && c == ':') = false := by
      cases fresh with
      | false => rfl
      | true => exact beq_false_of_ne fun h => hcolon rfl (congrArg some h)
    have hnext : (Part.pseudo fresh).next c = Part.plain.next c := by
      simp only [Part.next, hcolon, hname, hopen]
      rfl
    rw [outside, outside, hnext]
    rfl

/-- The name of a pseudo-class stays as it is. -/
lemma outside_pseudo_name (fresh : Bool) (hword : word.all isNameChar = true) (rest : List Char) :
    ∃ later, (later = true → fresh = true ∧ word = [])
      ∧ outside (.pseudo fresh) (word ++ rest) = word ++ outside (.pseudo later) rest := by
  induction word generalizing fresh with
  | nil => exact ⟨fresh, fun h => ⟨h, rfl⟩, rfl⟩
  | cons c word ih =>
    rw [List.all_cons, Bool.and_eq_true] at hword
    obtain ⟨later, hlater, hrest⟩ := ih false hword.2
    have hnext : (Part.pseudo fresh).next c = .pseudo false := by
      simp only [Part.next, hword.1, Bool.or_true, if_true]
    refine ⟨later, fun h => absurd (hlater h).1 Bool.false_ne_true, ?_⟩
    rw [List.cons_append, outside, hnext, hrest]
    rfl

/-- What follows the name of a pseudo-class, behind its arguments if it has some. -/
def behindArguments : List Char → List Char
  | '(' :: inside => inside.drop (argumentsLength 0 inside)
  | rest => rest

/-- Without a parenthesis there are no arguments. -/
lemma behindArguments_of_ne (h : text.head? ≠ some '(') : behindArguments text = text := by
  cases text with
  | nil => rfl
  | cons c text =>
    unfold behindArguments
    split
    · next heq =>
      obtain ⟨rfl, -⟩ := List.cons_eq_cons.1 heq
      exact absurd rfl h
    · rfl

/-- A sign is eaten where it comes next, and nowhere else. -/
lemma eat?_sign (sign : Char) (before text : List Char) :
    (⟨before, sign :: text⟩ : Cursor).eat? [sign] = some ⟨sign :: before, text⟩ := by
  have hstarts : (⟨before, sign :: text⟩ : Cursor).startsWith [sign] = true :=
    startsWith_iff.2 ⟨text, rfl⟩
  rw [Cursor.eat?, if_pos hstarts]
  rfl

/-- A sign that does not come next is not eaten. -/
lemma eat?_of_head?_ne {sign : Char} (h : text.head? ≠ some sign) (before : List Char) :
    (⟨before, text⟩ : Cursor).eat? [sign] = none := by
  refine if_neg fun hstarts => h ?_
  obtain ⟨tail, htail⟩ := startsWith_iff.1 hstarts
  exact List.head?_eq_some_iff.2 ⟨tail, htail⟩

/-- A second colon, if there is one, the name and the arguments are passed over.

**Proof sketch.** The cursor goes over the second colon, if it comes next, and over the name, and
then over the arguments if a parenthesis comes next. -/
lemma after_skipPseudo (sign : Char) (before : List Char) {colon : List Char}
    (hcolon : colon = [':'] ∨ colon = [] ∧ (word ++ rest).head? ≠ some ':')
    (hword : word.all isNameChar = true) (hrest : rest.head?.any isNameChar = false) :
    (skipPseudo ⟨before, sign :: (colon ++ (word ++ rest))⟩).after = behindArguments rest := by
  have hnext : (⟨before, sign :: (colon ++ (word ++ rest))⟩ : Cursor).next
      = ⟨sign :: before, colon ++ (word ++ rest)⟩ := rfl
  have hname : ∃ before', ((⟨sign :: before, colon ++ (word ++ rest)⟩ : Cursor).eat
      [':']).skipWhile isNameChar = ⟨before', rest⟩ := by
    obtain rfl | ⟨rfl, hnot⟩ := hcolon
    · refine ⟨word.reverse ++ (':' :: sign :: before), ?_⟩
      rw [List.singleton_append, Cursor.eat, eat?_sign, Option.getD_some, Cursor.skipWhile,
        Cursor.span_word hword hrest]
    · refine ⟨word.reverse ++ (sign :: before), ?_⟩
      rw [List.nil_append, Cursor.eat, eat?_of_head?_ne hnot, Option.getD_none, Cursor.skipWhile,
        Cursor.span_word hword hrest]
  obtain ⟨before', hname⟩ := hname
  by_cases hopen : rest.head? = some '('
  · obtain ⟨inside, rfl⟩ := List.head?_eq_some_iff.1 hopen
    simp only [skipPseudo, hnext, hname, eat?_sign]
    rfl
  · simp only [skipPseudo, hnext, hname, eat?_of_head?_ne hopen, behindArguments_of_ne hopen]

/-- Behind the name of a pseudo-class there are its arguments, or none. -/
lemma behindArguments_outside (hname : rest.head?.any isNameChar = false)
    (hcolon : fresh = true → rest.head? ≠ some ':') :
    behindArguments (outside (.pseudo fresh) rest) = outside .plain (behindArguments rest) := by
  by_cases hopen : rest.head? = some '('
  · obtain ⟨inside, rfl⟩ := List.head?_eq_some_iff.1 hopen
    have hinside : outside (.pseudo fresh) ('(' :: inside)
        = '(' :: outside (.arguments 0) inside := by
      cases fresh <;> rfl
    obtain ⟨hlength, hdrop⟩ := argumentsLength_outside 0 inside
    rw [hinside, behindArguments, behindArguments, hlength, hdrop]
  · rw [outside_pseudo hname hcolon hopen, behindArguments_of_ne hopen, behindArguments_of_ne]
    rwa [head?_outside rfl]

/-- **What follows a pseudo-class is the same outside.**

**Proof sketch.** Either a second colon comes next or the name. The name stays on both sides, and so
does what comes first behind it, so the arguments end at the same place (`behindArguments_outside`).
-/
lemma after_skipPseudo_outside (sign : Char) (before before' text : List Char) :
    (skipPseudo ⟨before', sign :: outside (.pseudo true) text⟩).after
      = outside .plain (skipPseudo ⟨before, sign :: text⟩).after := by
  by_cases hcolon : text.head? = some ':'
  -- a second colon
  · obtain ⟨text, rfl⟩ := List.head?_eq_some_iff.1 hcolon
    obtain ⟨word, rest, rfl, hword, hrest⟩ := exists_name text
    obtain ⟨later, hlater, hname⟩ := outside_pseudo_name false hword rest
    have hstays : outside (.pseudo true) (':' :: (word ++ rest))
        = [':'] ++ (word ++ outside (.pseudo later) rest) := by
      rw [← hname]
      rfl
    have hrest' : (outside (.pseudo later) rest).head?.any isNameChar = false := by
      rwa [head?_outside rfl]
    rw [hstays, after_skipPseudo sign before' (.inl rfl) hword hrest',
      behindArguments_outside hrest fun h => absurd (hlater h).1 Bool.false_ne_true]
    have hafter : (skipPseudo ⟨before, sign :: ([':'] ++ (word ++ rest))⟩).after
        = behindArguments rest := after_skipPseudo sign before (.inl rfl) hword hrest
    rw [← hafter]
    rfl
  -- the name
  · obtain ⟨word, rest, rfl, hword, hrest⟩ := exists_name text
    obtain ⟨later, hlater, hname⟩ := outside_pseudo_name true hword rest
    have hrest' : (outside (.pseudo later) rest).head?.any isNameChar = false := by
      rwa [head?_outside rfl]
    have hcolon' : (word ++ outside (.pseudo later) rest).head? ≠ some ':' := by
      rwa [← hname, head?_outside rfl]
    have hbehind : later = true → rest.head? ≠ some ':' := fun h => by
      rwa [(hlater h).2] at hcolon
    rw [hname]
    calc (skipPseudo ⟨before', sign :: ([] ++ (word ++ outside (.pseudo later) rest))⟩).after
        = behindArguments (outside (.pseudo later) rest) :=
          after_skipPseudo sign before' (.inr ⟨rfl, hcolon'⟩) hword hrest'
      _ = outside .plain (behindArguments rest) := behindArguments_outside hrest hbehind
      _ = outside .plain (skipPseudo ⟨before, sign :: ([] ++ (word ++ rest))⟩).after := by
          rw [after_skipPseudo sign before (.inr ⟨rfl, hcolon⟩) hword hrest]

/-! ## Names -/

/-- Behind an attribute the selector goes on, or there is nothing if it is not closed. -/
lemma after_beyond_bracket (before before' : List Char) (sign : Char) (text : List Char)
    (hsign : sign ≠ ']') :
    ((⟨before', sign :: outside .value text⟩ : Cursor).beyond [']']).2.after
      = outside .plain ((⟨before, sign :: text⟩ : Cursor).beyond [']']).2.after := by
  obtain ⟨hoffset, hdrop⟩ := offset?_outside_value text
  unfold Cursor.beyond
  rw [offset?_bracket, offset?_bracket, if_neg hsign, if_neg hsign, hoffset]
  cases hclosed : offset? [']'] text with
  | none =>
    show (sign :: outside .value text).drop (sign :: outside .value text).length
      = outside .plain ((sign :: text).drop (sign :: text).length)
    rw [List.drop_length, List.drop_length]
    rfl
  | some n => exact hdrop n hclosed

/-- **A step along a selector finds the same outside**, and goes on outside.

**Proof sketch.** By the character. A pseudo-class and a value are skipped to the same place on both
sides. A class, an identifier and a tag are read off a name, which stays. All other characters are
passed over. -/
lemma nameStep_outside (before before' : List Char) (c : Char) (text : List Char) :
    (nameStep () ⟨before', outside .plain (c :: text)⟩ c).found
        = (nameStep () ⟨before, c :: text⟩ c).found
      ∧ (nameStep () ⟨before', outside .plain (c :: text)⟩ c).cursor.after
        = outside .plain (nameStep () ⟨before, c :: text⟩ c).cursor.after := by
  have hhead : outside .plain (c :: text) = c :: outside (Part.behind c) text := rfl
  rw [hhead]
  by_cases hcolon : c = ':'
  · subst hcolon
    exact ⟨rfl, after_skipPseudo_outside ':' before before' text⟩
  by_cases hbracket : c = '['
  · subst hbracket
    exact ⟨rfl, after_beyond_bracket before before' '[' text (by decide)⟩
  have hplain : Part.behind c = .plain := by
    rw [Part.behind, if_neg hcolon, if_neg hbracket]
  rw [hplain]
  by_cases hsign : c = '.' ∨ c = '#'
  · obtain ⟨hname, hafter⟩ := span_outside (c :: before) (c :: before') text
    have hname : ((⟨before', c :: outside .plain text⟩ : Cursor).next.span isNameChar).1
        = ((⟨before, c :: text⟩ : Cursor).next.span isNameChar).1 := hname
    refine ⟨?_, ?_⟩
    · simp only [nameStep, if_pos hsign, hname]
    · simp only [nameStep, if_pos hsign]
      exact hafter
  by_cases hletter : (isAlphabetic c || c == '_') = true
  · obtain ⟨hname, hafter⟩ := span_outside before before' (c :: text)
    rw [outside_plain hplain] at hname hafter
    refine ⟨?_, ?_⟩
    · simp only [nameStep, if_neg hsign, if_neg hcolon, if_neg hbracket, if_pos hletter, hname]
    · simp only [nameStep, if_neg hsign, if_neg hcolon, if_neg hbracket, if_pos hletter]
      exact hafter
  · simp only [nameStep, if_neg hsign, if_neg hcolon, if_neg hbracket, if_neg hletter]
    exact ⟨trivial, rfl⟩

/-- The walk along a selector finds the same outside.

**Proof sketch.** Induction on the number of characters that are left. A step ends outside values
and arguments, since it passes over them as a whole. -/
lemma walk_outside (before before' text : List Char) :
    (Cursor.walk nameStep () ⟨before', outside .plain text⟩).2
      = (Cursor.walk nameStep () ⟨before, text⟩).2 := by
  induction hn : text.length using Nat.strong_induction_on generalizing before before' text with
  | _ length ih =>
    cases text with
    | nil => rw [outside, Cursor.walk_end _ _ rfl, Cursor.walk_end _ _ rfl]
    | cons c text =>
      obtain ⟨hfound, hafter⟩ := nameStep_outside before before' c text
      have hmoves : (nameStep () ⟨before, c :: text⟩ c).cursor.after.length
          < (c :: text).length :=
        Cursor.length_after_of_advances (c := ⟨before, c :: text⟩) rfl (nameStep_runs rfl).advances
      have hmoves' : (nameStep () ⟨before', outside .plain (c :: text)⟩ c).cursor.after.length
          < (outside .plain (c :: text)).length :=
        Cursor.length_after_of_advances (c := ⟨before', outside .plain (c :: text)⟩) rfl
          (nameStep_runs rfl).advances
      have hlater := ih _ (hn ▸ hmoves) (nameStep () ⟨before, c :: text⟩ c).cursor.before
        (nameStep () ⟨before', outside .plain (c :: text)⟩ c).cursor.before _ rfl
      rw [← hafter] at hlater
      have hhead : (⟨before', outside .plain (c :: text)⟩ : Cursor).after
          = c :: outside (Part.behind c) text := rfl
      rw [Cursor.walk_step nameStep () (c := ⟨before, c :: text⟩) rfl hmoves,
        Cursor.walk_step nameStep () hhead hmoves', hfound]
      exact congrArg ((nameStep () ⟨before, c :: text⟩ c).found ++ ·) hlater

/-- **No name is taken from a value or from arguments.** -/
theorem names_outside (text : List Char) : names (outside .plain text) = names text :=
  walk_outside [] [] text

/-- **Selectors that differ only in values and arguments use the same names.** -/
theorem names_eq_of_passedOver (h : PassedOver .plain a b) : names a = names b := by
  rw [← names_outside a, ← names_outside b, outside_eq_of_passedOver h]

end Parts

end Outliner.StyleSheet
