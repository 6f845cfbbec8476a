import Mathlib.Data.List.Forall2
import Mathlib.Tactic.Lemma
import Outliner.Proofs.Comments

set_option autoImplicit false

/-!
# What literals say

Two sources that differ only in what their literals say are read alike: a literal is as long in the
one as in the other, and so is everything around it. What may differ is a character that neither
ends a literal nor takes another one along, in a literal that is closed on its line.

## Main definitions

* `Outliner.Lexicon.Agree`, `Outliner.Lexicon.AgreeLines` — two lines, and two sources, differ only
  in what their literals say.
* `Outliner.Lexicon.Rephrased` — two texts are put together from the same characters and from
  literals that say something else.

## Main results

* `Outliner.Lexicon.Agree.literal` — a literal ends at the same place, and says something else.
* `Outliner.Lexicon.Agree.offset?_close` — a comment ends at the same place.
-/

namespace Outliner.Lexicon

variable (x : Lexicon)

/-- Code is reached from the place in the text: a literal or a comment in which the place is ends
there. -/
def Ends (p : Place) (text : List Char) : Prop :=
  ∃ n < text.length + 1, ((text.take n).foldl x.next p).isCode = true

instance (p : Place) (text : List Char) : Decidable (x.Ends p text) :=
  inferInstanceAs (Decidable (∃ n < text.length + 1, _))

/-- The character only says something in a literal: it is no quote, no backslash and no line
break. -/
def IsFiller (c : Char) : Prop := c ∉ x.quotes ∧ c ≠ '\\' ∧ c ≠ '\n'

instance (c : Char) : Decidable (x.IsFiller c) :=
  inferInstanceAs (Decidable (c ∉ x.quotes ∧ c ≠ '\\' ∧ c ≠ '\n'))

/-- The characters are the same, or both only say something. -/
def Exchanged (c d : Char) : Prop := c = d ∨ x.IsFiller c ∧ x.IsFiller d

/-- The texts differ only in what their literals say, where these end in the text. -/
def Agree : Place → List Char → List Char → Prop
  | _, [], [] => True
  | p, c :: a, d :: b =>
    (c = d ∨ p.isLiteral = true ∧ x.Ends p (c :: a) ∧ x.IsFiller c ∧ x.IsFiller d)
      ∧ Agree (x.next p c) a b
  | _, _, _ => False

instance decidableAgree : ∀ (p : Place) (a b : List Char), Decidable (x.Agree p a b)
  | _, [], [] => .isTrue trivial
  | p, c :: a, d :: b =>
    have := decidableAgree (x.next p c) a b
    inferInstanceAs (Decidable ((c = d ∨ p.isLiteral = true ∧ x.Ends p (c :: a)
      ∧ x.IsFiller c ∧ x.IsFiller d) ∧ x.Agree (x.next p c) a b))
  | _, [], _ :: _ => .isFalse id
  | _, _ :: _, [] => .isFalse id

/-- The lines differ only in what their literals say, where a comment is open in front of them or
none is. -/
def AgreeLines : Bool → List (List Char) → List (List Char) → Prop
  | _, [], [] => True
  | commented, a :: lines, b :: lines' =>
    x.Agree (.start commented) a b ∧ AgreeLines (x.commentBehind commented a) lines lines'
  | _, _, _ => False

instance decidableAgreeLines : ∀ (commented : Bool) (lines lines' : List (List Char)),
    Decidable (x.AgreeLines commented lines lines')
  | _, [], [] => .isTrue trivial
  | commented, a :: lines, b :: lines' =>
    have := decidableAgreeLines (x.commentBehind commented a) lines lines'
    inferInstanceAs (Decidable (x.Agree (.start commented) a b
      ∧ x.AgreeLines (x.commentBehind commented a) lines lines'))
  | _, [], _ :: _ => .isFalse id
  | _, _ :: _, [] => .isFalse id

/-- The texts are put together from the same characters, and from literals that say something
else. -/
inductive Rephrased : List Char → List Char → Prop
  /-- There is nothing. -/
  | nil : Rephrased [] []
  /-- The same character, and a text. -/
  | cons (c : Char) {a b : List Char} (h : Rephrased a b) : Rephrased (c :: a) (c :: b)
  /-- A literal, and a text. -/
  | literal {quote : Char} {interior interior' a b : List Char} (hquote : quote ∈ x.quotes)
    (hinterior : List.Forall₂ x.Exchanged interior interior') (h : Rephrased a b) :
    Rephrased (quote :: (interior ++ quote :: a)) (quote :: (interior' ++ quote :: b))

variable {x} {p : Place} {a b c d : List Char} {quote ch : Char} {commented star : Bool}

/-! ## Rephrased texts -/

namespace Rephrased

/-- A text says what it says. -/
lemma refl (a : List Char) : x.Rephrased a a := by
  induction a with
  | nil => exact .nil
  | cons ch a ih => exact .cons ch ih

/-- Texts that say the same say the same one after the other. -/
lemma append (h : x.Rephrased a b) (h' : x.Rephrased c d) : x.Rephrased (a ++ c) (b ++ d) := by
  induction h with
  | nil => exact h'
  | cons ch h ih => exact .cons ch ih
  | literal hquote hinterior h ih =>
    simp only [List.cons_append, List.append_assoc]
    exact .literal hquote hinterior ih

/-- A rephrased text is rephrased backwards too. -/
lemma reverse (h : x.Rephrased a b) : x.Rephrased a.reverse b.reverse := by
  induction h with
  | nil => exact .nil
  | cons ch h ih =>
    rw [List.reverse_cons, List.reverse_cons]
    exact ih.append (refl [ch])
  | @literal quote interior interior' a b hquote hinterior h ih =>
    have hliteral : x.Rephrased (quote :: (interior.reverse ++ quote :: []))
        (quote :: (interior'.reverse ++ quote :: [])) :=
      .literal hquote (List.forall₂_reverse_iff.2 hinterior) .nil
    simpa using ih.append hliteral

/-- What is left behind the characters of a class to which no quote belongs. -/
lemma dropWhile {q : Char → Bool} (hq : ∀ quote ∈ x.quotes, q quote = false)
    (h : x.Rephrased a b) : x.Rephrased (a.dropWhile q) (b.dropWhile q) := by
  induction h with
  | nil => exact .nil
  | cons ch h ih =>
    rw [List.dropWhile_cons, List.dropWhile_cons]
    split
    · exact ih
    · exact .cons ch h
  | literal hquote hinterior h =>
    rw [List.dropWhile_cons_of_neg (by simp [hq _ hquote]),
      List.dropWhile_cons_of_neg (by simp [hq _ hquote])]
    exact .literal hquote hinterior h

/-- Rephrased texts are rephrased without the blanks at their ends. -/
lemma trim (hblank : ∀ quote ∈ x.quotes, isBlank quote = false) (h : x.Rephrased a b) :
    x.Rephrased (Outliner.trim a) (Outliner.trim b) :=
  ((h.dropWhile hblank).reverse.dropWhile hblank).reverse

/-- No text says the same as the empty one, except itself. -/
lemma eq_nil_iff (h : x.Rephrased a b) : a = [] ↔ b = [] := by
  cases h <;> simp

end Rephrased

/-! ## Texts that agree -/

namespace Agree

/-- Where nothing is left of one text, nothing is left of the other. -/
lemma eq_nil (h : x.Agree p [] b) : b = [] := by
  cases b with
  | nil => rfl
  | cons d b => cases h

/-- The first characters of texts that agree. -/
lemma exists_first (h : x.Agree p (ch :: a) b) :
    ∃ d b', b = d :: b'
      ∧ (ch = d ∨ p.isLiteral = true ∧ x.Ends p (ch :: a) ∧ x.IsFiller ch ∧ x.IsFiller d)
      ∧ x.Agree (x.next p ch) a b' := by
  cases b with
  | nil => cases h
  | cons d b => exact ⟨d, b, rfl, h⟩

/-- In a literal the next character is exchanged, if it is not the same. -/
lemma exists_exchanged (h : x.Agree p (ch :: a) b) :
    ∃ d b', b = d :: b' ∧ x.Exchanged ch d ∧ x.Agree (x.next p ch) a b' := by
  obtain ⟨d, b', hb, hfirst, hrest⟩ := h.exists_first
  exact ⟨d, b', hb, hfirst.imp_right fun hfillers => hfillers.2.2, hrest⟩

/-- Outside literals the next character is the same. -/
lemma exists_cons (h : x.Agree p (ch :: a) b) (hp : p.isLiteral = false) :
    ∃ b', b = ch :: b' ∧ x.Agree (x.next p ch) a b' := by
  obtain ⟨d, b', hb, rfl | ⟨hliteral, -⟩, hrest⟩ := h.exists_first
  · exact ⟨b', hb, hrest⟩
  · rw [hp] at hliteral
    cases hliteral

/-- Outside literals the texts go on with the same character. -/
lemma head?_eq (h : x.Agree p a b) (hp : p.isLiteral = false) : a.head? = b.head? := by
  cases a with
  | nil => rw [h.eq_nil]
  | cons ch a =>
    obtain ⟨b', rfl, -⟩ := h.exists_cons hp
    rfl

/-- The texts are equally long. -/
lemma length_eq (h : x.Agree p a b) : a.length = b.length := by
  induction a generalizing p b with
  | nil => rw [h.eq_nil]
  | cons ch a ih =>
    obtain ⟨d, b', rfl, -, hrest⟩ := h.exists_first
    exact congrArg (· + 1) (ih hrest)

/-- A reader that knows only whether a comment is open knows enough.

**Proof sketch.** Behind a character the place is the one that the reader knows of, since it is the
same from any place at which the reader settles. The character itself is the same in both texts,
because the place is in no literal. -/
lemma settled (h : x.Agree p a b) (hsettles : x.Settles p a commented) :
    x.Agree (.start commented) a b := by
  cases a with
  | nil =>
    rw [h.eq_nil]
    trivial
  | cons ch a =>
    have hnext : x.next p ch = x.next (.start commented) ch :=
      hsettles.later [ch] (List.cons_ne_nil ch []) ⟨a, rfl⟩
    have hplace : p.isLiteral = false := by
      have hcode := hsettles.code (List.cons_ne_nil ch a)
      have hcomment := hsettles.comment
      cases p with
      | literal quote escaped => subst hcomment; cases hcode
      | _ => rfl
    obtain ⟨b', rfl, hrest⟩ := h.exists_cons hplace
    exact ⟨.inl rfl, hnext ▸ hrest⟩

/-- The texts agree from any later place on. -/
lemma drop (h : x.Agree p a b) (n : Nat) :
    x.Agree ((a.take n).foldl x.next p) (a.drop n) (b.drop n) := by
  induction n generalizing p a b with
  | zero => exact h
  | succ n ih =>
    cases a with
    | nil =>
      rw [h.eq_nil]
      trivial
    | cons ch a =>
      obtain ⟨d, b', rfl, -, hrest⟩ := h.exists_first
      exact ih hrest

/-- In a literal that does not end in the text nothing differs. -/
lemma eq_of_not_ends (h : x.Agree p a b) (hp : ¬ x.Ends p a) : a = b := by
  induction a generalizing p b with
  | nil => exact h.eq_nil.symm
  | cons ch a ih =>
    have hlater : ¬ x.Ends (x.next p ch) a := fun ⟨n, hn, hcode⟩ =>
      hp ⟨n + 1, Nat.succ_lt_succ hn, hcode⟩
    obtain ⟨d, b', rfl, rfl | ⟨-, hends, -⟩, hrest⟩ := h.exists_first
    · rw [ih hrest hlater]
    · exact absurd hends hp

end Agree

/-! ## Literals and comments -/

/-- A literal without a closing quote does not end in the text. -/
lemma not_ends_literal (h : Cursor.quotedLength? quote a = none) :
    ¬ x.Ends (.literal quote false) a := by
  rintro ⟨n, -, hcode⟩
  have hprefix : Cursor.quotedLength? quote (a.take n) = none := by
    cases hlength : Cursor.quotedLength? quote (a.take n) with
    | none => rfl
    | some m =>
      have hall := quotedLength?_append hlength (a.drop n)
      rw [List.take_append_drop, h] at hall
      cases hall
  rw [Place.isCode_of_isLiteral (foldl_literal_none hprefix)] at hcode
  cases hcode

namespace Agree

/-- **A literal ends at the same place**, and says something else.

**Proof sketch.** Induction on the first literal. The quote that closes it is the same in the second
one, and so is a backslash; any other character there is neither. -/
theorem literal {n : Nat} (hquote : quote ∈ x.quotes) (h : x.Agree (.literal quote false) a b)
    (hlength : Cursor.quotedLength? quote a = some n) :
    Cursor.quotedLength? quote b = some n
      ∧ ∃ interior interior', List.Forall₂ x.Exchanged interior interior'
        ∧ a.take n = interior ++ [quote] ∧ b.take n = interior' ++ [quote] := by
  induction a using Cursor.quotedLength?.induct quote generalizing b n with
  | case1 => cases hlength
  | case2 => cases hlength
  | case3 ch a ih =>
    -- a backslash and the character that it takes along
    obtain ⟨escape, b, rfl, rfl | hescape, hbehind⟩ := h.exists_exchanged
    · obtain ⟨d, b, rfl, hch, hrest⟩ := hbehind.exists_exchanged
      rw [Cursor.quotedLength?] at hlength
      obtain ⟨m, hm, rfl⟩ := Option.map_eq_some_iff.1 hlength
      have hplace : x.next (x.next (.literal quote false) '\\') ch = .literal quote false := rfl
      rw [hplace] at hrest
      obtain ⟨hlength', interior, interior', hinterior, htake, htake'⟩ := ih hrest hm
      refine ⟨by rw [Cursor.quotedLength?, hlength']; rfl, '\\' :: ch :: interior,
        '\\' :: d :: interior', .cons (.inl rfl) (.cons hch hinterior), ?_, ?_⟩
      · rw [List.take_succ_cons, List.take_succ_cons, htake]
        rfl
      · rw [List.take_succ_cons, List.take_succ_cons, htake']
        rfl
    · exact absurd rfl hescape.1.2.1
  | case4 a hlast hescape =>
    -- the closing quote
    have hne : quote ≠ '\\' := Cursor.ne_backslash hlast hescape
    rw [Cursor.quotedLength?_cons hne, if_pos rfl] at hlength
    obtain rfl := Option.some.inj hlength
    obtain ⟨d, b, rfl, rfl | hfillers, -⟩ := h.exists_exchanged
    · exact ⟨by rw [Cursor.quotedLength?_cons hne, if_pos rfl], [], [], .nil, rfl, rfl⟩
    · exact absurd hquote hfillers.1.1
  | case5 ch a hlast hescape hne ih =>
    -- a character that is neither, and so is the one it is exchanged for
    have hch : ch ≠ '\\' := Cursor.ne_backslash hlast hescape
    obtain ⟨d, b, rfl, hexchanged, hrest⟩ := h.exists_exchanged
    have hd : d ≠ '\\' ∧ d ≠ quote := by
      obtain rfl | ⟨-, hfiller⟩ := hexchanged
      · exact ⟨hch, hne⟩
      · exact ⟨hfiller.2.1, fun hd => hfiller.1 (hd ▸ hquote)⟩
    have hplace : x.next (.literal quote false) ch = .literal quote false := by
      rw [next, if_neg hch, if_neg hne]
    rw [hplace] at hrest
    rw [Cursor.quotedLength?_cons hch, if_neg hne] at hlength
    obtain ⟨m, hm, rfl⟩ := Option.map_eq_some_iff.1 hlength
    obtain ⟨hlength', interior, interior', hinterior, htake, htake'⟩ := ih hrest hm
    refine ⟨by rw [Cursor.quotedLength?_cons hd.1, if_neg hd.2, hlength']; rfl, ch :: interior,
      d :: interior', .cons hexchanged hinterior, ?_, ?_⟩
    · rw [List.take_succ_cons, htake]
      rfl
    · rw [List.take_succ_cons, htake']
      rfl

/-- A literal without a closing quote says the same. -/
lemma eq_of_open (h : x.Agree (.literal quote false) a b)
    (hlength : Cursor.quotedLength? quote a = none) : a = b :=
  h.eq_of_not_ends (not_ends_literal hlength)

/-- **A comment ends at the same place.**

**Proof sketch.** Induction on the comment. As long as no `*/` comes next, it goes on behind the
next character, which is the same in both texts. -/
theorem offset?_close (h : x.Agree (.comment star) a b) (hstar : star = true → a.head? ≠ some '/') :
    offset? "*/".toList a = offset? "*/".toList b := by
  induction a generalizing star b with
  | nil => rw [h.eq_nil]
  | cons ch a ih =>
    obtain ⟨b, rfl, hrest⟩ := h.exists_cons rfl
    have hch : star = true → ch ≠ '/' := fun hs hslash => hstar hs (congrArg some hslash)
    rw [next_comment hch] at hrest
    have hends : startsWith "*/".toList (ch :: a) = startsWith "*/".toList (ch :: b) :=
      startsWith_pair '*' '/' fun _ => hrest.head?_eq rfl
    cases hclosed : startsWith "*/".toList (ch :: a) with
    | true => rw [offset?, offset?, ← hends, hclosed]; rfl
    | false =>
      rw [offset?_close_cons hclosed, offset?_close_cons (hends ▸ hclosed),
        ih hrest (head?_ne_slash hclosed)]

/-- The same plain characters come next. -/
lemma takeWhile_eq {q : Char → Bool} (h : x.Agree (.code false) a b)
    (hq : ∀ c, q c = true → x.IsPlain c) : a.takeWhile q = b.takeWhile q := by
  induction a generalizing b with
  | nil => rw [h.eq_nil]
  | cons ch a ih =>
    obtain ⟨b, rfl, hrest⟩ := h.exists_cons rfl
    by_cases hch : q ch = true
    · rw [next_plain (hq ch hch)] at hrest
      rw [List.takeWhile_cons_of_pos hch, List.takeWhile_cons_of_pos hch, ih hrest]
    · rw [List.takeWhile_cons_of_neg hch, List.takeWhile_cons_of_neg hch]

end Agree

end Outliner.Lexicon
