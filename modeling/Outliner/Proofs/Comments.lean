import Mathlib.Data.List.Infix
import Mathlib.Tactic.Lemma
import Outliner.Cursor
import Outliner.Proofs.Checked.Cursor
import Outliner.Proofs.Excerpt

set_option autoImplicit false

/-!
# Comments and literals

In many languages block comments stand between `/*` and `*/`, over as many lines as they like, and
literals between quotes on one line. Where a character of such a source stands can be told by
following the characters one by one. A reader that looks for the end of a comment or of a literal at
once comes to the same place.

## Main definitions

* `Outliner.Lexicon` — what the comments and literals of a language look like.
* `Outliner.Lexicon.Place`, `Outliner.Lexicon.next` — where a character stands, and where the next
  one does.
* `Outliner.Lexicon.commentAfter` — whether a block comment goes on behind the lines of a source.
* `Outliner.Lexicon.OpensComment` — a block comment that is opened behind a text.
* `Outliner.Lexicon.Settles` — what a reader knows of a place, if all it carries along is whether a
  comment is open.

## Main results

* `Outliner.Lexicon.foldl_comment`, `Outliner.Lexicon.foldl_literal` — following a comment and a
  literal character by character leads behind its end.
-/

namespace Outliner

/-- What the comments and literals of a language look like. Block comments stand between `/*` and
`*/`. -/
structure Lexicon where
  /-- The quotes around literals. -/
  quotes : List Char
  /-- Whether two slashes begin a comment that ends with its line. -/
  hasRemarks : Bool
  /-- A slash is no quote. -/
  unslashed : '/' ∉ quotes

namespace Lexicon

/-! ## Places -/

/-- Where a character stands. -/
inductive Place where
  /-- In code, perhaps after a slash. -/
  | code (slash : Bool)
  /-- In a block comment, perhaps after an asterisk. -/
  | comment (star : Bool)
  /-- In a comment that ends with its line. -/
  | remark
  /-- In a literal, perhaps after a backslash that takes the character along. -/
  | literal (quote : Char) (escaped : Bool)
deriving DecidableEq, Repr

/-- Whether the place is in code. -/
def Place.isCode : Place → Bool
  | code _ => true
  | _ => false

/-- Whether the place is in a block comment. -/
def Place.isComment : Place → Bool
  | comment _ => true
  | _ => false

/-- Whether the place is in a literal. -/
def Place.isLiteral : Place → Bool
  | literal _ _ => true
  | _ => false

/-- A place in a literal is in no comment. -/
lemma Place.isComment_of_isLiteral {p : Place} (h : p.isLiteral = true) : p.isComment = false := by
  cases p with
  | literal quote escaped => rfl
  | _ => cases h

/-- A place in a literal is not in code. -/
lemma Place.isCode_of_isLiteral {p : Place} (h : p.isLiteral = true) : p.isCode = false := by
  cases p with
  | literal quote escaped => rfl
  | _ => cases h

/-- A place in a comment is not in code. -/
lemma Place.isCode_of_isComment {p : Place} (h : p.isComment = true) : p.isCode = false := by
  cases p with
  | comment star => rfl
  | _ => cases h

/-- The place in front of a line at whose beginning a block comment is open, or none is. -/
def Place.start (commented : Bool) : Place := if commented then comment false else code false

variable (x : Lexicon)

/-- The place behind a character. -/
def next : Place → Char → Place
  | .code slash, c =>
    if slash ∧ c = '*' then .comment false
    else if slash ∧ c = '/' ∧ x.hasRemarks then .remark
    else if c ∈ x.quotes then .literal c false
    else .code (c == '/')
  | .comment star, c => if star ∧ c = '/' then .code false else .comment (c == '*')
  | .remark, _ => .remark
  | .literal quote true, _ => .literal quote false
  | .literal quote false, c =>
    if c = '\\' then .literal quote true
    else if c = quote then .code false else .literal quote false

/-- Whether a block comment goes on behind a line, where one is open at its beginning or none is.
Literals and other comments end with the line, and so does a pair of characters. -/
def commentBehind (commented : Bool) (line : List Char) : Bool :=
  (line.foldl x.next (.start commented)).isComment

/-- Whether a block comment goes on behind the lines. -/
def commentAfter (lines : List (List Char)) : Bool := lines.foldl x.commentBehind false

/-- Behind the text there is code, and a block comment is opened there. -/
structure Opens (p : Place) (text : List Char) : Prop where
  /-- Behind the text there is code. -/
  code : (text.foldl x.next p).isCode = true
  /-- A block comment is opened there. -/
  opens : (text ++ "/*".toList).foldl x.next p = .comment false

instance (p : Place) (text : List Char) : Decidable (x.Opens p text) :=
  decidable_of_iff ((text.foldl x.next p).isCode = true
      ∧ (text ++ "/*".toList).foldl x.next p = .comment false)
    ⟨fun h => ⟨h.1, h.2⟩, fun h => ⟨h.code, h.opens⟩⟩

/-- On the line behind the lines, a block comment is opened behind the text. -/
def OpensComment (lines : List (List Char)) (text : List Char) : Prop :=
  x.Opens (.start (x.commentAfter lines)) text

instance (lines : List (List Char)) (text : List Char) : Decidable (x.OpensComment lines text) :=
  inferInstanceAs (Decidable (x.Opens _ text))

/-- The character begins no comment and no literal. -/
def IsPlain (c : Char) : Prop := c ≠ '/' ∧ c ∉ x.quotes

/-! ## What is known of a place -/

/-- A reader that knows only whether a comment is open knows enough of the place to go on with the
rest of the line. -/
structure Settles (p : Place) (rest : List Char) (commented : Bool) : Prop where
  /-- Whether the place is in a block comment. -/
  comment : p.isComment = commented
  /-- Before the end of the line there is code wherever no comment is. -/
  code : rest ≠ [] → p.isCode = !commented
  /-- The next characters lead to the same place. -/
  later : ∀ t ≠ [], t <+: rest → t.foldl x.next p = t.foldl x.next (.start commented)

variable {x} {p : Place} {c quote : Char} {text rest : List Char} {commented star : Bool}

/-- A line begins in a comment if one is open. -/
lemma isComment_start (commented : Bool) : (Place.start commented).isComment = commented := by
  cases commented <;> rfl

/-- A line begins in code if no comment is open. -/
lemma isCode_start (commented : Bool) : (Place.start commented).isCode = !commented := by
  cases commented <;> rfl

/-- At the beginning of a line the reader knows what there is to know. -/
lemma settles_start (x : Lexicon) (commented : Bool) (rest : List Char) :
    x.Settles (.start commented) rest commented where
  comment := isComment_start commented
  code _ := isCode_start commented
  later _ _ _ := rfl

/-- At the end of a line it need only know whether a comment is open. -/
lemma settles_end (x : Lexicon) (h : p.isComment = commented) : x.Settles p [] commented where
  comment := h
  code hmore := absurd rfl hmore
  later _ ht hprefix := absurd (List.prefix_nil.1 hprefix) ht

/-- What stands behind a text is in a comment or not, wherever the reader settled. -/
lemma Settles.isComment_foldl (h : x.Settles p rest commented) :
    (rest.foldl x.next p).isComment = x.commentBehind commented rest := by
  cases rest with
  | nil => exact h.comment.trans (isComment_start commented).symm
  | cons c rest => exact congrArg _ (h.later _ (List.cons_ne_nil c rest) (List.prefix_refl _))

/-- The slash before does not matter, unless the next character makes it a comment. -/
lemma next_code (hcomment : c ≠ '*') (hremark : x.hasRemarks = true → c ≠ '/') (slash : Bool) :
    x.next (.code slash) c = x.next (.code false) c := by
  have hnot : ¬ (c = '/' ∧ x.hasRemarks = true) := fun h => hremark h.2 h.1
  simp [next, hcomment, hnot]

/-- Behind a slash that does not begin a comment there is code. -/
lemma settles_slash (slash : Bool) (hcomment : rest.head? ≠ some '*')
    (hremark : x.hasRemarks = true → rest.head? ≠ some '/') :
    x.Settles (.code slash) rest false where
  comment := rfl
  code _ := rfl
  later t ht hprefix := by
    obtain ⟨c, t, rfl⟩ := List.exists_cons_of_ne_nil ht
    obtain ⟨rest, rfl⟩ := hprefix
    have hnext : x.next (.code slash) c = x.next (.code false) c :=
      next_code (by simpa using hcomment) (by simpa using hremark) slash
    rw [List.foldl_cons, hnext]
    rfl

/-- A plain character of code is followed by code. -/
lemma next_plain (hc : x.IsPlain c) : x.next (.code false) c = .code false := by
  simp [next, hc.1, hc.2]

/-- A slash is followed by code, as long as nothing comes after it. -/
lemma next_slash (x : Lexicon) : x.next (.code false) '/' = .code true := by
  simp [next, x.unslashed]

/-- Plain characters of code are followed by code. -/
lemma foldl_plain (h : ∀ c ∈ text, x.IsPlain c) :
    text.foldl x.next (.code false) = .code false := by
  induction text with
  | nil => rfl
  | cons c text ih =>
    rw [List.foldl_cons, next_plain (h c List.mem_cons_self)]
    exact ih fun d hd => h d (List.mem_cons_of_mem c hd)

/-- A step within the text leaves the comment to be opened behind it.

**Proof sketch.** Any text behind the first part is passed from the place that was reached there. At
a settled place this is what the reader knows, so the code and the comment behind it are seen from
there as well. -/
lemma Opens.drop {further : Bool} (h : x.Opens (.start commented) text) (n : Nat) (rest : List Char)
    (hsettles : x.Settles ((text.take n).foldl x.next (.start commented))
      (text.drop n ++ "/*".toList ++ rest) further) :
    x.Opens (.start further) (text.drop n) := by
  have hall : ∀ t, (text ++ t).foldl x.next (.start commented)
      = (text.drop n ++ t).foldl x.next ((text.take n).foldl x.next (.start commented)) := by
    intro t
    rw [← List.foldl_append, ← List.append_assoc, List.take_append_drop]
  constructor
  · by_cases hempty : text.drop n = []
    · have hcode := h.code
      have hnil := hall []
      rw [List.append_nil, List.append_nil, hempty] at hnil
      rw [hnil, List.foldl_nil, hsettles.code (by simp)] at hcode
      rw [hempty, List.foldl_nil, isCode_start, hcode]
    · have hsame := hall []
      rw [List.append_nil, List.append_nil] at hsame
      rw [← hsettles.later _ hempty ⟨"/*".toList ++ rest, by simp⟩, ← hsame, h.code]
  · rw [← hsettles.later _ (by simp) (List.prefix_append _ _), ← hall, h.opens]

/-! ## Following comments and literals -/

/-- No `*/` comes next, and the characters of the comment are followed one by one. -/
lemma offset?_close_cons (h : startsWith "*/".toList (c :: text) = false) :
    offset? "*/".toList (c :: text) = (offset? "*/".toList text).map (· + 1) := by
  rw [offset?, h]
  rfl

/-- A character of a comment that does not end it. -/
lemma next_comment (hstar : star = true → c ≠ '/') :
    x.next (.comment star) c = .comment (c == '*') := by
  have hnot : ¬ (star = true ∧ c = '/') := fun h => hstar h.1 h.2
  simp only [next, if_neg hnot]

/-- An asterisk that is not followed by a slash. -/
lemma head?_ne_slash (h : startsWith "*/".toList (c :: text) = false) :
    (c == '*') = true → text.head? ≠ some '/' := by
  intro hc hhead
  obtain rfl := eq_of_beq hc
  obtain ⟨rest, rfl⟩ := List.head?_eq_some_iff.1 hhead
  exact absurd (startsWith_iff.2 ⟨rest, rfl⟩) (Bool.eq_false_iff.1 h)

/-- **Behind the first `*/` of a comment there is code.**

**Proof sketch.** Induction on the text. A star and a slash end the comment at once. Otherwise the
first character is passed over, and if it is a star, no slash follows it. -/
lemma foldl_comment_some {n : Nat} (h : offset? "*/".toList text = some n)
    (hstar : star = true → text.head? ≠ some '/') :
    (text.take (n + 2)).foldl x.next (.comment star) = .code false := by
  induction text generalizing star n with
  | nil => cases h
  | cons c text ih =>
    have hc : star = true → c ≠ '/' := fun hs hslash => hstar hs (congrArg some hslash)
    rw [List.take_succ_cons, List.foldl_cons, next_comment hc]
    by_cases hends : startsWith "*/".toList (c :: text) = true
    · obtain ⟨rest, hrest⟩ := startsWith_iff.1 hends
      obtain ⟨rfl, rfl⟩ : c = '*' ∧ text = '/' :: rest := List.cons_eq_cons.1 hrest
      obtain rfl : 0 = n := Option.some.inj ((if_pos hends).symm.trans h)
      simp [next]
    · rw [Bool.not_eq_true] at hends
      rw [offset?_close_cons hends] at h
      obtain ⟨m, hm, rfl⟩ := Option.map_eq_some_iff.1 h
      exact ih hm (head?_ne_slash hends)

/-- A comment in which no `*/` stands goes on behind the text. -/
lemma foldl_comment_none (h : offset? "*/".toList text = none)
    (hstar : star = true → text.head? ≠ some '/') :
    (text.foldl x.next (.comment star)).isComment = true := by
  induction text generalizing star with
  | nil => rfl
  | cons c text ih =>
    have hc : star = true → c ≠ '/' := fun hs hslash => hstar hs (congrArg some hslash)
    have hends : startsWith "*/".toList (c :: text) = false := by
      refine Bool.eq_false_iff.2 fun hends => ?_
      rw [offset?, if_pos hends] at h
      cases h
    rw [offset?_close_cons hends, Option.map_eq_none_iff] at h
    rw [List.foldl_cons, next_comment hc]
    exact ih h (head?_ne_slash hends)

/-- **Behind the closing quote of a literal there is code.**

**Proof sketch.** Induction along the characters of the literal, as its length is found in them. -/
lemma foldl_literal_some {n : Nat} (h : Cursor.quotedLength? quote text = some n) :
    (text.take n).foldl x.next (.literal quote false) = .code false := by
  induction text using Cursor.quotedLength?.induct quote generalizing n with
  | case1 => cases h
  | case2 => cases h
  | case3 c text ih =>
    rw [Cursor.quotedLength?] at h
    obtain ⟨m, hm, rfl⟩ := Option.map_eq_some_iff.1 h
    simp [next, ih hm]
  | case4 text hlast hescape =>
    have hquote : quote ≠ '\\' := Cursor.ne_backslash hlast hescape
    rw [Cursor.quotedLength?_cons hquote, if_pos rfl] at h
    obtain rfl := Option.some.inj h
    simp [next, hquote]
  | case5 c text hlast hescape hne ih =>
    have hc : c ≠ '\\' := Cursor.ne_backslash hlast hescape
    rw [Cursor.quotedLength?_cons hc, if_neg hne] at h
    obtain ⟨m, hm, rfl⟩ := Option.map_eq_some_iff.1 h
    simp [next, hc, hne, ih hm]

/-- A literal without a closing quote goes on to the end of the text. -/
lemma foldl_literal_none (h : Cursor.quotedLength? quote text = none) :
    (text.foldl x.next (.literal quote false)).isLiteral = true := by
  induction text using Cursor.quotedLength?.induct quote with
  | case1 => rfl
  | case2 => simp [next, Place.isLiteral]
  | case3 c text ih =>
    rw [Cursor.quotedLength?, Option.map_eq_none_iff] at h
    simpa [next] using ih h
  | case4 text hlast hescape =>
    rw [Cursor.quotedLength?_cons (Cursor.ne_backslash hlast hescape), if_pos rfl] at h
    cases h
  | case5 c text hlast hescape hne ih =>
    have hc : c ≠ '\\' := Cursor.ne_backslash hlast hescape
    rw [Cursor.quotedLength?_cons hc, if_neg hne, Option.map_eq_none_iff] at h
    simpa [next, hc, hne] using ih h

/-- A comment that ends with its line goes on to the end of the text. -/
lemma foldl_remark (x : Lexicon) (text : List Char) : text.foldl x.next .remark = .remark := by
  induction text with
  | nil => rfl
  | cons c text ih => exact ih

/-- Two slashes begin a comment that ends with its line. -/
lemma foldl_slashes (hremarks : x.hasRemarks = true) (h : startsWith "//".toList text = true) :
    text.foldl x.next (.start false) = .remark := by
  obtain ⟨rest, rfl⟩ := startsWith_iff.1 h
  have hsecond : x.next (.code true) '/' = .remark := by simp [next, hremarks]
  show rest.foldl x.next (x.next (x.next (.code false) '/') '/') = _
  rw [next_slash, hsecond, foldl_remark]

/-- A slash and an asterisk begin a block comment. -/
lemma foldl_opening (x : Lexicon) : "/*".toList.foldl x.next (.start false) = .comment false := by
  show x.next (x.next (.code false) '/') '*' = _
  rw [next_slash]
  rfl

/-- A pattern of two characters comes next in both texts or in none, where these go on alike behind
its first character. -/
lemma startsWith_pair {a b : List Char} (first second : Char)
    (hhead : c = first → a.head? = b.head?) :
    startsWith [first, second] (c :: a) = startsWith [first, second] (c :: b) := by
  by_cases hc : c = first
  · have hpair : ∀ t : List Char, startsWith [first, second] (c :: t)
        = t.head?.any (second == ·) := by
      intro t
      cases t with
      | nil => simp [startsWith, after?, hc]
      | cons d t =>
        by_cases hd : second = d
        · simp [startsWith, after?, hc, hd]
        · simp [startsWith, after?, hc, hd]
    rw [hpair, hpair, hhead hc]
  · simp [startsWith, after?, Ne.symm hc]

/-- **A comment ends at the first `*/` behind it.**

**Proof sketch.** Induction on the comment. A `*/` does not begin with its last character either,
since the next one is an asterisk. -/
lemma offset?_close (h : ¬ "*/".toList <:+: text) (rest : List Char) :
    offset? "*/".toList (text ++ ("*/".toList ++ rest)) = some text.length := by
  induction text with
  | nil => rfl
  | cons c text ih =>
    have hends : startsWith "*/".toList (c :: (text ++ ("*/".toList ++ rest))) = false := by
      refine Bool.eq_false_iff.2 fun hends => ?_
      obtain ⟨further, hfurther⟩ := startsWith_iff.1 hends
      obtain ⟨rfl, hslash⟩ : c = '*' ∧ text ++ ("*/".toList ++ rest) = '/' :: further :=
        List.cons_eq_cons.1 hfurther
      cases text with
      | nil => exact absurd (List.cons_eq_cons.1 hslash).1 (by decide)
      | cons d text =>
        obtain rfl : d = '/' := (List.cons_eq_cons.1 hslash).1
        exact h (List.prefix_append "*/".toList text).isInfix
    have hrest : ¬ "*/".toList <:+: text := fun hthere => h (hthere.trans (List.infix_cons
      (List.infix_refl text)))
    rw [List.cons_append, offset?_close_cons hends, ih hrest]
    rfl

/-! ## What stands behind does not matter -/

/-- A `*/` is found whatever stands behind it. -/
lemma offset?_append {pattern : List Char} {n : Nat} (h : offset? pattern text = some n)
    (rest : List Char) : offset? pattern (text ++ rest) = some n := by
  obtain ⟨hn, hthere, hfirst⟩ := offset?_eq_some_iff.1 h
  refine offset?_eq_some_iff.2 ⟨?_, ?_, fun m hm hearlier => hfirst m hm ?_⟩
  · exact hn.trans (by simp)
  · rw [List.drop_append_of_le_length hn]
    exact hthere.trans (List.prefix_append _ _)
  · have hlength : pattern.length ≤ (text.drop m).length := by
      have hle := hthere.length_le
      rw [List.length_drop] at hle ⊢
      omega
    rw [List.drop_append_of_le_length (Nat.le_of_lt (Nat.lt_of_lt_of_le hm hn))] at hearlier
    exact List.prefix_of_prefix_length_le hearlier (List.prefix_append _ _) hlength

/-- A literal is as long whatever stands behind it.

**Proof sketch.** Induction along the characters of the literal, as its length is found in them.
What stands behind its closing quote is not looked at. -/
lemma quotedLength?_append {n : Nat} (h : Cursor.quotedLength? quote text = some n)
    (rest : List Char) : Cursor.quotedLength? quote (text ++ rest) = some n := by
  induction text using Cursor.quotedLength?.induct quote generalizing n with
  | case1 => cases h
  | case2 => cases h
  | case3 c text ih =>
    rw [Cursor.quotedLength?] at h
    obtain ⟨m, hm, rfl⟩ := Option.map_eq_some_iff.1 h
    simp [Cursor.quotedLength?, ih hm]
  | case4 text hlast hescape =>
    have hquote : quote ≠ '\\' := Cursor.ne_backslash hlast hescape
    rw [Cursor.quotedLength?_cons hquote, if_pos rfl] at h
    rw [List.cons_append, Cursor.quotedLength?_cons hquote, if_pos rfl, h]
  | case5 c text hlast hescape hne ih =>
    have hc : c ≠ '\\' := Cursor.ne_backslash hlast hescape
    rw [Cursor.quotedLength?_cons hc, if_neg hne] at h
    obtain ⟨m, hm, rfl⟩ := Option.map_eq_some_iff.1 h
    rw [List.cons_append, Cursor.quotedLength?_cons hc, if_neg hne, ih hm]
    rfl

/-- A literal is no longer than the text.

**Proof sketch.** Induction along the characters of the literal, as its length is found in them. -/
lemma quotedLength?_le {n : Nat} (h : Cursor.quotedLength? quote text = some n) :
    n ≤ text.length := by
  induction text using Cursor.quotedLength?.induct quote generalizing n with
  | case1 => cases h
  | case2 => cases h
  | case3 c text ih =>
    rw [Cursor.quotedLength?] at h
    obtain ⟨m, hm, rfl⟩ := Option.map_eq_some_iff.1 h
    exact Nat.add_le_add_right (ih hm) 2
  | case4 text hlast hescape =>
    rw [Cursor.quotedLength?_cons (Cursor.ne_backslash hlast hescape), if_pos rfl] at h
    obtain rfl := Option.some.inj h
    exact Nat.succ_pos _
  | case5 c text hlast hescape hne ih =>
    rw [Cursor.quotedLength?_cons (Cursor.ne_backslash hlast hescape), if_neg hne] at h
    obtain ⟨m, hm, rfl⟩ := Option.map_eq_some_iff.1 h
    exact Nat.add_le_add_right (ih hm) 1

end Lexicon

end Outliner
