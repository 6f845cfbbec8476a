import Outliner.Proofs.Nsis.Declarations

set_option autoImplicit false

/-!
# Block comments of an installer script

A comment opens at a `/*` that is the first text of a line, or the first text behind a comment that
is closed on that line. It is closed at the next `*/` behind these two characters, on the same line or
on a later one. So a `/*/` does not close itself, and any number of comments may follow each other
on a line. What stands behind the last of them is code.

The reader of a line looks for an opening sign only once, behind the comment in which the line
begins, and it looks for the closing sign from the opening one on. So it takes a `/*/` for a whole
comment, and it overlooks a comment behind another one that opens on the same line. If such a
comment goes on behind its line, the reader has missed it and reads the lines within it as code, up
to one that begins with an opening sign itself.

## Main definitions

* `Outliner.Nsis.codeBehind` — the code of a line, where comments open and close as they should.
* `Outliner.Nsis.openAt` — whether a line begins within a comment.
* `Outliner.Nsis.missedAt` — whether the reader has missed the comment within which a line begins.
* `Outliner.Nsis.Leaks` — what a line declares within a comment.

## Main results

* `Outliner.Nsis.commentedBefore_eq` — the comments of which the reader knows.
* `Outliner.Nsis.declares_iff` — what is read off one line.
* `Outliner.Language.scan_nsis_comments` — what is reported is declared by code, or it leaks out of
  a comment.
-/

namespace Outliner

namespace Nsis

/-! ## Comments as they should be -/

/-- What follows the sign that opens a comment, if one is the first text. -/
def opened? (text : List Char) : Option (List Char) := after? "/*".toList (trimStart text)

/-- What follows the first sign that closes a comment. -/
def closed? (text : List Char) : Option (List Char) := afterFirst? "*/".toList text

/-- What follows an opening sign is shorter. -/
lemma length_opened?_lt {text body : List Char} (h : opened? text = some body) :
    body.length < text.length := by
  have hlength := congrArg List.length (after?_eq_some_iff.1 h)
  have htrim : (trimStart text).length ≤ text.length := length_dropWhile_le isBlank text
  have hsign : "/*".toList.length = 2 := rfl
  rw [List.length_append] at hlength
  omega

/-- What follows a closing sign is shorter. -/
lemma length_closed?_lt {text rest : List Char} (h : closed? text = some rest) :
    rest.length < text.length := by
  obtain ⟨n, hn, rfl⟩ := Option.map_eq_some_iff.1 h
  have hthere : "*/".toList.length ≤ (text.drop n).length := (offset?_isPrefix hn).length_le
  have hsign : "*/".toList.length = 2 := rfl
  rw [List.length_drop] at hthere ⊢
  omega

/-- The code behind the comments in a text, without its leading blanks, or nothing if a comment is
open at the end. `inComment` says whether one is open at the beginning. -/
def codeBehind (inComment : Bool) (text : List Char) : Option (List Char) :=
  if inComment then
    match _h : closed? text with
    | none => none
    | some rest => codeBehind false rest
  else
    match _h : opened? text with
    | none => some (trimStart text)
    | some body => codeBehind true body
termination_by text.length
decreasing_by
  · exact length_closed?_lt ‹_›
  · exact length_opened?_lt ‹_›

/-- The code behind the comments in a text declares a construct of this kind and name. -/
def DeclaresBehind (inComment : Bool) (text : List Char) (kind : Kind) (name : List Char) : Prop :=
  ∃ code, codeBehind inComment text = some code ∧ Declares code kind name

/-- What follows the comment in which a line begins, or the whole line. -/
def front? (inComment : Bool) (text : List Char) : Option (List Char) :=
  if inComment then closed? text else some text

/-- What follows the first sign that opens a comment on a line. -/
def firstOpened? (inComment : Bool) (text : List Char) : Option (List Char) :=
  (front? inComment text).bind opened?

/-- Whether the line of a number begins within a comment. -/
def openAt (texts : List (List Char)) : Nat → Bool
  | 0 => false
  | i + 1 => (codeBehind (openAt texts i) (texts[i]?.getD [])).isNone

/-! ## What the reader follows -/

/-- At most one comment opens on the line, and it does not seem to be closed by its own opening
sign. -/
def isPlain (inComment : Bool) (text : List Char) : Bool :=
  match firstOpened? inComment text with
  | none => true
  | some body => body.head? != some '/' && (firstOpened? true body).isNone

/-- The reader follows the comments of the line. If it has missed the comment in which the line
begins, the line must begin with another opening sign, which shows it the comment. -/
def isFollowed (missed inComment : Bool) (text : List Char) : Bool :=
  if missed then (opened? text).isSome && (firstOpened? inComment text).isNone
  else isPlain inComment text

/-- Whether the line of a number begins within a comment that the reader has missed. -/
def missedAt (texts : List (List Char)) : Nat → Bool
  | 0 => false
  | i + 1 => openAt texts (i + 1)
      && !isFollowed (missedAt texts i) (openAt texts i) (texts[i]?.getD [])

/-- What a line declares, although it stands within a comment. -/
inductive Leaks (missed inComment : Bool) (text : List Char) (kind : Kind) (name : List Char) :
    Prop where
  /-- A line that begins within a missed comment declares it at its front. -/
  | missed (hopen : inComment = true) (hmissed : missed = true)
      (hdeclares : Declares (trimStart text) kind name)
  /-- A comment declares it directly behind a `/*/`. -/
  | overlapping {inner : List Char} (hknown : missed = false)
      (hopened : firstOpened? inComment text = some ('/' :: inner))
      (hdeclares : Declares (trimStart inner) kind name)

/-! ## Signs -/

section Signs

variable {text body : List Char}

/-- Where no comment opens, the text is code. -/
lemma codeBehind_false_of_none (h : opened? text = none) :
    codeBehind false text = some (trimStart text) := by
  rw [codeBehind, if_neg (by decide)]
  split
  · rfl
  · next body hbody => simp [h] at hbody

/-- Where a comment opens, the code is behind it. -/
lemma codeBehind_false_of_some (h : opened? text = some body) :
    codeBehind false text = codeBehind true body := by
  rw [codeBehind, if_neg (by decide)]
  split
  · next hnone => simp [h] at hnone
  · next body' hbody => rw [Option.some.inj (h.symm.trans hbody)]

/-- Within a comment, the code is behind the closing sign. -/
lemma codeBehind_true (text : List Char) :
    codeBehind true text = (closed? text).bind (codeBehind false) := by
  rw [codeBehind, if_pos rfl]
  split
  · next h => rw [h, Option.bind_none]
  · next rest h => rw [h, Option.bind_some]

/-- The code is behind the comment in which a line begins. -/
lemma codeBehind_eq_bind (inComment : Bool) (text : List Char) :
    codeBehind inComment text = (front? inComment text).bind (codeBehind false) := by
  cases inComment with
  | false => rfl
  | true => exact codeBehind_true text

/-- A closing sign is looked for from character to character. -/
lemma closed?_cons (c : Char) (text : List Char) :
    closed? (c :: text)
      = if startsWith "*/".toList (c :: text) then some (text.drop 1) else closed? text := by
  rw [closed?, afterFirst?, offset?]
  split
  · rfl
  · rw [Option.map_map, closed?, afterFirst?]
    refine congrArg (Option.map · _) (funext fun n => ?_)
    rw [Function.comp_apply, Nat.add_right_comm, List.drop_succ_cons]

/-- A closing sign does not begin with any other character. -/
lemma closed?_cons_of_ne {c : Char} (h : c ≠ '*') (text : List Char) :
    closed? (c :: text) = closed? text := by
  have hsign : startsWith "*/".toList (c :: text) = false := by
    simp [startsWith, after?, Ne.symm h]
  rw [closed?_cons, hsign]
  rfl

/-- No blank belongs to a closing sign. -/
lemma closed?_trimStart (text : List Char) : closed? (trimStart text) = closed? text := by
  induction text with
  | nil => rfl
  | cons c text ih =>
    by_cases hc : isBlank c = true
    · have hne : c ≠ '*' := by
        rintro rfl
        exact absurd hc (by decide)
      rw [trimStart, List.dropWhile_cons_of_pos hc, ← trimStart, ih, closed?_cons_of_ne hne]
    · rw [trimStart, List.dropWhile_cons_of_neg hc]

/-- A text that opens a comment begins with its sign. -/
lemma trimStart_of_opened (h : opened? text = some body) : trimStart text = '/' :: '*' :: body :=
  after?_eq_some_iff.1 h

/-- From the opening sign on, the first closing sign may begin within that sign. -/
lemma closed?_of_opened (h : opened? text = some body) :
    closed? text = if body.head? = some '/' then some (body.drop 1) else closed? body := by
  have hsign : startsWith "*/".toList ('*' :: body) = true ↔ body.head? = some '/' := by
    rw [startsWith_iff]
    cases body with
    | nil => simp
    | cons c body => simp
  rw [← closed?_trimStart, trimStart_of_opened h, closed?_cons_of_ne (by decide), closed?_cons]
  simp only [hsign]

/-- What begins with an opening sign declares nothing. -/
lemma not_declares_of_opened {kind : Kind} {name : List Char} (h : opened? text = some body) :
    ¬ Declares (trimStart text) kind name := by
  rw [trimStart_of_opened h]
  exact not_declares_cons (by decide) _ kind name

end Signs

/-! ## One line -/

/-- What the reader takes for code: what follows the first closing sign, if the text begins with an
opening one. -/
def readOnce (text : List Char) : Option (List Char) :=
  if (opened? text).isSome then (closed? text).map trimStart else some (trimStart text)

section Reading

variable {text body : List Char} {inComment missed : Bool} {kind : Kind} {name : List Char}

/-- The reader takes the code behind the comment in which a line begins. -/
lemma uncomment_eq_bind (inComment : Bool) (text : List Char) :
    uncomment inComment text = (front? inComment text).bind readOnce := by
  have honce : ∀ text, (if startsWith "/*".toList (trimStart text) then afterComment? (trimStart text)
      else some (trimStart text)) = readOnce text := by
    intro text
    rw [readOnce, afterComment?, ← closed?, closed?_trimStart]
    rfl
  rw [uncomment, front?]
  cases inComment with
  | false => exact honce text
  | true =>
    show (afterComment? (trimStart text)).bind _ = (closed? text).bind readOnce
    rw [afterComment?, ← closed?, closed?_trimStart, Option.bind_map]
    exact congrArg _ (funext honce)

/-- No comment opens behind the one in which the text begins. -/
lemma firstOpened?_true_eq_none :
    firstOpened? true body = none ↔ ∀ rest, closed? body = some rest → opened? rest = none :=
  Option.bind_eq_none_iff

/-- A line is plain if the first comment on it does not begin with a slash and no other one follows.
-/
lemma isPlain_iff : isPlain inComment text = true ↔ ∀ body,
    firstOpened? inComment text = some body →
      body.head? ≠ some '/' ∧ firstOpened? true body = none := by
  rw [isPlain]
  cases firstOpened? inComment text with
  | none => simp
  | some body => simp

/-- A plain line is read as it is. -/
lemma uncomment_of_isPlain (h : isPlain inComment text = true) :
    uncomment inComment text = codeBehind inComment text := by
  rw [uncomment_eq_bind, codeBehind_eq_bind]
  rw [isPlain_iff, firstOpened?] at h
  refine Option.bind_congr fun rest hrest => ?_
  rw [hrest, Option.bind_some] at h
  rw [readOnce]
  cases hopened : opened? rest with
  | none => exact (codeBehind_false_of_none hopened).symm
  | some body =>
    obtain ⟨hhead, hnext⟩ := h body hopened
    rw [codeBehind_false_of_some hopened, codeBehind_true, closed?_of_opened hopened,
      if_neg hhead, Option.map_eq_bind]
    refine Option.bind_congr fun further hfurther => ?_
    exact (codeBehind_false_of_none (firstOpened?_true_eq_none.1 hnext further hfurther)).symm

/-- If a line is not plain, then the reader takes a comment on it for closed. What it reads as code
declares nothing, unless it stands directly behind a `/*/`.

**Proof sketch.** If the comment begins with a slash, the reader closes it there and reads what
follows the slash. If another comment opens behind it, the reader reads from there on, and an
opening sign declares nothing. -/
lemma uncomment_of_not_isPlain (h : isPlain inComment text = false) :
    ∃ code, uncomment inComment text = some code
      ∧ ∀ kind name, Declares code kind name ↔ ∃ inner,
        firstOpened? inComment text = some ('/' :: inner)
          ∧ Declares (trimStart inner) kind name := by
  have hplain : ¬ isPlain inComment text = true := by simp [h]
  simp only [isPlain_iff, not_forall, not_and] at hplain
  obtain ⟨body, hbody, hwrong⟩ := hplain
  obtain ⟨rest, hrest, hopened⟩ := Option.bind_eq_some_iff.1 hbody
  rw [uncomment_eq_bind, hrest, hbody, Option.bind_some, readOnce, hopened, Option.isSome_some,
    if_pos rfl, closed?_of_opened hopened]
  by_cases hhead : body.head? = some '/'
  · obtain ⟨inner, rfl⟩ := List.head?_eq_some_iff.1 hhead
    refine ⟨trimStart inner, rfl, fun kind name => ⟨fun hd => ⟨inner, rfl, hd⟩, ?_⟩⟩
    rintro ⟨inner, heq, hd⟩
    cases heq
    exact hd
  · obtain ⟨nested, hnested⟩ := Option.ne_none_iff_exists'.1 (hwrong hhead)
    obtain ⟨further, hfurther, hnext⟩ := Option.bind_eq_some_iff.1 hnested
    have hclosed : closed? body = some further := hfurther
    rw [if_neg hhead, hclosed]
    refine ⟨trimStart further, rfl, fun kind name => ⟨fun hd => ?_, ?_⟩⟩
    · exact absurd hd (not_declares_of_opened hnext)
    · rintro ⟨inner, heq, -⟩
      cases heq
      exact absurd rfl hhead

/-- Within a missed comment, a line that begins with no opening sign is taken for code. -/
lemma uncomment_of_missed (h : opened? text = none) :
    uncomment false text = some (trimStart text) := by
  rw [uncomment_eq_bind, front?, if_neg (by decide), Option.bind_some, readOnce, h]
  rfl

/-- An opening sign at the front of the line shows the reader the comment that it has missed. -/
lemma uncomment_of_shown (h : opened? text = some body) :
    uncomment false text = (closed? text).map trimStart := by
  rw [uncomment_eq_bind, front?, if_neg (by decide), Option.bind_some, readOnce, h]
  rfl

/-- A missed comment is shown to the reader by an opening sign at the front, behind which none
follows. -/
lemma isFollowed_missed : isFollowed true true text = true
    ↔ (∃ body, opened? text = some body) ∧ firstOpened? true text = none := by
  rw [isFollowed, if_pos rfl, Bool.and_eq_true, Option.isSome_iff_exists,
    Option.isNone_iff_eq_none]

/-- A comment is open behind the line for the reader if it is, and the reader has followed the
line.

**Proof sketch.** If the reader knows of the comment, a plain line is read as it is, and on any
other line it takes a comment for closed. If it has missed the comment, it needs the opening sign at
the front of the line, and then it reads on as if it had known of it. -/
lemma isNone_uncomment (h : missed = true → inComment = true) :
    (uncomment (inComment && !missed) text).isNone
      = ((codeBehind inComment text).isNone && isFollowed missed inComment text) := by
  cases missed with
  | false =>
    rw [Bool.not_false, Bool.and_true, isFollowed, if_neg (by decide)]
    cases hplain : isPlain inComment text with
    | true => rw [uncomment_of_isPlain hplain, Bool.and_true]
    | false =>
      obtain ⟨code, hcode, -⟩ := uncomment_of_not_isPlain hplain
      rw [hcode, Bool.and_false]
      rfl
  | true =>
    obtain rfl := h rfl
    cases hopened : opened? text with
    | none =>
      have hnot : isFollowed true true text = false := by
        simp [isFollowed, hopened]
      rw [hnot, Bool.and_false]
      exact congrArg Option.isNone (uncomment_of_missed hopened)
    | some body =>
      rw [Bool.not_true, Bool.and_false, uncomment_of_shown hopened, codeBehind_true]
      cases hclosed : closed? text with
      | none => simp [isFollowed, hopened, firstOpened?, front?, hclosed]
      | some rest =>
        cases hnext : opened? rest with
        | none => simp [codeBehind_false_of_none hnext]
        | some nested => simp [isFollowed, firstOpened?, front?, hclosed, hnext]

/-- Out of a comment that the reader knows, only what stands behind `/*/` leaks. -/
lemma leaks_known_iff : Leaks false inComment text kind name ↔ ∃ inner,
    firstOpened? inComment text = some ('/' :: inner) ∧ Declares (trimStart inner) kind name := by
  constructor
  · rintro (⟨-, hmissed, -⟩ | ⟨-, hopened, hd⟩)
    · cases hmissed
    · exact ⟨_, hopened, hd⟩
  · rintro ⟨inner, hopened, hd⟩
    exact .overlapping rfl hopened hd

/-- Out of a comment that the reader has missed, what the front of the line declares leaks. -/
lemma leaks_missed_iff : Leaks true true text kind name ↔ Declares (trimStart text) kind name := by
  constructor
  · rintro (⟨-, -, hd⟩ | ⟨hknown, -, -⟩)
    · exact hd
    · cases hknown
  · exact .missed rfl rfl

/-- What is read off a line, if the reader knows of the comment in which it begins.

**Proof sketch.** A plain line is read as it is, and nothing leaks out of it. What is read off any
other line is what leaks. -/
lemma declares_iff_known :
    (∃ code, uncomment inComment text = some code ∧ Declares code kind name)
      ↔ isFollowed false inComment text = true
          ∧ DeclaresBehind inComment text kind name
        ∨ Leaks false inComment text kind name := by
  rw [leaks_known_iff, isFollowed, if_neg (by decide)]
  cases hplain : isPlain inComment text with
  | true =>
    rw [uncomment_of_isPlain hplain]
    refine ⟨fun h => .inl ⟨rfl, h⟩, ?_⟩
    rintro (⟨-, h⟩ | ⟨inner, hopened, -⟩)
    · exact h
    · exact absurd rfl (isPlain_iff.1 hplain _ hopened).1
  | false =>
    obtain ⟨code, hcode, hdeclares⟩ := uncomment_of_not_isPlain hplain
    simp [hcode, hdeclares]

/-- What is read off a line, if the reader has missed the comment in which it begins.

**Proof sketch.** Without an opening sign at its front the line leaks. With one it declares nothing
at its front, and what follows the closing sign is code, unless another comment opens there. -/
lemma declares_iff_missed :
    (∃ code, uncomment false text = some code ∧ Declares code kind name)
      ↔ isFollowed true true text = true
          ∧ DeclaresBehind true text kind name
        ∨ Leaks true true text kind name := by
  rw [leaks_missed_iff, isFollowed_missed, DeclaresBehind, codeBehind_true]
  cases hopened : opened? text with
  | none => simp [uncomment_of_missed hopened]
  | some body =>
    have hfront : ¬ Declares (trimStart text) kind name := not_declares_of_opened hopened
    rw [uncomment_of_shown hopened, firstOpened?_true_eq_none]
    cases hclosed : closed? text with
    | none => simp [hfront]
    | some rest =>
      cases hnext : opened? rest with
      | none => simp [hfront, hnext, codeBehind_false_of_none hnext]
      | some nested => simp [hfront, hnext, not_declares_of_opened hnext]

/-- **What is read off a line** is declared by its code, if the reader has followed the line, or it
leaks out of a comment. -/
theorem declares_iff (h : missed = true → inComment = true) :
    (∃ code, uncomment (inComment && !missed) text = some code ∧ Declares code kind name)
      ↔ isFollowed missed inComment text = true
          ∧ DeclaresBehind inComment text kind name
        ∨ Leaks missed inComment text kind name := by
  cases missed with
  | false =>
    rw [Bool.not_false, Bool.and_true]
    exact declares_iff_known
  | true =>
    rw [h rfl]
    exact declares_iff_missed

end Reading

/-! ## All lines -/

section Scripts

variable {texts : List (List Char)} {i : Nat}

/-- What the reader has missed is a comment. -/
lemma openAt_of_missedAt (h : missedAt texts i = true) : openAt texts i = true := by
  cases i with
  | zero => cases h
  | succ i =>
    rw [missedAt, Bool.and_eq_true] at h
    exact h.1

/-- **The reader knows of the comments that it has not missed.**

**Proof sketch.** Induction on the lines before. Each of them leaves a comment open for the reader
if it does leave one open and the reader has followed it (`isNone_uncomment`). -/
theorem commentedBefore_eq (hi : i ≤ texts.length) :
    commentedBefore texts i = (openAt texts i && !missedAt texts i) := by
  induction i with
  | zero => rfl
  | succ i ih =>
    have htext : texts[i]? = some texts[i] := List.getElem?_eq_getElem hi
    rw [commentedBefore_succ htext, ih (Nat.le_of_succ_le hi),
      isNone_uncomment openAt_of_missedAt, missedAt, openAt, htext, Option.getD_some]
    cases (codeBehind (openAt texts i) texts[i]).isNone with
    | false => rfl
    | true => rw [Bool.true_and, Bool.true_and, Bool.true_and, Bool.not_not]

/-- Where all lines are plain, nothing is missed. -/
lemma missedAt_of_isPlain
    (h : ∀ i text, texts[i]? = some text → isPlain (openAt texts i) text = true) (i : Nat) :
    missedAt texts i = false := by
  induction i with
  | zero => rfl
  | succ i ih =>
    have hplain : isPlain (openAt texts i) (texts[i]?.getD []) = true := by
      cases htext : texts[i]? with
      | none =>
        cases openAt texts i with
        | false => rfl
        | true => rfl
      | some text => exact h i text htext
    rw [missedAt, ih, isFollowed, if_neg (by decide), hplain, Bool.not_true, Bool.and_false]

end Scripts

end Nsis

namespace Language

open Nsis

/-- **Block comments.** What is reported of a script is declared by the code behind all comments of
its line, if the reader has followed the line, or it leaks out of a comment: a line within a comment
that was missed declares it at its front, or a comment that opens with `/*/` declares it behind this
sign. Where no line opens a comment behind another one or by a `/*/`, what is reported is what the
code declares, and nothing comes from within a comment.

**Proof sketch.** What is read off a line is known line by line (`declares_iff`), and which comments
the reader knows of is known too (`commentedBefore_eq`). On plain lines none is missed and nothing
leaks. -/
theorem scan_nsis_comments (lines : List String) :
    let texts := lines.map String.toList
    (∀ kind e, e ∈ (nsis.scan lines).get kind ↔ ∃ i text name,
      texts[i]? = some text ∧ e = Draft.leafOf kind (.ofList name) i
        ∧ (isFollowed (missedAt texts i) (openAt texts i) text = true
            ∧ DeclaresBehind (openAt texts i) text kind name
          ∨ Leaks (missedAt texts i) (openAt texts i) text kind name))
    ∧ ((∀ i text, texts[i]? = some text → isPlain (openAt texts i) text = true) →
      ∀ kind e, e ∈ (nsis.scan lines).get kind ↔ ∃ i text name,
        texts[i]? = some text ∧ e = Draft.leafOf kind (.ofList name) i
          ∧ DeclaresBehind (openAt texts i) text kind name) := by
  intro texts
  have hscan : ∀ kind e, e ∈ (nsis.scan lines).get kind ↔ ∃ i text name,
      texts[i]? = some text ∧ e = Draft.leafOf kind (.ofList name) i
        ∧ (isFollowed (missedAt texts i) (openAt texts i) text = true
            ∧ DeclaresBehind (openAt texts i) text kind name
          ∨ Leaks (missedAt texts i) (openAt texts i) text kind name) := by
    intro kind e
    have hread : ∀ i text name, texts[i]? = some text →
        ((∃ code, uncomment (commentedBefore texts i) text = some code ∧ Declares code kind name)
          ↔ isFollowed (missedAt texts i) (openAt texts i) text = true
              ∧ DeclaresBehind (openAt texts i) text kind name
            ∨ Leaks (missedAt texts i) (openAt texts i) text kind name) := by
      intro i text name htext
      obtain ⟨hi, -⟩ := List.getElem?_eq_some_iff.1 htext
      rw [commentedBefore_eq (Nat.le_of_lt hi)]
      exact declares_iff openAt_of_missedAt
    rw [mem_scan_iff]
    constructor
    · rintro ⟨i, text, code, name, htext, hcode, hdeclares, he⟩
      exact ⟨i, text, name, htext, he, (hread i text name htext).1 ⟨code, hcode, hdeclares⟩⟩
    · rintro ⟨i, text, name, htext, he, hdeclared⟩
      obtain ⟨code, hcode, hdeclares⟩ := (hread i text name htext).2 hdeclared
      exact ⟨i, text, code, name, htext, hcode, hdeclares, he⟩
  refine ⟨hscan, fun hplain kind e => ?_⟩
  rw [hscan]
  refine exists₃_congr fun i text name => and_congr_right fun htext => and_congr_right fun _ => ?_
  have hline : isPlain (openAt texts i) text = true := hplain i text htext
  rw [missedAt_of_isPlain hplain, leaks_known_iff, isFollowed, if_neg (by decide), hline]
  constructor
  · rintro (⟨-, h⟩ | ⟨inner, hopened, -⟩)
    · exact h
    · exact absurd rfl (isPlain_iff.1 hline _ hopened).1
  · exact fun h => .inl ⟨rfl, h⟩

/-- Comments that go on for some lines, or stand in front of code. -/
theorem scan_nsis_comments_plain :
    let lines := ["/* Section Hidden", "Function Inner */ Function Outer", "/* x */ Section Shown"]
    let texts := lines.map String.toList
    (∀ i text, texts[i]? = some text → isPlain (openAt texts i) text = true)
      ∧ ∀ kind e, e ∈ (nsis.scan lines).get kind ↔ ∃ i text name,
        texts[i]? = some text ∧ e = Draft.leafOf kind (.ofList name) i
          ∧ DeclaresBehind (openAt texts i) text kind name := by
  intro lines texts
  have hplain : ∀ i text, texts[i]? = some text → isPlain (openAt texts i) text = true := by
    have hall : ∀ i (hi : i < texts.length), isPlain (openAt texts i) texts[i] = true := by
      decide +kernel
    intro i text htext
    obtain ⟨hi, rfl⟩ := List.getElem?_eq_some_iff.1 htext
    exact hall i hi
  exact ⟨hplain, (scan_nsis_comments lines).2 hplain⟩

/-- The opening sign of a comment is taken for its closing sign, and a comment behind another one is
missed, so that a function within each of them is reported.

**Proof sketch.** Both scripts are computed. In the first one all code is behind the comment, and
there is none. -/
theorem scan_nsis_comments_overlooked :
    Draft.leafOf .functions "A" 0 ∈ (nsis.scan ["/*/ Function A */"]).get .functions
      ∧ Draft.leafOf .functions "B" 1
        ∈ (nsis.scan ["/* a */ /* b", "Function B", "*/"]).get .functions
      ∧ ¬ ∀ (lines : List String) (kind : Kind) (name : String) (i : Nat),
        Draft.leafOf kind name i ∈ (nsis.scan lines).get kind →
          ∃ text, (lines.map String.toList)[i]? = some text
            ∧ DeclaresBehind (openAt (lines.map String.toList) i) text kind name.toList := by
  have hreported : ∀ (lines : List String) (i : Nat) (text code name : List Char),
      (lines.map String.toList)[i]? = some text →
        uncomment (commentedBefore (lines.map String.toList) i) text = some code →
        declaration? code = some (.functions, name) →
          Draft.leafOf .functions (.ofList name) i ∈ (nsis.scan lines).get .functions :=
    fun lines i text code name htext hcode hdeclared =>
      mem_scan_iff.2 ⟨i, text, code, name, htext, hcode, declaration?_eq_some_iff.1 hdeclared, rfl⟩
  have hoverlapping : Draft.leafOf .functions "A" 0
      ∈ (nsis.scan ["/*/ Function A */"]).get .functions :=
    hreported _ 0 _ "Function A */".toList ['A'] rfl (by decide +kernel) (by decide +kernel)
  refine ⟨hoverlapping, ?_, fun h => ?_⟩
  · exact hreported ["/* a */ /* b", "Function B", "*/"] 1 _ "Function B".toList ['B'] rfl
      (by decide +kernel) (by decide +kernel)
  · obtain ⟨text, htext, code, hcode, hdeclares⟩ := h _ _ _ _ hoverlapping
    obtain rfl := Option.some.inj htext
    have hnothing : codeBehind false "/*/ Function A */".toList = some [] := by decide +kernel
    obtain rfl := Option.some.inj (hnothing.symm.trans hcode)
    have hdeclared : declaration? [] = none := by decide +kernel
    exact absurd (declaration?_eq_some_iff.2 hdeclares) (by rw [hdeclared]; simp)

end Language

end Outliner
