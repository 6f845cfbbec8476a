import Outliner.ByLine.Nsis
import Outliner.Proofs.Words

set_option autoImplicit false

/-!
# Arguments of an installer script

Arguments are written one after the other with blanks between them. An argument is written between
two quotes of one kind, which do not occur in it, or it is written as it is, if it has no blank and
begins neither like a quoted argument nor like a comment. A comment may follow the arguments. What
is written in this way is read back as it was: blanks and the signs of comments belong to an argument
where they stand between its quotes, and a bare argument ends only at a blank.

## Main definitions

* `Outliner.Nsis.Written` — the ways to write one argument.
* `Outliner.Nsis.Lists` — the ways to write a list of arguments.

## Main results

* `Outliner.Nsis.Lists.arguments_eq` — the arguments in a text are those it lists.
-/

namespace Outliner.Nsis

/-- The characters that may stand around an argument. -/
def quotes : List Char := ['"', '\'', '\x60']

/-- The text writes the argument. -/
inductive Written (argument : List Char) : List Char → Prop where
  /-- Between two quotes of one kind that does not occur in the argument. -/
  | quoted {quote : Char} (hquote : quote ∈ quotes) (hfree : quote ∉ argument) :
    Written argument (quote :: argument ++ [quote])
  /-- As it is, if it has no blank and does not begin like something else. -/
  | bare (hsolid : argument.all (!isBlank ·) = true)
      (hfront : ∀ c ∈ argument.head?, c ∉ quotes ∧ c ≠ ';' ∧ c ≠ '#') : Written argument argument

/-- The text lists the arguments. Blanks set each of them off from what follows; only behind a quote
they may be missing. -/
inductive Lists : List (List Char) → List Char → Prop where
  /-- Behind the arguments may stand blanks. -/
  | blanks {blanks : List Char} (hblanks : blanks.all isBlank = true) : Lists [] blanks
  /-- Behind the arguments may stand a comment. -/
  | comment {blanks : List Char} (hblanks : blanks.all isBlank = true) {sign : Char}
      (hsign : sign = ';' ∨ sign = '#') (remark : List Char) :
    Lists [] (blanks ++ sign :: remark)
  /-- An argument stands in front of others. -/
  | argument {blanks argument text rest : List Char} {others : List (List Char)}
      (hblanks : blanks.all isBlank = true) (hne : argument ≠ []) (hwritten : Written argument text)
      (hends : text = argument → rest.head?.all isBlank = true) (hothers : Lists others rest) :
    Lists (argument :: others) (blanks ++ (text ++ rest))

/-! ## One argument -/

section Reading

variable {c quote : Char} {argument text rest : List Char}

/-- Quotes are three characters. -/
lemma isQuote_iff : isQuote c = true ↔ c ∈ quotes := by
  have hgrave : c.toNat = 0x60 ↔ c = '\x60' := by
    rw [← Char.toNat_inj]
    rfl
  simp [isQuote, quotes, hgrave, or_assoc]

/-- A comment begins with one of two signs. -/
lemma beginsComment_iff : beginsComment c = true ↔ c = ';' ∨ c = '#' := by
  simp [beginsComment]

/-- A quote is no blank and begins no comment. -/
lemma plain_of_isQuote (h : isQuote c = true) : isBlank c = false ∧ beginsComment c = false := by
  have hplain : quotes.all (fun c => !isBlank c && !beginsComment c) = true := by decide
  simpa using List.all_eq_true.1 hplain c (isQuote_iff.1 h)

/-- No sign that begins a comment is a blank. -/
lemma isBlank_of_beginsComment (h : beginsComment c = true) : isBlank c = false := by
  rcases beginsComment_iff.1 h with rfl | rfl
  · decide
  · decide

/-- Blanks in front of the arguments are passed over. -/
lemma arguments_blanks {blanks : List Char} (h : blanks.all isBlank = true) (text : List Char) :
    arguments (blanks ++ text) = arguments text := by
  induction blanks with
  | nil => rfl
  | cons c blanks ih =>
    simp only [List.all_cons, Bool.and_eq_true] at h
    rw [List.cons_append, arguments, if_pos h.1, ih h.2]

/-- There are no arguments behind the sign of a comment. -/
lemma arguments_comment (h : beginsComment c = true) (text : List Char) :
    arguments (c :: text) = [] := by
  have hblank : ¬ isBlank c = true := by simp [isBlank_of_beginsComment h]
  rw [arguments, if_neg hblank, if_pos h]

/-- A quoted argument ends at the next quote of its kind. -/
lemma arguments_quoted (hquote : isQuote quote = true) (hfree : quote ∉ argument)
    (hne : argument ≠ []) (rest : List Char) :
    arguments (quote :: (argument ++ quote :: rest)) = argument :: arguments rest := by
  obtain ⟨hblank, hcomment⟩ := plain_of_isQuote hquote
  have hinside : ∀ c ∈ argument, (c != quote) = true := by
    intro c hc
    simpa using fun heq : c = quote => hfree (heq ▸ hc)
  have htake : (argument ++ quote :: rest).takeWhile (· != quote) = argument := by
    rw [List.takeWhile_append_of_pos hinside]
    simp
  have hdrop : ((argument ++ quote :: rest).dropWhile (· != quote)).drop 1 = rest := by
    rw [List.dropWhile_append_of_pos hinside]
    simp
  rw [arguments]
  simp [hblank, hcomment, hquote, htake, hdrop, hne]

/-- A bare argument ends at the next blank.

**Proof sketch.** All characters of the argument are cut off together, because none of them is a
blank and a blank or nothing follows. Its first character begins neither a comment nor a quoted
argument. -/
lemma arguments_bare (hsolid : argument.all (!isBlank ·) = true)
    (hfront : ∀ c ∈ argument.head?, isQuote c = false ∧ beginsComment c = false)
    (hne : argument ≠ []) (hends : rest.head?.all isBlank = true) :
    arguments (argument ++ rest) = argument :: arguments rest := by
  obtain ⟨c, tail, rfl⟩ := List.exists_cons_of_ne_nil hne
  obtain ⟨hquote, hcomment⟩ := hfront c rfl
  simp only [List.all_cons, Bool.and_eq_true] at hsolid
  have hblank : isBlank c = false := by simpa using hsolid.1
  have hstop : rest.head?.any (!isBlank ·) = false := by
    cases rest with
    | nil => rfl
    | cons d rest => simpa using hends
  have htake : (tail ++ rest).takeWhile (!isBlank ·) = tail := takeWhile_word hsolid.2 hstop
  have hdrop : (tail ++ rest).dropWhile (!isBlank ·) = rest := by
    have hcut := List.takeWhile_append_dropWhile (p := (!isBlank ·)) (l := tail ++ rest)
    rw [htake] at hcut
    exact List.append_cancel_left hcut
  rw [List.cons_append, arguments]
  simp [hblank, hcomment, hquote, htake, hdrop]

/-- An argument is read back whatever follows, if it is quoted or a blank follows it. -/
lemma Written.arguments_append (h : Written argument text) (hne : argument ≠ [])
    (hends : text = argument → rest.head?.all isBlank = true) :
    arguments (text ++ rest) = argument :: arguments rest := by
  cases h with
  | @quoted quote hquote hfree =>
    have htext : quote :: argument ++ [quote] ++ rest = quote :: (argument ++ quote :: rest) := by
      simp
    rw [htext]
    exact arguments_quoted (isQuote_iff.2 hquote) hfree hne rest
  | bare hsolid hfront =>
    refine arguments_bare hsolid (fun c hc => ?_) hne (hends rfl)
    obtain ⟨hquote, hsemicolon, hhash⟩ := hfront c hc
    refine ⟨Bool.eq_false_iff.2 fun h => hquote (isQuote_iff.1 h), ?_⟩
    simp [beginsComment, hsemicolon, hhash]

end Reading

/-! ## Lists of arguments -/

/-- **The arguments in a text are those it lists**, however each of them is quoted and whatever
blanks and comment there are.

**Proof sketch.** Induction on the way in which the list is written. Blanks in front are passed
over; an argument is read back because its quote, a blank or nothing follows it; and the sign of a
comment ends the list. -/
theorem Lists.arguments_eq {list : List (List Char)} {text : List Char} (h : Lists list text) :
    arguments text = list := by
  induction h with
  | blanks hblanks =>
    have hnone := arguments_blanks hblanks []
    rwa [List.append_nil, arguments] at hnone
  | comment hblanks hsign remark =>
    rw [arguments_blanks hblanks, arguments_comment (beginsComment_iff.2 hsign)]
  | argument hblanks hne hwritten hends _ ih =>
    rw [arguments_blanks hblanks, hwritten.arguments_append hne hends, ih]

/-- Blanks and signs of comments within arguments, and a comment behind them. -/
theorem Lists.arguments_eq_commented :
    Lists ["/o".toList, "A # B".toList, "x;y".toList] "/o 'A # B'\tx;y ; tail".toList
      ∧ arguments "/o 'A # B'\tx;y ; tail".toList
        = ["/o".toList, "A # B".toList, "x;y".toList] := by
  have hlists : Lists ["/o".toList, "A # B".toList, "x;y".toList]
      "/o 'A # B'\tx;y ; tail".toList := by
    refine @Lists.argument [] "/o".toList "/o".toList " 'A # B'\tx;y ; tail".toList _ rfl
      (by decide) (.bare (by decide) (by simp [quotes])) (fun _ => by decide) ?_
    refine @Lists.argument " ".toList "A # B".toList "'A # B'".toList "\tx;y ; tail".toList _ rfl
      (by decide) (@Written.quoted _ '\'' (by decide) (by decide)) (fun _ => by decide) ?_
    refine @Lists.argument "\t".toList "x;y".toList "x;y".toList " ; tail".toList _ rfl
      (by decide) (.bare (by decide) (by simp [quotes])) (fun _ => by decide) ?_
    exact @Lists.comment " ".toList rfl ';' (.inl rfl) " tail".toList
  exact ⟨hlists, hlists.arguments_eq⟩

end Outliner.Nsis
