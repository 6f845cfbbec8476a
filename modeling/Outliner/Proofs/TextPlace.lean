import Mathlib.Data.List.Forall2
import Mathlib.Data.List.Infix
import Mathlib.Tactic.Lemma
import Outliner.ByText.Masking
import Outliner.ByText.Place
import Outliner.Text.Line

set_option autoImplicit false

/-!
# From places in a masked text back to lines

Where a source is read as a whole, its lines are joined and masked, and what is found stands at a
place of the masked text. Masking puts a space where something is hidden and nothing else, so a word
without spaces that stands in the masked text stands at the same place in the source. The number of
line ends before a place is the number of the line there, if the lines themselves hold none.

## Main definitions

* `Outliner.Masking.Covers` — what masking may make of a character.
* `Outliner.StandsAt` — a word stands at a place of a text.

## Main results

* `Outliner.Masking.forall₂_covers_mask` — masking works character by character.
* `Outliner.StandsAt.exists_line` — a word of the masked text stands on the line of its place.
* `Outliner.mem_splitLines` — what stands on a line of a text stands at a place of it.
-/

namespace Outliner

/-! ## Masking -/

namespace Masking

/-- What masking may make of a character: the same character, or a space that hides it. An end of a
line is never hidden. -/
def Covers (original masked : Char) : Prop :=
  masked = original ∨ masked = ' ' ∧ original ≠ '\n'

/-- A character covers itself. -/
lemma covers_refl (c : Char) : Covers c c := .inl rfl

/-- A space covers any character but the end of a line. -/
lemma covers_space {c : Char} (h : c ≠ '\n') : Covers c ' ' := .inr ⟨rfl, h⟩

/-- What a character is blanked to covers it. -/
lemma covers_blanked (c : Char) : Covers c (blanked c) := by
  unfold blanked
  split
  · next h => exact .inl h.symm
  · next h => exact .inr ⟨rfl, h⟩

/-- Masking works character by character. -/
theorem forall₂_covers_maskFrom (region : Region) (text : List Char) :
    List.Forall₂ Covers text (maskFrom region text) := by
  fun_induction maskFrom region text with
  | case1 => exact .nil
  | case2 text ih => exact .cons (covers_space (by decide)) (.cons (covers_space (by decide)) ih)
  | case3 text ih => exact .cons (covers_space (by decide)) (.cons (covers_space (by decide)) ih)
  | case4 c text _ _ ih => exact .cons (covers_refl c) ih
  | case5 c text ih => exact .cons (covers_blanked c) ih
  | case6 text ih => exact .cons (covers_space (by decide)) (.cons (covers_space (by decide)) ih)
  | case7 c text _ ih => exact .cons (covers_blanked c) ih
  | case8 => exact .cons (covers_space (by decide)) .nil
  | case9 quote c text ih => exact .cons (covers_space (by decide)) (.cons (covers_blanked c) ih)
  | case10 quote c text _ _ _ ih => exact .cons (covers_refl c) ih
  | case11 quote c text _ _ h ih => exact .cons (covers_space fun hc => h (.inl hc)) ih

/-- A masked text covers the text, character by character. -/
theorem forall₂_covers_mask (text : List Char) : List.Forall₂ Covers text (mask text) :=
  forall₂_covers_maskFrom .code text

/-- Ends of lines stay where they are. -/
lemma count_of_covers {text masked : List Char} (h : List.Forall₂ Covers text masked) :
    masked.count '\n' = text.count '\n' := by
  induction h with
  | nil => rfl
  | @cons original covered text masked hc _ ih =>
    rcases hc with rfl | ⟨rfl, hne⟩
    · rw [List.count_cons, List.count_cons, ih]
    · rw [List.count_cons_of_ne (by decide), List.count_cons_of_ne hne, ih]

/-- A word without spaces is not hidden. -/
lemma prefix_of_covers {text masked word : List Char} (h : List.Forall₂ Covers text masked)
    (hword : word <+: masked) (hsolid : ∀ c ∈ word, c ≠ ' ') : word <+: text := by
  induction h generalizing word with
  | nil => exact hword
  | @cons original covered text masked hc _ ih =>
    cases word with
    | nil => exact List.nil_prefix
    | cons c word =>
      obtain ⟨rfl, hrest⟩ := List.cons_prefix_cons.1 hword
      have hsame : c = original := by
        rcases hc with hsame | ⟨hspace, -⟩
        · exact hsame
        · exact absurd hspace (hsolid c List.mem_cons_self)
      exact List.cons_prefix_cons.2
        ⟨hsame, ih hrest fun d hd => hsolid d (List.mem_cons_of_mem c hd)⟩

end Masking

/-! ## Words at places -/

/-- The word stands at the place of the text. A word holds neither spaces nor ends of lines, and is
not empty. -/
structure StandsAt (text : List Char) (place : Nat) (word : List Char) : Prop where
  /-- The text goes on with the word there. -/
  begins : word <+: text.drop place
  /-- The word is not empty. -/
  nonempty : word ≠ []
  /-- The word holds neither spaces nor ends of lines. -/
  solid : ∀ c ∈ word, c ≠ ' ' ∧ c ≠ '\n'

/-- A word stands before the end of the text. -/
lemma StandsAt.place_lt {text word : List Char} {place : Nat} (h : StandsAt text place word) :
    place < text.length := by
  refine Nat.lt_of_not_le fun hle => h.nonempty ?_
  have hbegins := h.begins
  rw [List.drop_eq_nil_of_le hle] at hbegins
  exact List.prefix_nil.1 hbegins

/-- What stands in a masked text stands there in the text itself. -/
lemma StandsAt.of_mask {text word : List Char} {place : Nat}
    (h : StandsAt (Masking.mask text) place word) : StandsAt text place word :=
  ⟨Masking.prefix_of_covers (List.forall₂_drop place (Masking.forall₂_covers_mask text)) h.begins
    fun c hc => (h.solid c hc).1, h.nonempty, h.solid⟩

/-- Masking keeps the line of every place. -/
lemma Place.line_mask (text : List Char) (place : Nat) :
    Place.line (Masking.mask text) place = Place.line text place :=
  Masking.count_of_covers (List.forall₂_take place (Masking.forall₂_covers_mask text))

/-- A word without line ends at the beginning of a line and what follows it is on this line. -/
lemma prefix_of_prefix_append {word line rest : List Char} (hword : ∀ c ∈ word, c ≠ '\n')
    (h : word <+: line ++ '\n' :: rest) : word <+: line := by
  induction word generalizing line with
  | nil => exact List.nil_prefix
  | cons c word ih =>
    have hc : c ≠ '\n' := hword c List.mem_cons_self
    cases line with
    | nil => exact absurd (List.cons_prefix_cons.1 h).1 hc
    | cons d line =>
      obtain ⟨rfl, hrest⟩ := List.cons_prefix_cons.1 h
      exact List.cons_prefix_cons.2
        ⟨rfl, ih (fun e he => hword e (List.mem_cons_of_mem c he)) hrest⟩

/-- Beyond the end of a line so many characters are dropped from the next line. -/
lemma drop_past_line (line rest : List Char) (further : Nat) :
    (line ++ '\n' :: rest).drop (line.length + (further + 1)) = rest.drop further := by
  rw [List.drop_length_add_append, List.drop_succ_cons]

/-- Beyond a line and its end, the lines are counted one further. -/
lemma Place.line_past_line {line : List Char} (h : '\n' ∉ line) (rest : List Char)
    (further : Nat) :
    Place.line (line ++ '\n' :: rest) (line.length + (further + 1))
      = Place.line rest further + 1 := by
  rw [Place.line, Place.line, List.take_length_add_append, List.take_succ_cons, List.count_append,
    List.count_cons_self, List.count_eq_zero.2 h, Nat.zero_add]

/-- A word that stands at a place of the joined lines stands on the line of this place.

**Proof sketch.** Induction on the lines. A place within the first line has no line end before it,
and the word does not go beyond the end of the line. Any other place lies in the rest, one line
end further on. -/
theorem StandsAt.exists_line {lines : List (List Char)} (hlines : ∀ line ∈ lines, '\n' ∉ line)
    {place : Nat} {word : List Char} (h : StandsAt (joinLines lines) place word) :
    ∃ text, lines[Place.line (joinLines lines) place]? = some text ∧ word <:+: text := by
  induction lines generalizing place with
  | nil =>
    have hnil : word <+: [] := by simpa [joinLines] using h.begins
    exact absurd (List.prefix_nil.1 hnil) h.nonempty
  | cons line lines ih =>
    have hjoin : joinLines (line :: lines) = line ++ '\n' :: joinLines lines := by
      simp [joinLines]
    have hline : '\n' ∉ line := hlines line List.mem_cons_self
    rw [hjoin] at h ⊢
    by_cases hplace : place ≤ line.length
    · have hnone : Place.line (line ++ '\n' :: joinLines lines) place = 0 := by
        rw [Place.line, List.take_append_of_le_length hplace, List.count_eq_zero]
        exact fun hmem => hline (List.mem_of_mem_take hmem)
      have hbegins := h.begins
      rw [List.drop_append_of_le_length hplace] at hbegins
      rw [hnone]
      refine ⟨line, rfl, ?_⟩
      exact (prefix_of_prefix_append (fun c hc => (h.solid c hc).2) hbegins).isInfix.trans
        (List.drop_suffix place line).isInfix
    · obtain ⟨further, rfl⟩ : ∃ further, place = line.length + (further + 1) :=
        ⟨place - line.length - 1, by omega⟩
      have hstands : StandsAt (joinLines lines) further word := by
        refine ⟨?_, h.nonempty, h.solid⟩
        have hbegins := h.begins
        rwa [drop_past_line] at hbegins
      rw [Place.line_past_line hline, List.getElem?_cons_succ]
      exact ih (fun l hl => hlines l (List.mem_cons_of_mem line hl)) hstands

/-! ## Lines of a text -/

/-- The line that ends at a line end is a beginning of what was read of it. -/
lemma endedLine_isPrefix (current : List Char) :
    (match current with
      | '\r' :: line => line.reverse
      | line => line.reverse) <+: current.reverse := by
  split
  · next line =>
    rw [List.reverse_cons]
    exact List.prefix_append _ _
  · exact List.prefix_refl _

/-- A line stands at a place with as many line ends before it as the number of the line says.

**Proof sketch.** Induction on the text. At a line end the line that was being read is finished; the
lines that follow lie in the rest, one line end further on. -/
lemma splitLinesFrom_place {current text content : List Char} {i : Nat} (hcurrent : '\n' ∉ current)
    (h : (splitLinesFrom current text)[i]? = some content) :
    '\n' ∉ content ∧ ∃ place, content <+: (current.reverse ++ text).drop place
      ∧ Place.line (current.reverse ++ text) place = i := by
  induction text generalizing current i with
  | nil =>
    unfold splitLinesFrom at h
    split at h
    · exact absurd h (by simp)
    · obtain ⟨rfl, rfl⟩ : i = 0 ∧ current.reverse = content := by
        cases i with
        | zero => exact ⟨rfl, by simpa using h⟩
        | succ i => exact absurd h (by simp)
      refine ⟨fun hmem => hcurrent (List.mem_reverse.1 hmem), 0, ?_, rfl⟩
      rw [List.append_nil, List.drop_zero]
  | cons c text ih =>
    unfold splitLinesFrom at h
    split at h
    -- a line end, behind which the other lines stand
    · next hc =>
      subst hc
      cases i with
      | zero =>
        obtain rfl := Option.some.inj h
        have hended := endedLine_isPrefix current
        refine ⟨fun hmem => hcurrent (List.mem_reverse.1 (hended.subset hmem)), 0, ?_, rfl⟩
        exact hended.trans (List.prefix_append _ _)
      | succ i =>
        rw [List.getElem?_cons_succ] at h
        obtain ⟨hcontent, place, hbegins, hline⟩ := ih List.not_mem_nil h
        rw [List.reverse_nil, List.nil_append] at hbegins hline
        have hread : '\n' ∉ current.reverse := fun hmem => hcurrent (List.mem_reverse.1 hmem)
        refine ⟨hcontent, current.reverse.length + (place + 1), ?_, ?_⟩
        · rwa [drop_past_line]
        · rw [Place.line_past_line hread, hline]
    -- another character of the line that is being read
    · next hc =>
      have hread : '\n' ∉ c :: current := by
        rw [List.mem_cons]
        rintro (heq | hmem)
        · exact hc heq.symm
        · exact hcurrent hmem
      have hwhole : (c :: current).reverse ++ text = current.reverse ++ c :: text := by
        rw [List.reverse_cons, List.append_assoc, List.singleton_append]
      rw [← hwhole]
      exact ih hread h

/-- A word on a line of a text stands at a place of the text, and this place has the number of the
line.

**Proof sketch.** The line begins at a place of the text (`splitLinesFrom_place`), and the word
stands so many characters behind as the line has in front of it. As a line has no line break, the
word has the number of the line. -/
theorem mem_splitLines {text content word : List Char} {i : Nat}
    (h : (splitLines text)[i]? = some content) (hword : word <:+: content) :
    ∃ place, word <+: text.drop place ∧ Place.line text place = i := by
  obtain ⟨hcontent, place, hbegins, hline⟩ := splitLinesFrom_place List.not_mem_nil h
  rw [List.reverse_nil, List.nil_append] at hbegins hline
  obtain ⟨before, after, hsplit⟩ := hword
  obtain ⟨rest, hrest⟩ := hbegins
  have hdrop : text.drop place = before ++ (word ++ (after ++ rest)) := by
    rw [← hrest, ← hsplit, List.append_assoc, List.append_assoc]
  refine ⟨place + before.length, ?_, ?_⟩
  · rw [← List.drop_drop, hdrop, List.drop_left]
    exact List.prefix_append _ _
  · have hbefore : before.count '\n' = 0 := by
      refine List.count_eq_zero.2 fun hmem => hcontent ?_
      rw [← hsplit]
      exact List.mem_append_left _ (List.mem_append_left _ hmem)
    rw [Place.line, List.take_add, hdrop, List.take_left, List.count_append, hbefore, Nat.add_zero]
    exact hline

end Outliner
