import Outliner.Proofs.Checked.Reading
import Outliner.Proofs.Utf8

set_option autoImplicit false

/-!
# Boundaries of words

Whoever asks for a word at a byte offset may ask for it anywhere: behind the end of the line, or
within a character. Where no character begins, as can be told from a single byte, there is no word.
Everywhere else a word is found if it stands there alone, whatever characters it and its neighbours
are made of. A keyword is a word at the front, and what it leaves is what readers go on with.

## Main results

* `Outliner.Checked.isWordAt_of_not_isFirstByte` — where there is no word.
* `Outliner.Checked.words_delimited` — where words and keywords are found.
-/

namespace Outliner.Checked

/-- No word stands where no character begins. -/
lemma isWordAt_of_not_isFirstByte {line word : List Char} {offset : Nat}
    (h : (Utf8.encode line)[offset]?.any Utf8.isFirstByte = false) :
    Outliner.isWordAt line offset word = false := by
  refine Bool.eq_false_iff.2 fun hword => Bool.eq_false_iff.1 h ?_
  obtain ⟨before, after, rfl, hbytes, halone⟩ := isWordAt_iff.1 hword
  obtain ⟨c, further, rfl⟩ := List.exists_cons_of_ne_nil halone.ne_nil
  exact Utf8.any_isFirstByte_iff.2 ⟨before, c, further ++ after, by simp, hbytes⟩

/-- **Words are found where they stand alone, and keywords are cut off with the blanks behind
them.** Whatever the line and the offset, nothing goes wrong. A word is found at an offset if the
line consists of so many bytes, the word and something behind it, with nothing else than blanks next
to the word; so none is found behind the end of the line or within a character. What a keyword
leaves of a text is all but the keyword and the blanks behind it, of which there are some unless the
text ends.

**Proof sketch.** That nothing goes wrong is known of both operations, and so is what they find in
terms of characters. The offset is counted in bytes, which are those of the text in front of the
word. -/
theorem words_delimited :
    (∀ (line : List Char) (offset : Nat) (word : List Char),
        isWordAt line offset word = .ok (Outliner.isWordAt line offset word)
        ∧ (Outliner.isWordAt line offset word = true ↔ ∃ before after,
          line = before ++ word ++ after ∧ (Utf8.encode before).length = offset
            ∧ StandsAlone before word after)
        ∧ ((Utf8.encode line)[offset]?.any Utf8.isFirstByte = false →
          Outliner.isWordAt line offset word = false))
      ∧ ∀ (text keyword : List Char),
        afterKeyword? keyword text = .ok (Outliner.afterKeyword? keyword text)
        ∧ ∀ rest, Outliner.afterKeyword? keyword text = some rest ↔ keyword ≠ [] ∧ ∃ blanks,
          text = keyword ++ blanks ++ rest ∧ blanks.all isBlank = true
            ∧ rest.head?.any isBlank = false ∧ (blanks ≠ [] ∨ rest = []) := by
  constructor
  · intro line offset word
    refine ⟨isWordAt_eq line offset word, ?_, isWordAt_of_not_isFirstByte⟩
    simp only [Utf8.length_encode]
    exact isWordAt_iff
  · intro text keyword
    exact ⟨afterKeyword?_eq keyword text, fun rest => afterKeyword?_eq_some_iff⟩

/-- A word of five bytes between blanks of three and of two bytes. -/
def accents : List Char := "\u3000été\u00a0x".toList

/-- A word with accents is found at its offset, and not within a character or behind the end. Cut
off as a keyword, it takes a blank of two bytes with it. -/
theorem words_delimited_accents :
    isWordAt accents 3 "été".toList = .ok true
      ∧ (∃ before after, accents = before ++ "été".toList ++ after
        ∧ (Utf8.encode before).length = 3 ∧ StandsAlone before "été".toList after)
      -- within a character, and behind the end
      ∧ (∀ offset ∈ [4, 40], (Utf8.encode accents)[offset]?.any Utf8.isFirstByte = false
        ∧ isWordAt accents offset "été".toList = .ok false)
      ∧ afterKeyword? "été".toList accents.tail = .ok (some ['x']) := by
  have hword := words_delimited.1 accents
  obtain ⟨hruns, hkeyword⟩ := words_delimited.2 accents.tail "été".toList
  have hfound : Outliner.isWordAt accents 3 "été".toList = true := by decide
  have hnone : ∀ offset ∈ [4, 40],
      (Utf8.encode accents)[offset]?.any Utf8.isFirstByte = false := by decide
  have hrest : Outliner.afterKeyword? "été".toList accents.tail = some ['x'] :=
    (hkeyword ['x']).2
      ⟨by decide, ['\u00a0'], by decide, by decide, by decide, .inl (List.cons_ne_nil _ _)⟩
  refine ⟨by rw [(hword 3 _).1, hfound], (hword 3 _).2.1.1 hfound,
    fun offset hoffset => ⟨hnone offset hoffset, ?_⟩, by rw [hruns, hrest]⟩
  rw [(hword offset _).1, (hword offset _).2.2 (hnone offset hoffset)]

end Outliner.Checked
