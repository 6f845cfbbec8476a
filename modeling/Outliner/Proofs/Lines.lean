import Mathlib.Tactic.Lemma
import Outliner.Scan

set_option autoImplicit false

/-!
# Lines and their ends

A source is given as lines or as one text. It makes no difference which: the lines of a text are
those that were written down, whether each of them was ended by a line feed alone or by a carriage
return with it.

A line that ends in a carriage return of its own is the exception, since a line feed after it takes
the carriage return along.

## Main results

* `Outliner.splitLines_ended` — the lines of a text are those that were written down.
* `Outliner.Language.scanText_ended` — the document of a text is the document of its lines.
-/

namespace Outliner

/-! ## Reading lines back -/

/-- Characters other than line feeds are kept until the line ends. -/
lemma splitLinesFrom_append {line : List Char} (hfeed : '\n' ∉ line) (current text : List Char) :
    splitLinesFrom current (line ++ text) = splitLinesFrom (line.reverse ++ current) text := by
  induction line generalizing current with
  | nil => rfl
  | cons c line ih =>
    obtain ⟨hc, hline⟩ : '\n' ≠ c ∧ '\n' ∉ line := by
      simpa only [List.mem_cons, not_or] using hfeed
    have hkeep : splitLinesFrom current (c :: (line ++ text))
        = splitLinesFrom (c :: current) (line ++ text) := by
      simp [splitLinesFrom, Ne.symm hc]
    rw [List.cons_append, hkeep, ih hline, List.reverse_cons, List.append_assoc,
      List.singleton_append]

/-- A line feed ends the line before it, if this does not end in a carriage return. -/
lemma splitLines_feed {line : List Char} (hfeed : '\n' ∉ line)
    (hreturn : line.getLast? ≠ some '\r') (text : List Char) :
    splitLines (line ++ '\n' :: text) = line :: splitLines text := by
  have hends : ∀ current : List Char, current.head? ≠ some '\r' →
      splitLinesFrom current ('\n' :: text) = current.reverse :: splitLines text := by
    intro current hcurrent
    rw [splitLinesFrom, if_pos rfl]
    · rfl
    · rintro rest rfl
      exact hcurrent rfl
  rw [splitLines, splitLinesFrom_append hfeed, List.append_nil, hends, List.reverse_reverse]
  rwa [List.head?_reverse]

/-- A carriage return before a line feed belongs to the end of the line. -/
lemma splitLines_return {line : List Char} (hfeed : '\n' ∉ line) (text : List Char) :
    splitLines (line ++ '\r' :: '\n' :: text) = line :: splitLines text := by
  have hends : splitLinesFrom line.reverse ('\r' :: '\n' :: text)
      = line.reverse.reverse :: splitLines text := rfl
  rw [splitLines, splitLinesFrom_append hfeed, List.append_nil, hends, List.reverse_reverse]

/-- **The lines of a text are those that were written down**, whichever of the two ends they were
given.

**Proof sketch.** Induction on the lines, with `splitLines_feed` or `splitLines_return` for the
first one. -/
theorem splitLines_ended {ending : List Char} (hending : ending = ['\n'] ∨ ending = ['\r', '\n'])
    {lines : List (List Char)} (hfeed : ∀ line ∈ lines, '\n' ∉ line)
    (hreturn : ∀ line ∈ lines, line.getLast? ≠ some '\r') :
    splitLines (lines.flatMap (· ++ ending)) = lines := by
  induction lines with
  | nil => rfl
  | cons line lines ih =>
    have hfirst := hfeed line List.mem_cons_self
    have hrest := ih (fun l hl => hfeed l (List.mem_cons_of_mem line hl))
      fun l hl => hreturn l (List.mem_cons_of_mem line hl)
    rw [List.flatMap_cons, List.append_assoc]
    rcases hending with rfl | rfl
    · rw [List.singleton_append, splitLines_feed hfirst (hreturn line List.mem_cons_self), hrest]
    · rw [List.cons_append, List.singleton_append, splitLines_return hfirst, hrest]

/-! ## The two ways to give a source -/

namespace Language

/-- The characters of a text in which every line is written with an end. -/
lemma toList_join_ended (lines : List String) (ending : String) :
    (String.join (lines.map (· ++ ending))).toList
      = (lines.map String.toList).flatMap (· ++ ending.toList) := by
  simp [String.toList_join, List.flatMap_map]

/-- **A source is the same as lines and as a text**, in every language, whether the lines of a text
are ended by line feeds or by carriage returns and line feeds. -/
theorem scanText_ended (language : Language) (lines : List String)
    (hfeed : ∀ line ∈ lines, '\n' ∉ line.toList)
    (hreturn : ∀ line ∈ lines, line.toList.getLast? ≠ some '\r') :
    language.scanText (String.join (lines.map (· ++ "\n"))) = language.scan lines
      ∧ language.scanText (String.join (lines.map (· ++ "\r\n"))) = language.scan lines := by
  have hlines : (lines.map String.toList).map String.ofList = lines := by
    simp [List.map_map, Function.comp_def]
  have hback : ∀ ending : String, ending.toList = ['\n'] ∨ ending.toList = ['\r', '\n'] →
      language.scanText (String.join (lines.map (· ++ ending))) = language.scan lines := by
    intro ending hending
    rw [scanText, toList_join_ended, splitLines_ended hending, hlines]
    · simpa only [List.forall_mem_map] using hfeed
    · simpa only [List.forall_mem_map] using hreturn
  exact ⟨hback "\n" (.inl rfl), hback "\r\n" (.inr rfl)⟩

/-- Lines of which one is empty and one holds a carriage return before its last blank. -/
theorem scanText_ended_return :
    let lines := ["x = \\\r ", "", "class A: pass"]
    (∀ line ∈ lines, '\n' ∉ line.toList) ∧ (∀ line ∈ lines, line.toList.getLast? ≠ some '\r')
      ∧ python.scanText "x = \\\r \n\nclass A: pass\n" = python.scan lines
      ∧ python.scanText "x = \\\r \r\n\r\nclass A: pass\r\n" = python.scan lines := by
  intro lines
  have hfeed : ∀ line ∈ lines, '\n' ∉ line.toList := by decide
  have hreturn : ∀ line ∈ lines, line.toList.getLast? ≠ some '\r' := by decide
  exact ⟨hfeed, hreturn, scanText_ended python lines hfeed hreturn⟩

end Language

end Outliner
