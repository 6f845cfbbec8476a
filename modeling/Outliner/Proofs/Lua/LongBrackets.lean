import Mathlib.Tactic.Lemma
import Outliner.Scan
import Outliner.Proofs.Comments
import Outliner.Proofs.Passage

set_option autoImplicit false

/-!
# Long brackets are opaque

A long bracket of a level, which holds a comment or a string, ends at the first closing bracket of
its own level. What it holds until then makes no difference to the document: words, quotes, signs of
comments, and brackets of any other level. What is found in a source with a long bracket is what is
found in front of it and behind it.

## Main definitions

* `Outliner.Lua.opening` — what opens a long bracket of a level.
* `Outliner.Lua.levelAfter` — the level of the long bracket that is open behind some lines.
* `Outliner.Lua.marksBehind` — what is found behind a closing bracket.

## Main results

* `Outliner.Lua.passes_opening`, `Outliner.Lua.passes_closing` — a long bracket is opened and
  closed.
* `Outliner.Lua.readLines_hidden` — within a long bracket nothing changes.
* `Outliner.Lua.marks_longBracket` — what is found in a source with a long bracket.
* `Outliner.Language.scan_lua_longBracket` — what a long bracket holds makes no difference.
-/

namespace Outliner

namespace Lua

open Cursor (Passes)

/-- What opens a long bracket of a level. -/
def opening (level : Nat) : List Char := '[' :: (List.replicate level '=' ++ ['['])

/-- The level of the long bracket that is open behind the lines, if one is. -/
def levelAfter (lines : List (List Char)) : Option Nat := (readLines readLine 0 none lines).1

section Brackets

variable {level line first : Nat} {front before text rest : List Char}

/-! ## The opening bracket -/

/-- The equals signs of a bracket are counted. -/
lemma takeWhile_signs (level : Nat) (rest : List Char) :
    (List.replicate level '=' ++ '[' :: rest).takeWhile (· == '=') = List.replicate level '=' := by
  rw [List.takeWhile_append_of_pos (by simp [List.mem_replicate])]
  simp

/-- An opening bracket is recognized with its level and passed over. -/
lemma longBracket?_opening (level : Nat) (before rest : List Char) :
    longBracket? ⟨before, opening level ++ rest⟩
      = some (level, ⟨(opening level).reverse ++ before, rest⟩) := by
  have hlength : (opening level).length = level + 2 := by simp [opening]
  have hlevel : (((⟨before, opening level ++ rest⟩ : Cursor).next.after.takeWhile
      (· == '=')).length) = level := by
    have hafter : (⟨before, opening level ++ rest⟩ : Cursor).next.after
        = List.replicate level '=' ++ '[' :: rest := by
      simp [opening, Cursor.next, Cursor.forward]
    rw [hafter, takeWhile_signs, List.length_replicate]
  have hlast : (⟨before, opening level ++ rest⟩ : Cursor).peekAt? (level + 1) = some '[' := by
    simp [Cursor.peekAt?, opening]
  have hfirst : (⟨before, opening level ++ rest⟩ : Cursor).peek? = some '[' := rfl
  simp only [longBracket?, hfirst, if_true, hlevel, hlast]
  rw [← hlength, Cursor.forward_over]

/-- **A long bracket is opened**, alone or behind the sign of a comment.

**Proof sketch.** Alone the bracket does not begin with the sign of a comment, so it is looked for
where it stands. Behind the sign of a comment it is looked for behind the sign. Either way one step
passes over all of it. -/
lemma passes_opening (hfront : front = [] ∨ front = "--".toList) :
    Passes (step line) none before (front ++ opening level) rest (some level) [] := by
  obtain rfl | rfl := hfront
  · refine Passes.of_step ?_
    have heat : (⟨before, '[' :: (List.replicate level '=' ++ ['[']) ++ rest⟩ : Cursor).eat?
        "--".toList = none := by
      rw [Cursor.eat?, if_neg]
      simp [Cursor.startsWith_of_ne (show '[' ≠ '-' by decide)]
    have hbracket := longBracket?_opening level before rest
    rw [opening] at hbracket
    simp only [step, heat, hbracket]
    simp
  · have hpasses : Passes (step line) none before ('-' :: '-' :: opening level) rest (some level)
        [] := by
      refine Passes.of_step ?_
      have heat : (⟨before, '-' :: ('-' :: opening level) ++ rest⟩ : Cursor).eat? "--".toList
          = some ⟨'-' :: '-' :: before, opening level ++ rest⟩ := by
        simp [Cursor.eat?, Cursor.startsWith, startsWith, after?, Cursor.forward]
      simp only [step, heat, longBracket?_opening]
      simp
    exact hpasses

/-! ## What a long bracket holds -/

/-- Where its closing bracket does not stand, a long bracket goes on to the end of the line.

**Proof sketch.** The first step looks for the closing bracket in the whole line. As it does not
occur, the step goes to the end of the line. -/
lemma readLine_hidden (htext : ¬ closing level <:+: text) :
    readLine (some level) line text = (some level, []) := by
  have hnone : (Cursor.start text).beyond (closing level) = (false, (Cursor.start text).toEnd) := by
    rw [Cursor.beyond, Cursor.start, offset?_eq_none_iff.2 htext]
  cases text with
  | nil => exact Cursor.walk_end _ _ rfl
  | cons ch text =>
    have hstep : step line (some level) (.start (ch :: text)) ch
        = { state := some level, cursor := (Cursor.start (ch :: text)).toEnd } := by
      simp only [step, hnone]
      rfl
    have hend : (Cursor.start (ch :: text)).toEnd.after = [] := by
      simp [Cursor.toEnd, Cursor.forward]
    have hmoves : (step line (some level) (.start (ch :: text)) ch).cursor.after.length
        < (Cursor.start (ch :: text)).after.length := by
      rw [hstep, hend]
      exact Nat.succ_pos _
    rw [readLine, Cursor.walk_step _ _ rfl hmoves, hstep, Cursor.walk_end _ _ hend]
    rfl

/-- **Within a long bracket nothing changes**, as long as no line holds its closing bracket. -/
lemma readLines_hidden {body : List (List Char)}
    (hbody : ∀ text ∈ body, ¬ closing level <:+: text) :
    readLines readLine first (some level) body = (some level, []) := by
  induction body generalizing first with
  | nil => rfl
  | cons text body ih =>
    obtain ⟨htext, hbody⟩ := List.forall_mem_cons.1 hbody
    exact readLines_cons_of (readLine_hidden htext) (ih hbody)

/-- **A long bracket is closed** by the closing bracket of its level. -/
lemma passes_closing : Passes (step line) (some level) before (closing level) rest none [] := by
  refine Passes.of_step ?_
  have hoffset : offset? (closing level) (closing level ++ rest) = some 0 := by
    have hstarts : startsWith (closing level) (closing level ++ rest) = true :=
      startsWith_iff.2 ⟨rest, rfl⟩
    rw [closing, List.cons_append, ← closing] at hstarts ⊢
    rw [offset?, if_pos hstarts]
  have hbeyond : (⟨before, closing level ++ rest⟩ : Cursor).beyond (closing level)
      = (true, ⟨(closing level).reverse ++ before, rest⟩) := by
    simp only [Cursor.beyond, hoffset, Nat.zero_add, Cursor.forward_over]
  rw [closing] at hbeyond
  simp only [step, closing, hbeyond]
  rfl

/-! ## Sources with a long bracket -/

/-- What is found behind the closing bracket of a level on the given line: on the rest of the line,
`tail`, and on the lines behind it. -/
def marksBehind (level line : Nat) (tail : List Char) (post : List (List Char)) : List Mark :=
  let (state, found) := Cursor.walk (step line) none ⟨(closing level).reverse, tail⟩
  found ++ (readLines readLine (line + 1) state post).2

/-- **What is found in a source with a long bracket** is what is found in front of it and behind it.

**Proof sketch.** The bracket is opened at the end of its first line (`passes_opening`), nothing is
found in it (`readLines_hidden`), and it is closed at the beginning of its last line
(`passes_closing`). -/
theorem marks_longBracket {pre body : List (List Char)} (hpre : levelAfter pre = none)
    (hfront : front = [] ∨ front = "--".toList) (hbody : ∀ text ∈ body, ¬ closing level <:+: text)
    (tail : List Char) (post : List (List Char)) :
    marks (pre ++ [front ++ opening level] ++ body ++ [closing level ++ tail] ++ post)
      = marks pre ++ marksBehind level (pre.length + 1 + body.length) tail post := by
  have hopens : ∀ line, readLine none line (front ++ opening level) = (some level, []) :=
    fun line => (passes_opening hfront).walk_start
  have hcloses : ∀ line, readLine (some level) line (closing level ++ tail)
      = Cursor.walk (step line) none ⟨(closing level).reverse, tail⟩ := by
    intro line
    have hpasses : Passes (step line) (some level) [] (closing level) tail none [] := passes_closing
    rw [Passes, List.append_nil] at hpasses
    exact hpasses
  have hstart : readLines readLine 0 none pre = (none, marks pre) := Prod.ext hpre rfl
  have hinside : readLines readLine 0 none (pre ++ [front ++ opening level] ++ body)
      = (some level, marks pre) := by
    have hread := readLines_append_of (readLines_append_of hstart (readLines_single (hopens _)))
      (readLines_hidden hbody)
    simpa using hread
  have hlength : (pre ++ [front ++ opening level] ++ body).length
      = pre.length + 1 + body.length := by
    simp only [List.length_append, List.length_singleton]
  rw [marks, List.append_assoc, readLines_append, hinside, hlength]
  simp [readLines, hcloses, marksBehind]

end Brackets

end Lua

namespace Language

/-- **Long brackets are opaque.** Where no long bracket is open, a line opens one of any level,
alone or as a comment. Behind it come any lines in which the closing bracket of that level does not
stand, and a line that begins with it. Emptying the lines between leaves the document as it is,
whatever they say and whatever stands behind the bracket. -/
theorem scan_lua_longBracket {pre body post : List (List Char)} {front tail : List Char}
    {level : Nat} (hpre : Lua.levelAfter pre = none) (hfront : front = [] ∨ front = "--".toList)
    (hbody : ∀ text ∈ body, ¬ Lua.closing level <:+: text) :
    lua.scan ((pre ++ [front ++ Lua.opening level] ++ body ++ [Lua.closing level ++ tail]
        ++ post).map String.ofList)
      = lua.scan ((pre ++ [front ++ Lua.opening level] ++ body.map (fun _ => [])
        ++ [Lua.closing level ++ tail] ++ post).map String.ofList) := by
  have hempty : ∀ text ∈ body.map fun _ => ([] : List Char), ¬ Lua.closing level <:+: text := by
    intro text htext
    obtain ⟨_, -, rfl⟩ := List.mem_map.1 htext
    simp [Lua.closing]
  have hmarks := Lua.marks_longBracket hpre hfront hempty tail post
  rw [List.length_map, ← Lua.marks_longBracket hpre hfront hbody tail post] at hmarks
  simp only [scan, marks, map_toList_ofList, hmarks]

/-- A comment of level one holds declarations, brackets of other levels and the sign of a
comment.

**Proof sketch.** The line behind the comment is read after the same lines, and no line of the body
closes level one. -/
theorem scan_lua_longBracket_levels :
    let pre := ["function f() end".toList]
    let body := ["function g() end ]] [[".toList, "--[=[ ]==] M.h = function() \"".toList]
    let tail := " function k() end".toList
    Lua.levelAfter pre = none ∧ (∀ text ∈ body, ¬ Lua.closing 1 <:+: text)
      ∧ (pre ++ ["--".toList ++ Lua.opening 1] ++ body ++ [Lua.closing 1 ++ tail] ++ []).map
          String.ofList
        = ["function f() end", "--[=[", "function g() end ]] [[", "--[=[ ]==] M.h = function() \"",
          "]=] function k() end"]
      ∧ lua.scan ((pre ++ ["--".toList ++ Lua.opening 1] ++ body ++ [Lua.closing 1 ++ tail]
          ++ []).map String.ofList)
        = lua.scan ((pre ++ ["--".toList ++ Lua.opening 1] ++ body.map (fun _ => [])
          ++ [Lua.closing 1 ++ tail] ++ []).map String.ofList) := by
  intro pre body tail
  have hpre : Lua.levelAfter pre = none := by decide +kernel
  have hbody : ∀ text ∈ body, ¬ Lua.closing 1 <:+: text := by decide +kernel
  exact ⟨hpre, hbody, by decide, scan_lua_longBracket hpre (.inr rfl) hbody⟩

end Language

end Outliner
