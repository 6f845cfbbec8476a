import Mathlib.Tactic.Lemma
import Outliner.ByCharacter.Php
import Outliner.Proofs.Passage

set_option autoImplicit false

/-!
# Words of PHP code

In code a few characters have a meaning of their own. All others are parts of words, or mean
nothing.

## Main definitions

* `Outliner.Php.signs` — the characters with a meaning of their own.

## Main results

* `Outliner.Php.step_of_not_mem_signs` — a step at any other character.
* `Outliner.Php.step_word` — a step at a word.
-/

namespace Outliner.Php

/-- The characters that begin or end something else than a word. -/
def signs : List Char := ['?', '/', '#', '"', '\'', Char.ofNat 0x60, '\x7b', '\x7d', ';']

/-- A character of a name is no sign. -/
lemma not_mem_signs {ch : Char} (h : isIdentifierChar ch = true) : ch ∉ signs := by
  have hsigns : signs.any isIdentifierChar = false := by decide
  exact fun hch => List.any_eq_false.1 hsigns ch hch h

/-- A step in code at a character that is no sign.

**Proof sketch.** The character begins none of the patterns that are looked for in code, and it is
no quote and no brace. So it is the beginning of a word or passed over. -/
lemma step_of_not_mem_signs {s : State} {c : Cursor} {ch : Char} {rest : List Char}
    (hmode : s.mode = .code) (hafter : c.after = ch :: rest) (hch : ch ∉ signs) (line : Nat) :
    step line s c ch = if isIdentifierChar ch && c.isAtWordStart then wordStep line s c
      else { state := s, cursor := c.next } := by
  simp only [signs, List.mem_cons, List.not_mem_nil, or_false, not_or] at hch
  obtain ⟨hpage, hslash, hnumber, hdouble, hsingle, hback, hopen, hclose, hend⟩ := hch
  have hcode : ch.toNat ≠ 0x60 := by
    intro h
    exact hback (by rw [← h, Char.ofNat_toNat])
  have hstarts : ∀ sign pattern, ch ≠ sign → c.startsWith (sign :: pattern) = false := by
    obtain ⟨before, after⟩ := c
    obtain rfl : after = ch :: rest := hafter
    exact fun sign pattern hne => Cursor.startsWith_of_ne hne before rest pattern
  have h1 : c.startsWith "?>".toList = false := hstarts '?' ['>'] hpage
  have h2 : c.startsWith "/*".toList = false := hstarts '/' ['*'] hslash
  have h3 : c.startsWith "#[".toList = false := hstarts '#' ['['] hnumber
  have h4 : c.startsWith "//".toList = false := hstarts '/' ['/'] hslash
  simp only [step, hmode, codeStep, h1, h2, h3, h4, hnumber, hdouble, hsingle, hcode, hopen, hclose,
    hend, Bool.false_eq_true, Bool.false_or, beq_iff_eq, or_self, if_false]

/-- A step in code at the beginning of a word. -/
lemma step_word {s : State} {c : Cursor} {ch : Char} {rest : List Char} (hmode : s.mode = .code)
    (hafter : c.after = ch :: rest) (hch : isIdentifierChar ch = true)
    (hstart : c.isAtWordStart = true) (line : Nat) : step line s c ch = wordStep line s c := by
  rw [step_of_not_mem_signs hmode hafter (not_mem_signs hch), hch, hstart]
  rfl

end Outliner.Php
