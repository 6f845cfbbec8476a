import Mathlib.Data.List.TakeWhile
import Outliner.ByText.CFamily
import Outliner.Proofs.Reading
import Outliner.Proofs.TextPlace

set_option autoImplicit false

/-!
# What readers of whole texts report

Definitions, signatures and text substitutions are searched for in a masked text, and each is found
with the place of its name. The name stands there in the masked text, so it stands on a line of the
source, and the line that is reported is this one.

## Main results

* `Outliner.Definition.mem_all`, `Outliner.Signature.mem_all` — a name that is found stands at its
  place.
* `Outliner.CFamily.marks_plain`, `Outliner.CFamily.marks_named` — what is reported of a source has
  a kind that fits its group, and stands by its name on its line if no line holds a line end.
-/

namespace Outliner

/-! ## Names -/

/-- No character of a plain name is a space or the end of a line. -/
lemma isAsciiNameChar_solid {c : Char} (h : isAsciiNameChar c = true) : c ≠ ' ' ∧ c ≠ '\n' := by
  constructor
  · rintro rfl
    exact absurd h (by decide)
  · rintro rfl
    exact absurd h (by decide)

/-- What begins a plain name may stand in it. -/
lemma isAsciiNameChar_of_beginsAsciiName {c : Char} (h : beginsAsciiName c = true) :
    isAsciiNameChar c = true := by
  unfold beginsAsciiName at h
  unfold isAsciiNameChar Char.isAlphanum
  rcases Bool.or_eq_true_iff.1 h with h | h
  · rw [h]
    rfl
  · rw [h, Bool.or_true]

/-- The name at the front of a text stands there. -/
lemma leadingAsciiName?_standsAt {text name : List Char} (h : leadingAsciiName? text = some name) :
    StandsAt text 0 name := by
  unfold leadingAsciiName? at h
  split at h
  · next hbegins =>
    obtain rfl := Option.some.inj h
    refine ⟨List.takeWhile_prefix _, ?_, fun c hc => ?_⟩
    · cases text with
      | nil => exact absurd hbegins (by simp)
      | cons c text =>
        have hc : isAsciiNameChar c = true := isAsciiNameChar_of_beginsAsciiName (by simpa using hbegins)
        rw [List.takeWhile_cons_of_pos hc]
        exact List.cons_ne_nil _ _
    · exact isAsciiNameChar_solid (List.mem_takeWhile_imp hc)
  · exact absurd h (by simp)

/-- What stands at the front of an end of the text stands at the place of this end. -/
lemma StandsAt.of_suffix {whole text rest word : List Char} {place : Nat}
    (hplace : whole.drop place = text) (hrest : rest <:+ text) (h : StandsAt rest 0 word) :
    StandsAt whole (place + (text.length - rest.length)) word := by
  refine ⟨?_, h.nonempty, h.solid⟩
  rw [← List.drop_drop, hplace, ← List.suffix_iff_eq_drop.1 hrest]
  exact h.begins

/-! ## Definitions -/

namespace Definition

variable {whole : List Char}

/-- A definition is found with the place of its name, and its body opens further on. -/
lemma withKeyword?_standsAt {place : Nat} {text : List Char} {keyword : String} {d : Definition}
    (hplace : whole.drop place = text) (h : withKeyword? place text keyword = some d) :
    StandsAt whole d.place d.name ∧ place ≤ d.opening := by
  obtain ⟨spaced, hspaced, h⟩ := Option.bind_eq_some_iff.1 h
  have hnamed : spaced.dropWhile isSpacing <:+ text :=
    (List.dropWhile_suffix isSpacing).trans (after?_suffix hspaced)
  dsimp only at h
  split at h
  · exact absurd h (by simp)
  · obtain ⟨name, hname, h⟩ := Option.bind_eq_some_iff.1 h
    split at h
    · obtain rfl := Option.some.inj h
      exact ⟨StandsAt.of_suffix hplace hnamed (leadingAsciiName?_standsAt hname),
        Nat.le_add_right place _⟩
    · exact absurd h (by simp)

/-- The name of a definition at the front of a text stands where the definition says. -/
lemma atFront?_standsAt {place : Nat} {text : List Char} {d : Definition}
    (hplace : whole.drop place = text) (h : atFront? place text = some d) :
    StandsAt whole d.place d.name ∧ place ≤ d.opening := by
  obtain ⟨keyword, -, hkeyword⟩ := List.exists_of_findSome?_eq_some h
  exact withKeyword?_standsAt hplace hkeyword

/-- Definitions are found with the places of their names.

**Proof sketch.** Induction on the search, which keeps to the rest of the text at its place: after a
definition it goes on behind the opening brace, and otherwise one character further on. -/
lemma mem_allFrom {before : Option Char} {place : Nat} {text : List Char} {d : Definition}
    (hplace : whole.drop place = text) (h : d ∈ allFrom before place text) :
    StandsAt whole d.place d.name := by
  fun_induction allFrom before place text with
  | case1 => exact absurd h List.not_mem_nil
  | case2 before place c text found hfound ih =>
    have hfront : atFront? place (c :: text) = some found := by
      split at hfound
      · exact absurd hfound (by simp)
      · exact hfound
    obtain ⟨hstands, hopening⟩ := atFront?_standsAt hplace hfront
    rcases List.mem_cons.1 h with rfl | h
    · exact hstands
    · refine ih ?_ h
      rw [show found.opening + 1 = place + (found.opening - place + 1) by omega, ← List.drop_drop,
        hplace, List.drop_succ_cons]
  | case3 before place c text hnone ih =>
    refine ih ?_ h
    rw [← List.drop_drop, hplace, List.drop_succ_cons, List.drop_zero]

/-- **Every definition stands by its name at its place.** -/
theorem mem_all {text : List Char} {d : Definition} (h : d ∈ all text) :
    StandsAt text d.place d.name :=
  mem_allFrom (List.drop_zero) h

end Definition

/-! ## Signatures -/

namespace Signature

variable {whole : List Char}

/-- No character of a qualified name is a space or the end of a line. -/
lemma isNameChar_solid {c : Char} (h : isNameChar c = true) : c ≠ ' ' ∧ c ≠ '\n' := by
  constructor
  · rintro rfl
    exact absurd h (by decide)
  · rintro rfl
    exact absurd h (by decide)

/-- The name in a run stands after as many characters as precede it.

**Proof sketch.** Read backwards, the run is blanks, then the name, then the type. So type and name
together are a beginning of the run. -/
lemma nameIn?_standsAt {run name : List Char} {before : Nat}
    (h : nameIn? run = some (name, before)) : StandsAt run before name := by
  unfold nameIn? at h
  generalize hbackwards : run.reverse.dropWhile isSpacing = backwards at h
  dsimp only at h
  split at h
  · next hrun =>
    obtain ⟨rfl, rfl⟩ := Prod.mk.inj (Option.some.inj h)
    simp only [Bool.and_eq_true] at hrun
    have hsplit : (backwards.dropWhile isNameChar).reverse
        ++ (backwards.takeWhile isNameChar).reverse <+: run := by
      rw [← List.reverse_append, List.takeWhile_append_dropWhile, ← hbackwards]
      exact reverse_dropWhile_reverse_isPrefix isSpacing run
    refine ⟨?_, ?_, fun c hc => ?_⟩
    · obtain ⟨rest, hrest⟩ := hsplit
      rw [← hrest, List.append_assoc, ← List.length_reverse, List.drop_left]
      exact List.prefix_append _ _
    · intro hnil
      rw [hnil] at hrun
      exact absurd hrun.1.1 (by simp)
    · exact isNameChar_solid (List.mem_takeWhile_imp (List.mem_reverse.1 hc))
  · exact absurd h (by simp)

/-- What follows a list of parameters is an end of the text. -/
lemma afterParameters?_suffix {nested : Bool} {text rest : List Char}
    (h : afterParameters? nested text = some rest) : rest <:+ text := by
  induction text generalizing nested with
  | nil => exact absurd h (by simp [afterParameters?])
  | cons c text ih =>
    have htext : text <:+ c :: text := List.suffix_cons c text
    unfold afterParameters? at h
    split_ifs at h
    · exact (ih h).trans htext
    · obtain rfl := Option.some.inj h
      exact htext
    · exact (ih h).trans htext
    · exact (ih h).trans htext

/-- So is what follows a word. -/
lemma skipWord_suffix (word : String) (text : List Char) : skipWord word text <:+ text := by
  unfold skipWord
  split
  · next rest hrest => exact (List.dropWhile_suffix isSpacing).trans (after?_suffix hrest)
  · exact List.suffix_refl text

/-- So is what follows an opening brace. -/
lemma afterBrace?_suffix {text rest : List Char} (h : afterBrace? text = some rest) :
    rest <:+ text := by
  obtain ⟨closed, hclosed, hrest⟩ := Option.bind_eq_some_iff.1 h
  have hspaced : closed.dropWhile isSpacing <:+ text :=
    (List.dropWhile_suffix isSpacing).trans (afterParameters?_suffix hclosed)
  exact (after?_suffix hrest).trans ((skipWord_suffix "override" _).trans
    ((skipWord_suffix "noexcept" _).trans ((skipWord_suffix "const" _).trans hspaced)))

/-- What is read after a run is its name, if any, and the search goes on in what follows the run.

**Proof sketch.** If parameters and a brace follow, the name was found in the run
(`nameIn?_standsAt`), and what is left is behind the brace. In all other cases only one character is
passed over. -/
lemma readAfter_standsAt (run text : List Char) :
    (readAfter run text).2 <:+ text
      ∧ ∀ name before, (readAfter run text).1 = some (name, before) → StandsAt run before name := by
  cases text with
  | nil => exact ⟨List.suffix_refl [], by simp [readAfter]⟩
  | cons c text =>
    simp only [readAfter]
    split
    · next found body hfound =>
      split at hfound
      · obtain ⟨named, hnamed, hbody⟩ := Option.bind_eq_some_iff.1 hfound
        obtain ⟨rest, hrest, heq⟩ := Option.map_eq_some_iff.1 hbody
        obtain ⟨rfl, rfl⟩ := Prod.mk.inj heq
        refine ⟨(afterBrace?_suffix hrest).trans (List.suffix_cons c text), ?_⟩
        intro name before heq
        obtain rfl := Option.some.inj heq
        exact nameIn?_standsAt hnamed
      · exact absurd hfound (by simp)
    · exact ⟨List.suffix_cons c text, by simp⟩

/-- The name at the front of a text stands in it, and the search goes on in an end of the text. -/
lemma readFront_standsAt (text : List Char) :
    (readFront text).2 <:+ text
      ∧ ∀ name before, (readFront text).1 = some (name, before) → StandsAt text before name := by
  obtain ⟨hrest, hname⟩ := readAfter_standsAt (text.takeWhile isHeadChar) (text.dropWhile isHeadChar)
  refine ⟨hrest.trans (List.dropWhile_suffix isHeadChar), fun name before heq => ?_⟩
  have hrun := hname name before heq
  exact ⟨hrun.begins.trans ((List.takeWhile_prefix isHeadChar).drop before), hrun.nonempty,
    hrun.solid⟩

/-- Signatures are found with the places of their names.

**Proof sketch.** Induction on the search, which keeps to the rest of the text at its place. -/
lemma mem_allFrom {place : Nat} {text : List Char} {s : Signature}
    (hplace : whole.drop place = text) (h : s ∈ allFrom place text) :
    StandsAt whole s.place s.name := by
  fun_induction allFrom place text with
  | case1 => exact absurd h List.not_mem_nil
  | case2 place c text front ih =>
    obtain ⟨hrest, hname⟩ := readFront_standsAt (c :: text)
    rcases List.mem_append.1 h with h | h
    · obtain ⟨⟨name, before⟩, hfront, rfl⟩ := Option.map_eq_some_iff.1 (Option.mem_toList.1 h)
      have hstands := hname name before hfront
      refine ⟨?_, hstands.nonempty, hstands.solid⟩
      rw [← List.drop_drop, hplace]
      exact hstands.begins
    · refine ih ?_ h
      rw [← List.drop_drop, hplace]
      exact (List.suffix_iff_eq_drop.1 hrest).symm

/-- **Every signature stands by its name at its place.** -/
theorem mem_all {text : List Char} {s : Signature} (h : s ∈ all text) :
    StandsAt text s.place s.name :=
  mem_allFrom List.drop_zero h

end Signature

/-! ## C and C++ sources -/

namespace CFamily

/-- What holds of all that is found in a text holds of all marks of it.

**Proof sketch.** The marks are those of namespaces, free functions, classes with their methods, and
macros, and each of them reports what was found. -/
lemma Reading.marks_all {r : Reading} {P : Report → Prop}
    (hnameSpaces : ∀ n ∈ r.nameSpaces,
      P ⟨.namespaces, { name := .ofList n.1, line := n.2, kind := .namespaces }⟩)
    (hfunctions : ∀ f ∈ r.functions, ∀ kind,
      P ⟨kind, { name := .ofList f.1.name, line := f.2, kind := kind }⟩)
    (hbodies : ∀ body ∈ r.bodies,
      P ⟨.classes, { name := .ofList body.name, line := body.line, kind := .classes }⟩)
    (hmacros : ∀ m ∈ r.macros, P ⟨.macros, { name := .ofList m.1, line := m.2, kind := .macros }⟩) :
    ∀ m ∈ r.marks, m.All P := by
  have hof : ∀ kind owner, ∀ m ∈ r.functionsOf kind owner, m.All P := by
    intro kind owner m hm
    obtain ⟨f, hf, rfl⟩ := List.mem_map.1 hm
    exact Mark.all_leaf.2 (hfunctions f (List.mem_filter.1 hf).1 kind)
  intro m hm
  simp only [Reading.marks, List.mem_append] at hm
  rcases hm with ((hm | hm) | hm) | hm
  · obtain ⟨n, hn, rfl⟩ := List.mem_map.1 hm
    exact Mark.all_once.2 (hnameSpaces n hn)
  · exact hof .functions none m hm
  · obtain ⟨block, hblock, hm⟩ := List.mem_flatten.1 hm
    obtain ⟨i, hi, rfl⟩ := List.mem_mapIdx.1 hblock
    rcases List.mem_cons.1 hm with rfl | hm
    · exact Mark.all_enter.2 (hbodies _ (List.getElem_mem hi))
    · rcases List.mem_append.1 hm with hm | hm
      · exact hof .methods (some i) m hm
      · obtain rfl := List.mem_singleton.1 hm
        exact Mark.all_leave
  · obtain ⟨n, hn, rfl⟩ := List.mem_map.1 hm
    exact Mark.all_leaf.2 (hmacros n hn)

/-- What is reported of a source is filed under its kind. -/
theorem marks_plain (lines : List (List Char)) :
    ∀ m ∈ marks lines, m.All (Report.Plain id) :=
  Reading.marks_all (fun _ _ => ⟨rfl, rfl⟩) (fun _ _ _ => ⟨rfl, rfl⟩) (fun _ _ => ⟨rfl, rfl⟩)
    (fun _ _ => ⟨rfl, rfl⟩)

/-- The name behind the owner is an end of the whole name. -/
lemma splitQualified?_suffix {whole owner name : List Char}
    (h : splitQualified? whole = some (owner, name)) : name <:+ whole := by
  obtain ⟨n, -, heq⟩ := Option.map_eq_some_iff.1 h
  obtain ⟨-, rfl⟩ := Prod.mk.inj heq
  exact List.drop_suffix _ whole

/-- A function is called by the end of its name, wherever it belongs. -/
lemma attributionOf_suffix (bodies : List Body) (s : Signature) :
    (attributionOf bodies s).name <:+ s.name := by
  unfold attributionOf
  split
  · exact List.suffix_refl s.name
  · split
    · exact List.suffix_refl s.name
    · next owner name hsplit =>
      split
      · exact splitQualified?_suffix hsplit
      · exact List.suffix_refl s.name

/-- A text substitution stands by its name on the line that defines it. -/
lemma macroName?_isInfix {line name : List Char} (h : macroName? line = some name) :
    name <:+: line ∧ StandsAt name 0 name := by
  obtain ⟨directive, hdirective, h⟩ := Option.bind_eq_some_iff.1 h
  obtain ⟨rest, hrest, h⟩ := Option.bind_eq_some_iff.1 h
  split at h
  · have hname := leadingAsciiName?_standsAt h
    have hline : rest.dropWhile isLineSpacing <:+ line :=
      (List.dropWhile_suffix _).trans ((after?_suffix hrest).trans
        ((List.dropWhile_suffix _).trans ((after?_suffix hdirective).trans
          (List.dropWhile_suffix _))))
    exact ⟨hname.begins.isInfix.trans hline.isInfix, List.prefix_refl name, hname.nonempty,
      hname.solid⟩
  · exact absurd h (by simp)

section Named

variable {lines : List (List Char)}

/-- What stands in the masked source stands on the line of its place. -/
lemma exists_line_of_mask (hlines : ∀ line ∈ lines, '\n' ∉ line) {word : List Char} {place : Nat}
    (h : StandsAt (Masking.mask (joinLines lines)) place word) :
    ∃ text, lines[Place.line (Masking.mask (joinLines lines)) place]? = some text
      ∧ word <:+: text := by
  rw [Place.line_mask]
  exact StandsAt.exists_line hlines h.of_mask

/-- **What is reported of a source stands by its name on its line**, if no line holds a line end.

**Proof sketch.** Definitions and signatures stand at their places, and a function is called by the
end of its name. A text substitution is found on a line of the masked text, and this line stands at
a place too. What stands at a place of the masked text stands on a line of the source
(`exists_line_of_mask`). -/
theorem marks_named (hlines : ∀ line ∈ lines, '\n' ∉ line) :
    ∀ m ∈ marks lines, m.All (Report.Named id lines) := by
  refine Reading.marks_all (fun n hn => ?_) (fun f hf kind => ?_) (fun body hbody => ?_)
    (fun m hm => ?_)
  · obtain ⟨d, hd, rfl⟩ := List.mem_map.1 hn
    obtain ⟨text, hline, hname⟩ :=
      exists_line_of_mask hlines (Definition.mem_all (List.mem_filter.1 hd).1)
    exact Report.named_leaf rfl hline hname
  · obtain ⟨s, hs, rfl⟩ := List.mem_map.1 hf
    obtain ⟨text, hline, hname⟩ :=
      exists_line_of_mask hlines (Signature.mem_all (List.mem_filter.1 hs).1)
    exact Report.named_leaf rfl hline ((attributionOf_suffix _ s).isInfix.trans hname)
  · obtain ⟨d, hd, rfl⟩ := List.mem_map.1 hbody
    obtain ⟨text, hline, hname⟩ :=
      exists_line_of_mask hlines (Definition.mem_all (List.mem_filter.1 hd).1)
    exact Report.named_leaf rfl hline hname
  · obtain ⟨found, hfound, hm⟩ := List.mem_flatten.1 hm
    obtain ⟨i, hi, rfl⟩ := List.mem_mapIdx.1 hfound
    obtain ⟨name, hname, rfl⟩ := Option.map_eq_some_iff.1 (Option.mem_toList.1 hm)
    obtain ⟨hexcerpt, hstands⟩ := macroName?_isInfix hname
    obtain ⟨place, hbegins, rfl⟩ := mem_splitLines (List.getElem?_eq_getElem hi) hexcerpt
    obtain ⟨text, hline, hname⟩ :=
      exists_line_of_mask hlines ⟨hbegins, hstands.nonempty, hstands.solid⟩
    exact Report.named_leaf rfl hline hname

end Named

end CFamily

end Outliner
