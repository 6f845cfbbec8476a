import Outliner.ByText.CFamily
import Outliner.Proofs.Checked.Reading
import Outliner.Proofs.Names.ByText
import Outliner.Proofs.Order.ByText

set_option autoImplicit false

/-!
# Text readers with checks

What is read off a text as a whole, as a program reads it that keeps places as byte offsets: names
are cut out of the text where they were found, the opening brace of a body is one byte before the
end of its definition, and of the bodies around a name the shortest is the innermost. Nothing goes
wrong in any text. The shortest body around a name is the one that opens last, since braces are
nested.

## Main definitions

* `Outliner.Place.offset` — the byte offset of a place.
* `Outliner.CFamily.run` — the program.

## Main results

* `Outliner.Place.closing_le` — braces are nested.
* `Outliner.CFamily.runInnermost?_eq` — the shortest body around a place opens last.
* `Outliner.CFamily.run_eq` — nothing goes wrong.
-/

namespace Outliner

open Checked

/-! ## Places in bytes -/

namespace Place

variable {text : List Char}

/-- The byte offset of a place. -/
def offset (text : List Char) (place : Nat) : Nat := byteLength (text.take place)

/-- The next place is the bytes of a character further. -/
lemma offset_succ {place : Nat} {c : Char} (h : text[place]? = some c) :
    offset text (place + 1) = offset text place + c.utf8Size := by
  rw [offset, offset, List.take_add_one, h, byteLength_append]
  rfl

/-- A place that is further by some characters is further by their bytes. -/
lemma offset_add (text : List Char) (place n : Nat) :
    offset text (place + n) = offset text place + byteLength ((text.drop place).take n) := by
  rw [offset, offset, List.take_add, byteLength_append]

/-- Offsets do not fall from a place to a later one. -/
lemma offset_mono (text : List Char) {place place' : Nat} (h : place ≤ place') :
    offset text place ≤ offset text place' := by
  obtain ⟨n, rfl⟩ := Nat.exists_eq_add_of_le h
  rw [offset_add]
  exact Nat.le_add_right _ _

/-- The offsets of places are in the order of the places. -/
lemma offset_lt_iff {place place' : Nat} (h : place' ≤ text.length) :
    offset text place < offset text place' ↔ place < place' := by
  constructor
  · intro hoffset
    by_contra hplace
    exact absurd (offset_mono text (Nat.le_of_not_lt hplace)) (Nat.not_le_of_lt hoffset)
  · intro hplace
    have hc : text[place]? = some text[place] := List.getElem?_eq_getElem (hplace.trans_le h)
    have hsize : 0 < text[place].utf8Size := Char.utf8Size_pos _
    have hsucc : offset text (place + 1) ≤ offset text place' := offset_mono text hplace
    rw [offset_succ hc] at hsucc
    omega

/-- A word may be cut out where it stands. -/
lemma slice_of_standsAt {place : Nat} {word : List Char} (h : StandsAt text place word) :
    slice text (offset text place) (offset text place + byteLength word) = .ok word := by
  obtain ⟨rest, hrest⟩ := h.begins
  have htext : text.take place ++ word ++ rest = text := by
    rw [List.append_assoc, hrest, List.take_append_drop]
  have hcut := slice_append (text.take place) word rest
  rwa [htext] at hcut

/-! ## Braces -/

/-- One more pair is open behind an opening brace. -/
lemma beforeClosing?_opening (depth : Nat) (text : List Char) :
    beforeClosing? depth ('\x7b' :: text) = (beforeClosing? (depth + 1) text).map (· + 1) :=
  beforeClosing?.eq_def depth ('\x7b' :: text)

/-- The closing brace of the last open pair is the one that is looked for. -/
lemma beforeClosing?_last (text : List Char) : beforeClosing? 0 ('\x7d' :: text) = some 0 :=
  beforeClosing?.eq_def 0 ('\x7d' :: text)

/-- One pair less is open behind a closing brace. -/
lemma beforeClosing?_closing (depth : Nat) (text : List Char) :
    beforeClosing? (depth + 1) ('\x7d' :: text) = (beforeClosing? depth text).map (· + 1) :=
  beforeClosing?.eq_def (depth + 1) ('\x7d' :: text)

/-- Other characters open and close no pair. -/
lemma beforeClosing?_other {c : Char} (hopening : c ≠ '\x7b') (hclosing : c ≠ '\x7d') (depth : Nat)
    (text : List Char) :
    beforeClosing? depth (c :: text) = (beforeClosing? depth text).map (· + 1) := by
  rw [beforeClosing?.eq_def]
  simp [hopening, hclosing]

/-- The closing brace stands in the text.

**Proof sketch.** Induction on the search. Each character passed is one character of the text and
one of the distance. -/
lemma beforeClosing?_lt {depth n : Nat} (h : beforeClosing? depth text = some n) :
    n < text.length := by
  fun_induction beforeClosing? depth text generalizing n with
  | case1 => cases h
  | case2 depth text ih =>
    obtain ⟨m, hm, rfl⟩ := Option.map_eq_some_iff.1 h
    exact Nat.succ_lt_succ (ih hm)
  | case3 text hne =>
    obtain rfl := Option.some.inj h
    exact Nat.succ_pos _
  | case4 text depth hne ih =>
    obtain ⟨m, hm, rfl⟩ := Option.map_eq_some_iff.1 h
    exact Nat.succ_lt_succ (ih hm)
  | case5 depth c text hopening hclosing ih =>
    obtain ⟨m, hm, rfl⟩ := Option.map_eq_some_iff.1 h
    exact Nat.succ_lt_succ (ih hm)

/-- With fewer pairs open the last one is closed no later.

**Proof sketch.** Induction on the search with more pairs open. The one with fewer pairs goes along,
and may end earlier, at a closing brace that the other only counts. -/
lemma beforeClosing?_mono {depth depth' n : Nat} (hdepth : depth ≤ depth')
    (h : beforeClosing? depth' text = some n) :
    ∃ m, m ≤ n ∧ beforeClosing? depth text = some m := by
  fun_induction beforeClosing? depth' text generalizing depth n with
  | case1 => cases h
  | case2 depth' text ih =>
    obtain ⟨n, hn, rfl⟩ := Option.map_eq_some_iff.1 h
    obtain ⟨m, hmn, hm⟩ := ih (Nat.succ_le_succ hdepth) hn
    exact ⟨m + 1, Nat.succ_le_succ hmn, by rw [beforeClosing?_opening, hm]; rfl⟩
  | case3 text hne =>
    obtain rfl := Option.some.inj h
    obtain rfl : depth = 0 := Nat.le_zero.1 hdepth
    exact ⟨0, Nat.le_refl 0, beforeClosing?_last text⟩
  | case4 text depth' _ ih =>
    obtain ⟨n, hn, rfl⟩ := Option.map_eq_some_iff.1 h
    cases depth with
    | zero => exact ⟨0, Nat.zero_le _, beforeClosing?_last text⟩
    | succ depth =>
      obtain ⟨m, hmn, hm⟩ := ih (Nat.le_of_succ_le_succ hdepth) hn
      exact ⟨m + 1, Nat.succ_le_succ hmn, by rw [beforeClosing?_closing, hm]; rfl⟩
  | case5 depth' c text hopening hclosing ih =>
    obtain ⟨n, hn, rfl⟩ := Option.map_eq_some_iff.1 h
    obtain ⟨m, hmn, hm⟩ := ih hdepth hn
    exact ⟨m + 1, Nat.succ_le_succ hmn, by rw [beforeClosing?_other hopening hclosing, hm]; rfl⟩

/-- A pair opened in front of a closing brace is closed there at the latest.

**Proof sketch.** Induction on the search. At the opening brace itself its pair is the only one that
counts, fewer than the search has open (`beforeClosing?_mono`). At any other character the brace
stands in the rest. -/
lemma beforeClosing?_inside {depth n k : Nat} (h : beforeClosing? depth text = some n)
    (hk : text[k]? = some '\x7b') (hkn : k < n) :
    ∃ m, k + 1 + m ≤ n ∧ beforeClosing? 0 (text.drop (k + 1)) = some m := by
  fun_induction beforeClosing? depth text generalizing n k with
  | case1 => cases h
  | case2 depth text ih =>
    obtain ⟨n, hn, rfl⟩ := Option.map_eq_some_iff.1 h
    cases k with
    | zero =>
      obtain ⟨m, hmn, hm⟩ := beforeClosing?_mono (Nat.zero_le (depth + 1)) hn
      exact ⟨m, by omega, hm⟩
    | succ k =>
      obtain ⟨m, hmn, hm⟩ := ih hn hk (Nat.lt_of_succ_lt_succ hkn)
      exact ⟨m, by omega, hm⟩
  | case3 text hne =>
    obtain rfl := Option.some.inj h
    exact absurd hkn (Nat.not_lt_zero k)
  | case4 text depth hne ih =>
    obtain ⟨n, hn, rfl⟩ := Option.map_eq_some_iff.1 h
    cases k with
    | zero => exact absurd (Option.some.inj hk) hne
    | succ k =>
      obtain ⟨m, hmn, hm⟩ := ih hn hk (Nat.lt_of_succ_lt_succ hkn)
      exact ⟨m, by omega, hm⟩
  | case5 depth c text hopening hclosing ih =>
    obtain ⟨n, hn, rfl⟩ := Option.map_eq_some_iff.1 h
    cases k with
    | zero => exact absurd (Option.some.inj hk) hopening
    | succ k =>
      obtain ⟨m, hmn, hm⟩ := ih hn hk (Nat.lt_of_succ_lt_succ hkn)
      exact ⟨m, by omega, hm⟩

/-- The closing brace of a pair stands at the end of the text at the latest. -/
lemma closing_le_length {opening : Nat} (h : opening < text.length) :
    closing text opening ≤ text.length := by
  rw [closing]
  split
  · next n hn =>
    have hless := beforeClosing?_lt hn
    rw [List.length_drop] at hless
    omega
  · exact Nat.le_refl _

/-- **Braces are nested:** a pair opened between two braces of a pair is closed there at the
latest.

**Proof sketch.** If the outer pair is not closed, its end is the end of the text. If it is, the
inner brace stands in the part between the outer ones, and `beforeClosing?_inside` applies to that
part. -/
theorem closing_le {opening inner : Nat} (hinner : text[inner]? = some '\x7b')
    (hopening : opening < inner) (hclosing : inner < closing text opening) :
    closing text inner ≤ closing text opening := by
  cases houter : beforeClosing? 0 (text.drop (opening + 1)) with
  | none =>
    have hlast : closing text opening = text.length := by
      rw [closing, houter]
    rw [hlast]
    exact closing_le_length (List.getElem?_eq_some_iff.1 hinner).1
  | some n =>
    have hlast : closing text opening = opening + 1 + n := by
      rw [closing, houter]
    obtain ⟨k, rfl⟩ := Nat.exists_eq_add_of_lt hopening
    have hk : (text.drop (opening + 1))[k]? = some '\x7b' := by
      rw [List.getElem?_drop, ← hinner]
      congr 1
      omega
    obtain ⟨m, hmn, hm⟩ := beforeClosing?_inside houter hk (by omega)
    have hbehind : (text.drop (opening + 1)).drop (k + 1) = text.drop (opening + k + 1 + 1) := by
      rw [List.drop_drop]
      congr 1
      omega
    rw [hbehind] at hm
    rw [hlast, closing, hm]
    change opening + k + 1 + 1 + m ≤ opening + 1 + n
    omega

end Place

/-! ## Definitions -/

namespace Definition

variable {whole : List Char}

/-- The opening brace of a definition stands at its place.

**Proof sketch.** What the brace begins is a suffix of the text, reached by skipping blanks, the
name and all else up to the brace. So it is what is left of the whole text from the place of the
brace on. -/
lemma withKeyword?_opening {place : Nat} {text : List Char} {keyword : String} {d : Definition}
    (hplace : whole.drop place = text) (h : withKeyword? place text keyword = some d) :
    whole[d.opening]? = some '\x7b' := by
  obtain ⟨spaced, hspaced, h⟩ := Option.bind_eq_some_iff.1 h
  dsimp only at h
  split at h
  · cases h
  · obtain ⟨name, -, h⟩ := Option.bind_eq_some_iff.1 h
    split at h
    · next hbrace =>
      obtain rfl := Option.some.inj h
      have hsuffix : (((spaced.dropWhile isSpacing).drop name.length).dropWhile (!endsHead ·))
          <:+ text :=
        (((List.dropWhile_suffix _).trans (List.drop_suffix _ _)).trans
          (List.dropWhile_suffix _)).trans (after?_suffix hspaced)
      rw [← hbrace, ← List.getElem?_drop, hplace, ← List.head?_drop,
        ← List.suffix_iff_eq_drop.1 hsuffix]
    · cases h

/-- The opening brace of a definition that is found at the front stands at its place. -/
lemma atFront?_opening {place : Nat} {text : List Char} {d : Definition}
    (hplace : whole.drop place = text) (h : atFront? place text = some d) :
    whole[d.opening]? = some '\x7b' := by
  obtain ⟨keyword, -, hkeyword⟩ := List.exists_of_findSome?_eq_some h
  exact withKeyword?_opening hplace hkeyword

/-- Definitions are found in the order of their opening braces.

**Proof sketch.** Induction on the search, which goes on behind the opening brace of the definition
that was found. -/
lemma allFrom_openings {before : Option Char} {place : Nat} {text : List Char}
    (hplace : whole.drop place = text) :
    (allFrom before place text).Pairwise (·.opening < ·.opening)
      ∧ ∀ d ∈ allFrom before place text, place ≤ d.opening ∧ whole[d.opening]? = some '\x7b' := by
  fun_induction allFrom before place text with
  | case1 => exact ⟨.nil, List.forall_mem_nil _⟩
  | case2 before place c text found hfound ih =>
    have hfront : atFront? place (c :: text) = some found := by
      split at hfound
      · cases hfound
      · exact hfound
    have hopening : place ≤ found.opening := (atFront?_standsAt hplace hfront).2
    have hrest : whole.drop (found.opening + 1) = text.drop (found.opening - place) := by
      rw [show found.opening + 1 = place + (found.opening - place + 1) by omega, ← List.drop_drop,
        hplace, List.drop_succ_cons]
    obtain ⟨horder, hbehind⟩ := ih hrest
    refine ⟨List.pairwise_cons.2 ⟨fun d hd => (hbehind d hd).1, horder⟩, ?_⟩
    refine List.forall_mem_cons.2 ⟨⟨hopening, atFront?_opening hplace hfront⟩, fun d hd => ?_⟩
    exact ⟨hopening.trans (Nat.le_of_succ_le (hbehind d hd).1), (hbehind d hd).2⟩
  | case3 before place c text hnone ih =>
    have hrest : whole.drop (place + 1) = text := by
      rw [← List.drop_drop, hplace, List.drop_succ_cons, List.drop_zero]
    obtain ⟨horder, hbehind⟩ := ih hrest
    exact ⟨horder, fun d hd => ⟨Nat.le_of_succ_le (hbehind d hd).1, (hbehind d hd).2⟩⟩

/-- All definitions are found in the order of their opening braces, each of which stands at its
place. -/
lemma all_openings (text : List Char) :
    (all text).Pairwise (·.opening < ·.opening)
      ∧ ∀ d ∈ all text, text[d.opening]? = some '\x7b' :=
  ⟨(allFrom_openings List.drop_zero).1, fun d hd => ((allFrom_openings List.drop_zero).2 d hd).2⟩

end Definition

/-! ## C and C++ sources -/

namespace CFamily

/-- The name that stands at a place is cut out of the text. -/
def runName (text : List Char) (place : Nat) (name : List Char) : Run (List Char) :=
  slice text (Place.offset text place) (Place.offset text place + byteLength name)

/-- The body of a definition, with its braces as byte offsets. The opening brace is one byte before
the end of the definition. -/
def runBody (text : List Char) (d : Definition) : Run Body := do
  let name ← runName text d.place d.name
  let opening ← minus (Place.offset text (d.opening + 1)) 1
  return {
    name := name
    line := Place.line text d.place
    opening := opening
    closing := Place.offset text (Place.closing text d.opening) }

/-- The first of the entries with the least key, which is the second part. -/
def least? : List (Nat × Nat) → Option (Nat × Nat)
  | [] => none
  | entry :: others =>
    match least? others with
    | none => some entry
    | some other => if other.2 < entry.2 then some other else some entry

/-- The place in the list of the shortest of the bodies that enclose an offset. -/
def runInnermost? (offset : Nat) (bodies : List Body) : Run (Option Nat) := do
  let enclosing := bodies.zipIdx.filter (·.1.encloses offset)
  let keyed ← enclosing.mapM fun entry => do
    return (entry.2, ← minus entry.1.closing entry.1.opening)
  return (least? keyed).map Prod.fst

/-- Where a function belongs. -/
def runAttribution (text : List Char) (bodies : List Body) (signature : Signature) :
    Run Attribution := do
  let name ← runName text signature.place signature.name
  match ← runInnermost? (Place.offset text signature.place) bodies with
  | some index => return ⟨some index, name⟩
  | none =>
    match splitQualified? name with
    | none => return ⟨none, name⟩
    | some (owner, member) =>
      match bodies.findIdx? (·.name == owner) with
      | some index => return ⟨some index, member⟩
      | none => return ⟨none, name⟩

/-- The text substitution that a line defines. Its name is cut off behind it. -/
def runMacroName? (line : List Char) : Run (Option (List Char)) :=
  match after? ['#'] (line.dropWhile isLineSpacing) with
  | none => return none
  | some directive =>
    match after? "define".toList (directive.dropWhile isLineSpacing) with
    | none => return none
    | some rest =>
      let named := rest.dropWhile isLineSpacing
      if rest.head?.any isLineSpacing && named.head?.any beginsAsciiName then do
        return some (← front isAsciiNameChar named)
      else return none

/-- What is found in a masked text. -/
def runReading (text : List Char) : Run Reading := do
  let definitions := Definition.all text
  let bodies ← (definitions.filter (!·.isNameSpace)).mapM (runBody text)
  let nameSpaces ← (definitions.filter (·.isNameSpace)).mapM fun d => do
    return (← runName text d.place d.name, Place.line text d.place)
  let signatures := (Signature.all text).filter fun s => !keywords.contains (.ofList s.name)
  let functions ← signatures.mapM fun s => do
    return (← runAttribution text bodies s, Place.line text s.place)
  let macros ← Checked.eachLine (fun line content => do
    return ((← runMacroName? content).map (·, line)).toList) (splitLines text)
  return { nameSpaces := nameSpaces, bodies := bodies, functions := functions, macros := macros }

/-- The marks of a source. -/
def run (lines : List (List Char)) : Run (List Mark) :=
  Reading.marks <$> runReading (Masking.mask (joinLines lines))

/-! ### Bodies -/

/-- The first body opens in front of the second one, and if it is not closed by then, is closed no
earlier. -/
structure Body.Nested (outer inner : Body) : Prop where
  /-- The first one opens in front of the second one. -/
  opens : outer.opening < inner.opening
  /-- If it is not closed by then, it is closed no earlier. -/
  closes : inner.opening < outer.closing → inner.closing ≤ outer.closing

/-- The braces of the body stand in the text, or the closing one is its end. -/
structure Body.Within (text : List Char) (body : Body) : Prop where
  /-- The opening brace stands in the text. -/
  opening : body.opening < text.length
  /-- The closing brace stands in the text or is its end. -/
  closing : body.closing ≤ text.length

/-- The body with its braces as byte offsets. -/
def Body.inBytes (text : List Char) (body : Body) : Body :=
  { body with opening := Place.offset text body.opening, closing := Place.offset text body.closing }

/-- A body is around the places between its braces. -/
lemma Body.encloses_iff {place : Nat} {body : Body} :
    body.encloses place = true ↔ body.opening < place ∧ place < body.closing := by
  rw [encloses, Bool.and_eq_true, decide_eq_true_eq, decide_eq_true_eq]

variable {text : List Char}

/-- In bytes a body is around the same places. -/
lemma Body.encloses_inBytes {place : Nat} {body : Body} (hplace : place ≤ text.length)
    (hbody : body.Within text) :
    (body.inBytes text).encloses (Place.offset text place) = body.encloses place := by
  rw [Bool.eq_iff_iff, encloses_iff, encloses_iff]
  exact and_congr (Place.offset_lt_iff hplace) (Place.offset_lt_iff hbody.closing)

/-- In bytes bodies are nested as before. -/
lemma Body.Nested.inBytes {outer inner : Body} (h : outer.Nested inner)
    (houter : outer.Within text) (hinner : inner.Within text) :
    (outer.inBytes text).Nested (inner.inBytes text) where
  opens := (Place.offset_lt_iff hinner.opening.le).2 h.opens
  closes := fun hclosing =>
    Place.offset_mono text (h.closes ((Place.offset_lt_iff houter.closing).1 hclosing))

/-- The body of a definition lies within the text. -/
lemma Body.within_ofDefinition {d : Definition} (h : d ∈ Definition.all text) :
    (ofDefinition text d).Within text := by
  have hopening : d.opening < text.length :=
    (List.getElem?_eq_some_iff.1 ((Definition.all_openings text).2 d h)).1
  exact ⟨hopening, Place.closing_le_length hopening⟩

/-- The classes of a text are nested in the order of their opening braces. -/
lemma bodiesOf_pairwise (text : List Char) : (bodiesOf text).Pairwise Body.Nested := by
  obtain ⟨horder, hopening⟩ := Definition.all_openings text
  refine List.pairwise_map.2 (List.Pairwise.filter _ ?_)
  refine horder.imp_of_mem fun {outer inner} _ hinner hopens => ⟨hopens, fun hcloses => ?_⟩
  exact Place.closing_le (hopening inner hinner) hopens hcloses

/-- All bodies of a text lie within it. -/
lemma within_of_mem_bodiesOf {body : Body} (h : body ∈ bodiesOf text) : body.Within text := by
  obtain ⟨d, hd, rfl⟩ := List.mem_map.1 h
  exact Body.within_ofDefinition (List.mem_filter.1 hd).1

/-! ### The innermost body -/

/-- Of keys that fall from one entry to the next, the last one is the least.

**Proof sketch.** Induction on the entries. The key of the first one is greater than those of the
others, so the least one is found among the others, if there are any. -/
lemma least?_eq_getLast? {entries : List (Nat × Nat)}
    (h : entries.Pairwise fun entry other => other.2 < entry.2) :
    least? entries = entries.getLast? := by
  induction entries with
  | nil => rfl
  | cons entry others ih =>
    obtain ⟨hless, hothers⟩ := List.pairwise_cons.1 h
    rw [least?, ih hothers]
    cases hlast : others.getLast? with
    | none =>
      obtain rfl := List.getLast?_eq_none_iff.1 hlast
      rfl
    | some other =>
      have hother : other.2 < entry.2 := hless other (List.mem_of_getLast? hlast)
      rw [List.getLast?_cons, hlast]
      exact if_pos hother

/-- The last of the bodies around a place, found by going through all of them.

**Proof sketch.** Induction on the bodies from the last one on. If the last one is around the place,
it is found at once, and it is the last one left by the filter. Else it is skipped by both. -/
lemma innermost?_eq_getLast? (place : Nat) (bodies : List Body) :
    innermost? place bodies
      = (bodies.zipIdx.filter (·.1.encloses place)).getLast?.map Prod.snd := by
  induction bodies using List.reverseRecOn with
  | nil => rfl
  | append_singleton bodies body ih =>
    rw [List.zipIdx_append, List.filter_append, innermost?, List.reverse_append,
      List.length_append]
    change Option.map _ (List.findIdx? _ (body :: bodies.reverse)) = _
    rw [List.findIdx?_cons, List.zipIdx_singleton, Nat.zero_add]
    cases hbody : body.encloses place with
    | true =>
      have hlast : [(body, bodies.length)].filter (·.1.encloses place) = [(body, bodies.length)] :=
        List.filter_cons_of_pos hbody
      rw [hlast, List.getLast?_append]
      simp
    | false =>
      have hnone : [(body, bodies.length)].filter (·.1.encloses place) = [] :=
        List.filter_cons_of_neg (by simpa using hbody)
      rw [hnone, List.append_nil, ← ih, innermost?]
      cases bodies.reverse.findIdx? (·.encloses place) with
      | none => rfl
      | some n =>
        change some (bodies.length + 1 - 1 - (n + 1)) = some (bodies.length - 1 - n)
        congr 1
        omega

/-- **The shortest body around an offset is the one that opens last.**

**Proof sketch.** Of two bodies around the same offset, the one that opens last is closed no later
than the other, so it is shorter. -/
theorem runInnermost?_eq {bodies : List Body} (h : bodies.Pairwise Body.Nested) (offset : Nat) :
    runInnermost? offset bodies = .ok (innermost? offset bodies) := by
  have hencloses : ∀ entry ∈ bodies.zipIdx.filter (·.1.encloses offset),
      entry.1.opening < offset ∧ offset < entry.1.closing :=
    fun entry hentry => Body.encloses_iff.1 (List.mem_filter.1 hentry).2
  have hkeyed : ((bodies.zipIdx.filter (·.1.encloses offset)).mapM fun entry => do
        return (entry.2, ← minus entry.1.closing entry.1.opening) : Run (List (Nat × Nat)))
      = .ok ((bodies.zipIdx.filter (·.1.encloses offset)).map fun entry =>
          (entry.2, entry.1.closing - entry.1.opening)) := by
    refine mapM_eq fun entry hentry => ?_
    obtain ⟨hopening, hclosing⟩ := hencloses entry hentry
    rw [minus_of_le (hopening.trans hclosing).le]
    rfl
  have hnested : bodies.zipIdx.Pairwise fun entry other => entry.1.Nested other.1 := by
    rw [← List.pairwise_map (f := Prod.fst), List.zipIdx_map_fst]
    exact h
  have hfalls : ((bodies.zipIdx.filter (·.1.encloses offset)).map fun entry =>
        (entry.2, entry.1.closing - entry.1.opening)).Pairwise
      fun entry other => other.2 < entry.2 := by
    refine List.pairwise_map.2 ((hnested.filter _).imp_of_mem fun {outer inner} ho hi hn => ?_)
    obtain ⟨-, houter⟩ := hencloses outer ho
    obtain ⟨hinner, hinside⟩ := hencloses inner hi
    have hcloses := hn.closes (hinner.trans houter)
    have hopens := hn.opens
    dsimp only
    omega
  rw [runInnermost?, hkeyed, ok_bind, least?_eq_getLast? hfalls, innermost?_eq_getLast?,
    List.getLast?_map, Option.map_map]
  rfl

/-- In bytes the same body is the innermost one.

**Proof sketch.** Each body is around the same places in bytes as in characters, so the search from
the last body on finds the same index. -/
lemma innermost?_inBytes {bodies : List Body} {place : Nat}
    (hbodies : ∀ body ∈ bodies, body.Within text) (hplace : place ≤ text.length) :
    innermost? (Place.offset text place) (bodies.map (Body.inBytes text))
      = innermost? place bodies := by
  have hfind : ∀ l : List Body, (∀ body ∈ l, body.Within text) →
      (l.map (Body.inBytes text)).findIdx? (·.encloses (Place.offset text place))
        = l.findIdx? (·.encloses place) := by
    intro l hl
    induction l with
    | nil => rfl
    | cons body l ih =>
      obtain ⟨hbody, hrest⟩ := List.forall_mem_cons.1 hl
      rw [List.map_cons, List.findIdx?_cons, List.findIdx?_cons, ih hrest,
        Body.encloses_inBytes hplace hbody]
  rw [innermost?, innermost?, ← List.map_reverse, List.length_map,
    hfind bodies.reverse fun body hbody => hbodies body (List.mem_reverse.1 hbody)]

/-! ### Nothing goes wrong -/

/-- A name that stands in the text is cut out of it. -/
lemma runName_eq {place : Nat} {name : List Char} (h : StandsAt text place name) :
    runName text place name = .ok name := Place.slice_of_standsAt h

/-- Reading the body of a definition runs. -/
lemma runBody_eq {d : Definition} (h : d ∈ Definition.all text) :
    runBody text d = .ok ((Body.ofDefinition text d).inBytes text) := by
  have hbrace : Place.offset text (d.opening + 1) = Place.offset text d.opening + 1 :=
    Place.offset_succ ((Definition.all_openings text).2 d h)
  rw [runBody, runName_eq (Definition.mem_all h), ok_bind, hbrace,
    minus_of_le (Nat.le_add_left 1 _), ok_bind, Nat.add_sub_cancel]
  rfl

/-- Attributing a signature runs.

**Proof sketch.** The name stands at its place, so it may be cut out. The bodies are nested in bytes
as well, so the shortest one around the place is the last one that is around it. Without one, the
owner of a qualified name is looked up by name, which bytes do not change. -/
lemma runAttribution_eq {s : Signature} (h : s ∈ Signature.all text) :
    runAttribution text ((bodiesOf text).map (Body.inBytes text)) s
      = .ok (attributionOf (bodiesOf text) s) := by
  have hstands := Signature.mem_all h
  have hnested : ((bodiesOf text).map (Body.inBytes text)).Pairwise Body.Nested := by
    refine List.pairwise_map.2 ((bodiesOf_pairwise text).imp_of_mem fun houter hinner hn => ?_)
    exact hn.inBytes (within_of_mem_bodiesOf houter) (within_of_mem_bodiesOf hinner)
  have hinnermost := innermost?_inBytes (fun _ => within_of_mem_bodiesOf) hstands.place_lt.le
  rw [runAttribution, runName_eq hstands, ok_bind, runInnermost?_eq hnested, ok_bind, hinnermost,
    attributionOf]
  cases innermost? s.place (bodiesOf text) with
  | some index => rfl
  | none =>
    cases splitQualified? s.name with
    | none => rfl
    | some parts =>
      dsimp only
      rw [List.findIdx?_map]
      change (match (bodiesOf text).findIdx? (·.name == parts.1) with
        | some index => pure ⟨some index, parts.2⟩
        | none => pure ⟨none, s.name⟩ : Run Attribution) = _
      cases (bodiesOf text).findIdx? (·.name == parts.1) with
      | some index => rfl
      | none => rfl

/-- Reading the macro that a line defines runs.

**Proof sketch.** Step by step along the line: the number sign, the keyword, the blanks and the
name. -/
lemma runMacroName?_eq (line : List Char) : runMacroName? line = .ok (macroName? line) := by
  rw [runMacroName?, macroName?]
  cases after? ['#'] (line.dropWhile isLineSpacing) with
  | none => rfl
  | some directive =>
    dsimp only
    rw [Option.bind_some]
    cases after? "define".toList (directive.dropWhile isLineSpacing) with
    | none => rfl
    | some rest =>
      dsimp only
      rw [Option.bind_some, leadingAsciiName?, front_eq]
      cases rest.head?.any isLineSpacing with
      | false => rfl
      | true =>
        cases (rest.dropWhile isLineSpacing).head?.any beginsAsciiName with
        | false => rfl
        | true => rfl

/-- Reading a text runs.

**Proof sketch.** Bodies, namespaces, functions and macros are read one after the other. Each list
is read entry by entry, and each entry runs, because what it cuts out stands in the text. -/
lemma runReading_eq (text : List Char) :
    runReading text
      = .ok { Reading.ofText text with bodies := (bodiesOf text).map (Body.inBytes text) } := by
  have hbodies : ((Definition.all text).filter (!·.isNameSpace)).mapM (runBody text)
      = .ok ((bodiesOf text).map (Body.inBytes text)) := by
    rw [bodiesOf, Reading.ofText, List.map_map]
    exact mapM_eq fun d hd => runBody_eq (List.mem_filter.1 hd).1
  have hnameSpaces : (((Definition.all text).filter (·.isNameSpace)).mapM fun d => do
      return (← runName text d.place d.name, Place.line text d.place) :
        Run (List (List Char × Nat))) = .ok (Reading.ofText text).nameSpaces := by
    refine mapM_eq fun d hd => ?_
    rw [runName_eq (Definition.mem_all (List.mem_filter.1 hd).1)]
    rfl
  have hfunctions : (((Signature.all text).filter fun s => !keywords.contains (.ofList s.name)).mapM
      fun s => do
        return (← runAttribution text ((bodiesOf text).map (Body.inBytes text)) s,
          Place.line text s.place) : Run (List (Attribution × Nat)))
        = .ok (Reading.ofText text).functions := by
    refine mapM_eq fun s hs => ?_
    rw [runAttribution_eq (List.mem_filter.1 hs).1]
    rfl
  have hmacros : Checked.eachLine (fun line content => do
      return ((← runMacroName? content).map (·, line)).toList) (splitLines text)
        = .ok (Reading.ofText text).macros := by
    refine eachLine_eq (fun line content => ?_) (splitLines text)
    rw [runMacroName?_eq]
    rfl
  rw [runReading]
  dsimp only
  rw [hbodies, ok_bind, hnameSpaces, ok_bind, hfunctions, ok_bind, hmacros]
  rfl

/-- Where the braces are plays no part in the marks. -/
lemma Reading.marks_inBytes (r : Reading) :
    { r with bodies := r.bodies.map (Body.inBytes text) }.marks = r.marks := by
  have hbodies : ((r.bodies.map (Body.inBytes text)).mapIdx fun index body =>
        Mark.enter body.header :: (r.functionsOf .methods (some index) ++ [.leave]))
      = r.bodies.mapIdx fun index body =>
        Mark.enter body.header :: (r.functionsOf .methods (some index) ++ [.leave]) := by
    rw [List.mapIdx_eq_zipIdx_map, List.mapIdx_eq_zipIdx_map, List.zipIdx_map, List.map_map]
    rfl
  rw [marks, marks, ← hbodies]
  rfl

/-- **Nothing goes wrong in a source that is read as a whole.** -/
theorem run_eq (lines : List (List Char)) : run lines = .ok (marks lines) := by
  rw [run, runReading_eq, map_ok, bodiesOf, Reading.marks_inBytes, marks]

end CFamily

end Outliner
