import Outliner.ByText.CFamily
import Outliner.Proofs.Renumbering.Reading

set_option autoImplicit false

/-!
# A line feed in front of a source read as a whole

A line feed in front of a text moves every place by one and every line by one, and changes nothing
else: it is no part of a word, so no definition begins or ends with it; it is a blank, so it changes
no run of type and name; and it opens and closes nothing.

## Main definitions

* `Outliner.Definition.shift`, `Outliner.Signature.shift`, `Outliner.CFamily.Body.shift` — the same
  thing at a later place.

## Main results

* `Outliner.Definition.all_newline`, `Outliner.Signature.all_newline` — what is found after a line
  feed.
* `Outliner.CFamily.marks_shift` — the marks of a source after empty lines.
-/

namespace Outliner

/-! ## Definitions -/

namespace Definition

/-- The definition `n` places further on. -/
def shift (n : Nat) (d : Definition) : Definition :=
  { d with place := d.place + n, opening := d.opening + n }

/-- A definition that begins with a keyword is found at the same distance from the front. -/
lemma withKeyword?_shift (n place : Nat) (text : List Char) (keyword : String) :
    withKeyword? (place + n) text keyword = (withKeyword? place text keyword).map (shift n) := by
  simp only [withKeyword?]
  rcases after? keyword.toList text with _ | spaced
  · rfl
  · simp only [Option.bind_some]
    split
    · rfl
    · rcases leadingAsciiName? (spaced.dropWhile isSpacing) with _ | name
      · rfl
      · simp only [Option.bind_some]
        split
        · simp only [Option.map_some, shift, Nat.add_right_comm place n]
        · rfl

/-- So is a definition at the front of a text. -/
lemma atFront?_shift (n place : Nat) (text : List Char) :
    atFront? (place + n) text = (atFront? place text).map (shift n) := by
  simp only [atFront?]
  induction keywords with
  | nil => rfl
  | cons keyword keywords ih =>
    rw [List.findSome?_cons, List.findSome?_cons, withKeyword?_shift, ih]
    cases withKeyword? place text keyword with
    | none => rfl
    | some found => rfl

/-- Definitions are found at the same distance from the front of the text, wherever it is.

**Proof sketch.** Induction along the search. The distance to the opening brace is the same, so the
search goes on in the same text, moved by as much. -/
lemma allFrom_shift (n : Nat) (before : Option Char) (place : Nat) (text : List Char) :
    allFrom before (place + n) text = (allFrom before place text).map (shift n) := by
  have hfront : ∀ (before : Option Char) (place : Nat) (text : List Char),
      (if before.any isWordChar then none else atFront? (place + n) text)
        = (if before.any isWordChar then none else atFront? place text).map (shift n) := by
    intro before place text
    rw [atFront?_shift]
    split <;> rfl
  fun_induction allFrom before place text with
  | case1 => rw [allFrom]; rfl
  | case2 before place c text found hfound ih =>
    rw [dite_eq_ite] at hfound
    rw [allFrom, hfront, hfound, List.map_cons, ← ih, Option.map_some]
    have hdistance : (found.shift n).opening - (place + n) = found.opening - place :=
      Nat.add_sub_add_right found.opening n place
    have hnext : (found.shift n).opening + 1 = found.opening + 1 + n :=
      Nat.add_right_comm found.opening n 1
    simp only [hdistance, hnext]
  | case3 before place c text hnone ih =>
    rw [dite_eq_ite] at hnone
    rw [allFrom, hfront, hnone, ← ih, Option.map_none, Nat.add_right_comm place n 1]

/-- Only whether a word ends in front of the text matters to what is found in it. -/
lemma allFrom_some_newline (place : Nat) (text : List Char) :
    allFrom (some '\n') place text = allFrom none place text := by
  cases text with
  | nil => rw [allFrom, allFrom]
  | cons c text =>
    have hnewline : (some '\n').any isWordChar = false := by decide
    rw [allFrom, allFrom, hnewline]
    rfl

/-- No definition begins with a line feed. -/
lemma atFront?_newline (place : Nat) (text : List Char) : atFront? place ('\n' :: text) = none := by
  have hfirst : ∀ keyword ∈ keywords,
      keyword.toList.head? ≠ none ∧ keyword.toList.head? ≠ some '\n' := by decide
  refine List.findSome?_eq_none_iff.2 fun keyword hkeyword => ?_
  obtain ⟨hsome, hother⟩ := hfirst keyword hkeyword
  have hafter : after? keyword.toList ('\n' :: text) = none := by
    cases hword : keyword.toList with
    | nil => exact absurd (congrArg List.head? hword) hsome
    | cons c word =>
      rw [hword] at hother
      have hc : c ≠ '\n' := fun h => hother (congrArg some h)
      simp [after?, hc]
  rw [withKeyword?, hafter]
  rfl

/-- A line feed in front of a text moves its definitions. -/
lemma all_newline (text : List Char) : all ('\n' :: text) = (all text).map (shift 1) := by
  have hbefore : (none : Option Char).any isWordChar = false := rfl
  rw [all, allFrom, hbefore, if_neg Bool.false_ne_true, atFront?_newline, all, ← allFrom_shift]
  exact allFrom_some_newline 1 text

end Definition

/-! ## Signatures -/

namespace Signature

/-- The signature `n` places further on. -/
def shift (n : Nat) (s : Signature) : Signature := { s with place := s.place + n }

/-- Signatures are found at the same distance from the front of the text, wherever it is. -/
lemma allFrom_shift (n place : Nat) (text : List Char) :
    allFrom (place + n) text = (allFrom place text).map (shift n) := by
  fun_induction allFrom place text with
  | case1 => rw [allFrom_nil, List.map_nil]
  | case2 place c text front ih =>
    rw [allFrom_cons, List.map_append, ← ih, Nat.add_right_comm place n]
    congr 1
    rcases front.1 with _ | ⟨name, before⟩
    · rfl
    · simp only [Option.map_some, Option.toList_some, List.map_cons, List.map_nil, shift,
        Nat.add_right_comm place n before]

/-- A line feed in front of a run of type and name belongs to its blanks.

**Proof sketch.** Read backwards, the line feed comes last. Where the run is blank it is a blank
more. Otherwise it is no part of the name, and where a type is left it is among the blanks before
the type; alone it is no type. -/
lemma nameIn?_newline (run : List Char) :
    nameIn? ('\n' :: run) = (nameIn? run).map fun found => (found.1, found.2 + 1) := by
  have hspacing : isSpacing '\n' = true := by decide
  have hname : isNameChar '\n' = false := by decide
  rw [nameIn?, nameIn?, List.reverse_cons, List.dropWhile_append]
  by_cases hblank : run.reverse.dropWhile isSpacing = []
  · simp [hblank, hspacing]
  · generalize run.reverse.dropWhile isSpacing = backwards at hblank
    have hletters : (backwards ++ ['\n']).takeWhile isNameChar
        = backwards.takeWhile isNameChar := by
      rw [List.takeWhile_append, List.takeWhile_cons_of_neg (by simp [hname]), List.append_nil]
      split
      · next hall => exact ((List.takeWhile_sublist isNameChar).eq_of_length hall).symm
      · rfl
    have htype : (backwards ++ ['\n']).dropWhile isNameChar
        = backwards.dropWhile isNameChar ++ ['\n'] := by
      rw [List.dropWhile_append, List.dropWhile_cons_of_neg (by simp [hname])]
      split
      · next hempty => rw [List.isEmpty_iff.1 hempty, List.nil_append]
      · rfl
    simp only [List.isEmpty_iff, hblank, if_false, hletters, htype]
    generalize (backwards.takeWhile isNameChar).reverse = name
    cases backwards.dropWhile isNameChar with
    | nil => simp [hspacing]
    | cons c type => simp [hspacing]

/-- A line feed in front of a run moves the name in it by one place.

**Proof sketch.** The name is the last one of the run, which the line feed does not change, and what
follows the run is the same. -/
lemma readAfter_newline (run text : List Char) :
    readAfter ('\n' :: run) text
      = ((readAfter run text).1.map fun found => (found.1, found.2 + 1),
          (readAfter run text).2) := by
  cases text with
  | nil => rfl
  | cons c text =>
    by_cases hopening : c = '('
    · simp only [readAfter, hopening, if_true, nameIn?_newline]
      cases nameIn? run with
      | none => rfl
      | some found =>
        cases afterBrace? text with
        | none => rfl
        | some body => rfl
    · simp only [readAfter, hopening, if_false]
      rfl

/-- A line feed in front of a text moves the name at its front by one place. -/
lemma readFront_newline (text : List Char) :
    readFront ('\n' :: text)
      = ((readFront text).1.map fun found => (found.1, found.2 + 1), (readFront text).2) := by
  have hhead : isHeadChar '\n' = true := by decide
  rw [readFront, List.takeWhile_cons_of_pos hhead, List.dropWhile_cons_of_pos hhead,
    readAfter_newline]
  rfl

/-- A line feed in front of a text moves its signatures.

**Proof sketch.** The line feed is passed over as a part of the run in front of the first signature,
so this is found one place further on. From there on the texts are the same (`allFrom_shift`). -/
lemma all_newline (text : List Char) : all ('\n' :: text) = (all text).map (shift 1) := by
  rw [all, allFrom_cons, readFront_newline, all, ← allFrom_shift]
  cases text with
  | nil =>
    have hnone : readFront [] = (none, []) := rfl
    simp [hnone, allFrom_nil]
  | cons c text =>
    have hshorter := length_readFront_lt (List.cons_ne_nil c text)
    have hplace : 0 + (('\n' :: c :: text).length - (readFront (c :: text)).2.length)
        = 0 + 1 + ((c :: text).length - (readFront (c :: text)).2.length) := by
      rw [List.length_cons]
      omega
    rw [allFrom_cons, hplace]
    congr 1
    rcases (readFront (c :: text)).1 with _ | ⟨name, before⟩
    · rfl
    · simp only [Option.map_some, Nat.zero_add, Nat.add_comm 1 before]

end Signature

/-! ## Places -/

namespace Place

/-- A line feed in front of a text moves its places by one line. -/
lemma line_newline (text : List Char) (place : Nat) :
    line ('\n' :: text) (place + 1) = line text place + 1 := by
  rw [line, List.take_succ_cons, List.count_cons_self, line]

/-- It moves the closing brace by one place. -/
lemma closing_newline (text : List Char) (opening : Nat) :
    closing ('\n' :: text) (opening + 1) = closing text opening + 1 := by
  rw [closing, closing, List.drop_succ_cons]
  cases beforeClosing? 0 (text.drop (opening + 1)) with
  | none => rfl
  | some n => exact Nat.add_right_comm (opening + 1) 1 n

end Place

/-! ## C and C++ sources -/

namespace CFamily

/-- The class one place and one line further on. -/
def Body.shift (body : Body) : Body :=
  { body with line := body.line + 1, opening := body.opening + 1, closing := body.closing + 1 }

/-- It moves a class by one line. -/
lemma Body.ofDefinition_newline (text : List Char) (d : Definition) :
    ofDefinition ('\n' :: text) (d.shift 1) = (ofDefinition text d).shift := by
  simp only [ofDefinition, Definition.shift, Place.line_newline, Place.closing_newline, shift]

/-- A class that is moved encloses the places that were moved with it. -/
lemma Body.encloses_shift (place : Nat) (body : Body) :
    body.shift.encloses (place + 1) = body.encloses place := by
  simp [encloses, shift]

/-- The innermost class around a place is the same one. -/
lemma innermost?_shift (place : Nat) (bodies : List Body) :
    innermost? (place + 1) (bodies.map Body.shift) = innermost? place bodies := by
  have hencloses : (Body.encloses (place + 1)) ∘ Body.shift = Body.encloses place :=
    funext (Body.encloses_shift place)
  rw [innermost?, ← List.map_reverse, List.findIdx?_map, hencloses, List.length_map]
  rfl

/-- A function belongs to the same class, wherever the source begins. -/
lemma attributionOf_shift (bodies : List Body) (signature : Signature) :
    attributionOf (bodies.map Body.shift) (signature.shift 1) = attributionOf bodies signature := by
  have hnamed : ∀ owner : List Char, (bodies.map Body.shift).findIdx? (·.name == owner)
      = bodies.findIdx? (·.name == owner) := by
    intro owner
    rw [List.findIdx?_map]
    rfl
  have hinnermost := innermost?_shift signature.place bodies
  simp only [attributionOf, Signature.shift, hinnermost, hnamed]

/-- What is found, one line further on. -/
def Reading.shift (r : Reading) : Reading where
  nameSpaces := r.nameSpaces.map fun n => (n.1, n.2 + 1)
  bodies := r.bodies.map Body.shift
  functions := r.functions.map fun n => (n.1, n.2 + 1)
  macros := r.macros.map fun n => (n.1, n.2 + 1)

/-- What is made of the chosen ones among moved things is what was made of them, moved. -/
lemma map_filter_move {α β : Type} {p : α → Bool} (move : α → α) (moved : β → β)
    {make make' : α → β} (hp : ∀ a, p (move a) = p a)
    (hmake : ∀ a, make' (move a) = moved (make a)) (list : List α) :
    ((list.map move).filter p).map make' = ((list.filter p).map make).map moved := by
  have hchosen : p ∘ move = p := funext hp
  have hmade : make' ∘ move = moved ∘ make := funext hmake
  rw [List.filter_map, hchosen, List.map_map, List.map_map, hmade]

/-- **A line feed in front of a text moves what is found in it by one line.**

**Proof sketch.** Definitions, signatures and lines are moved one by one: by one place, which is one
line further on. -/
lemma Reading.ofText_newline (text : List Char) : ofText ('\n' :: text) = (ofText text).shift := by
  have hline : ∀ place, Place.line ('\n' :: text) (place + 1) = Place.line text place + 1 :=
    Place.line_newline text
  have hbodies : (((Definition.all text).map (Definition.shift 1)).filter (!·.isNameSpace)).map
        (Body.ofDefinition ('\n' :: text))
      = (((Definition.all text).filter (!·.isNameSpace)).map (Body.ofDefinition text)).map
          Body.shift :=
    map_filter_move (Definition.shift 1) Body.shift (fun _ => rfl)
      (Body.ofDefinition_newline text) _
  have hmacros : ((splitLines ('\n' :: text)).mapIdx fun line content =>
        ((macroName? content).map (·, line)).toList).flatten
      = (((splitLines text).mapIdx fun line content =>
          ((macroName? content).map (·, line)).toList).flatten).map fun n => (n.1, n.2 + 1) := by
    refine eachLine_shift (fun f n => (n.1, f n.2)) (fun _ => rfl) ?_ 1 (splitLines text)
    intro f i content
    cases macroName? content with
    | none => rfl
    | some name => rfl
  simp only [ofText, shift, Definition.all_newline, Signature.all_newline, hbodies, hmacros,
    Reading.mk.injEq, true_and, and_true]
  constructor
  · exact map_filter_move (Definition.shift 1) _ (fun _ => rfl)
      (fun d => Prod.ext rfl (hline d.place)) _
  · exact map_filter_move (Signature.shift 1) _ (fun _ => rfl)
      (fun s => Prod.ext (attributionOf_shift _ s) (hline s.place)) _

/-- The functions of an owner are marked one line further on. -/
lemma Reading.functionsOf_shift (kind : Kind) (owner : Option Nat) (r : Reading) :
    r.shift.functionsOf kind owner = (r.functionsOf kind owner).map (Mark.renumber (· + 1)) := by
  rw [functionsOf, functionsOf]
  exact map_filter_move (fun n : Attribution × Nat => (n.1, n.2 + 1)) (Mark.renumber (· + 1))
    (fun _ => rfl) (fun _ => rfl) r.functions

/-- What is made of a class at a place in the list and of its functions is made of the class one
line further on.

**Proof sketch.** Part by part, the marks carry the lines of what was found, and these are one more.
-/
lemma Reading.marks_shift (r : Reading) : r.shift.marks = r.marks.map (Mark.renumber (· + 1)) := by
  have hclasses : ∀ bodies : List Body,
      ((bodies.map Body.shift).mapIdx fun index body =>
        Mark.enter body.header :: (r.shift.functionsOf .methods (some index) ++ [.leave])).flatten
      = ((bodies.mapIdx fun index body =>
          Mark.enter body.header :: (r.functionsOf .methods (some index) ++ [.leave])).flatten).map
            (Mark.renumber (· + 1)) := by
    intro bodies
    rw [List.map_flatten, List.mapIdx_eq_zipIdx_map, List.mapIdx_eq_zipIdx_map, List.zipIdx_map,
      List.map_map, List.map_map]
    congr 2
    funext entry
    simp [functionsOf_shift, Mark.renumber, Header.renumber, Body.header, Body.shift, Tag.renumber]
  have hbodies : r.shift.bodies = r.bodies.map Body.shift := rfl
  rw [marks, hbodies, hclasses, functionsOf_shift, marks, List.map_append, List.map_append,
    List.map_append, shift, List.map_map, List.map_map, List.map_map, List.map_map]
  rfl

/-- Empty lines in front are line feeds in front of the text. -/
lemma joinLines_blank (k : Nat) (lines : List (List Char)) :
    joinLines (List.replicate k [] ++ lines) = List.replicate k '\n' ++ joinLines lines := by
  induction k with
  | zero => rfl
  | succ k ih =>
    rw [List.replicate_succ, List.cons_append, List.replicate_succ, List.cons_append, ← ih]
    rfl

/-- **Empty lines before a source move all that is found in it.**

**Proof sketch.** Joined, the empty lines are line feeds, which masking leaves in front of the text;
each of them moves everything by one line. -/
theorem marks_shift (k : Nat) (lines : List (List Char)) :
    marks (List.replicate k [] ++ lines) = (marks lines).map (Mark.renumber (· + k)) := by
  rw [marks, joinLines_blank]
  induction k with
  | zero =>
    have hid : Mark.renumber (· + 0) = id := by
      funext m
      cases m <;> rfl
    rw [hid, List.map_id]
    rfl
  | succ k ih =>
    have hmask : Masking.mask ('\n' :: (List.replicate k '\n' ++ joinLines lines))
        = '\n' :: Masking.mask (List.replicate k '\n' ++ joinLines lines) := rfl
    rw [List.replicate_succ, List.cons_append, hmask, Reading.ofText_newline,
      Reading.marks_shift, ih,
      List.map_map]
    congr 1
    funext m
    cases m <;> rfl

end CFamily

end Outliner
