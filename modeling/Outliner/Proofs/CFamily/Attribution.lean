import Outliner.Proofs.Braces
import Outliner.Proofs.CFamily.Definitions
import Outliner.Proofs.CFamily.Signatures
import Outliner.Proofs.Checked.ByText
import Outliner.Proofs.Forest
import Outliner.Proofs.Once.Scan

set_option autoImplicit false

/-!
# Where functions belong

Every class that is defined in a source is reported, and every function is reported once: as a
method of the innermost class around its name, or of the first class that its name is qualified
with, or by itself. Nothing else is reported as a class, a method or a function.

## Main definitions

* `Outliner.CFamily.matchedBodies`, `Outliner.CFamily.matchedSignatures` — the classes and functions
  that the patterns of definitions and signatures match.
* `Outliner.CFamily.Belongs` — where a function belongs.
* `Outliner.CFamily.forest` — the constructs of a source.

## Main results

* `Outliner.CFamily.Body.encloses_iff_isSome_braceDepth?` — the places that a class encloses.
* `Outliner.CFamily.belongs_iff` — every function belongs to one place.
* `Outliner.Language.scan_attributed` — the constructs of a source.
-/

namespace Outliner

/-- The brace that closes a pair is the first one that closes too many.

**Proof sketch.** Induction on the text, at most up to the place. A brace opens one pair more on
both sides or closes one, and the closing one that is too many is the last one that is looked for.
-/
lemma Place.isSome_braceDepth?_take (depth k : Nat) (text : List Char) :
    (braceDepth? depth (text.take k)).isSome = true
      ↔ ∀ n, beforeClosing? depth text = some n → k ≤ n := by
  induction text generalizing depth k with
  | nil => simp [braceDepth?, beforeClosing?]
  | cons c text ih =>
    cases k with
    | zero => simp [braceDepth?]
    | succ k =>
      rw [List.take_succ_cons]
      by_cases hopening : c = '\x7b'
      · subst hopening
        rw [beforeClosing?_opening, braceDepth?, if_pos rfl, ih]
        simp
      · by_cases hclosing : c = '\x7d'
        · subst hclosing
          rw [braceDepth?, if_neg hopening, if_pos rfl]
          cases depth with
          | zero => simp [beforeClosing?_last]
          | succ depth =>
            rw [beforeClosing?_closing, if_neg depth.succ_ne_zero, Nat.succ_sub_one, ih]
            simp
        · rw [beforeClosing?_other hopening hclosing, braceDepth?, if_neg hopening,
            if_neg hclosing, ih]
          simp

namespace CFamily

/-! ## What the patterns match -/

/-- The classes that the pattern of definitions matches, in their order. -/
def matchedBodies (text : List Char) : List Body :=
  (((Definition.pattern.finds text).filterMap Definition.ofMatch?).filter (!·.isNameSpace)).map
    (Body.ofDefinition text)

/-- The functions that the pattern of signatures matches, but for the words that begin a
statement. -/
def matchedSignatures (text : List Char) : List Signature :=
  ((Signature.pattern.finds text).filterMap Signature.ofMatch?).filter
    fun s => !keywords.contains (.ofList s.name)

/-- The bodies that are matched are those that are read. -/
lemma matchedBodies_eq (text : List Char) : matchedBodies text = bodiesOf text := by
  rw [matchedBodies, ← Definition.all_eq_finds]
  rfl

/-! ## Where a function belongs -/

/-- **A class encloses the places behind its opening brace up to the one that closes too many.** -/
theorem Body.encloses_iff_isSome_braceDepth? {text : List Char} {place : Nat} (d : Definition) :
    (Body.ofDefinition text d).encloses place = true
      ↔ d.opening < place ∧ place < text.length
        ∧ (braceDepth? 0 ((text.drop (d.opening + 1)).take (place - d.opening))).isSome = true := by
  rw [encloses_iff, Place.isSome_braceDepth?_take, ofDefinition, Place.closing]
  refine and_congr_right fun hopening => ?_
  cases hclosing : Place.beforeClosing? 0 (text.drop (d.opening + 1)) with
  | none => simp
  | some n =>
    have hless := Place.beforeClosing?_lt hclosing
    rw [List.length_drop] at hless
    simp only [Option.some.injEq, forall_eq']
    omega

/-- The name is cut in two at its last pair of colons: at no other pair is the first part longer. -/
def CutsLast (whole owner name : List Char) : Prop :=
  whole = owner ++ "::".toList ++ name
    ∧ ∀ owner' name', whole = owner' ++ "::".toList ++ name' → owner'.length ≤ owner.length

/-- Where a function belongs and how it is called there, given the classes of the source. -/
inductive Belongs (bodies : List Body) (s : Signature) : Attribution → Prop
  /-- The function belongs to the class around its name whose body opens last. -/
  | inside {index : Nat} {body : Body} (hbody : bodies[index]? = some body)
      (hencloses : body.encloses s.place = true)
      (hlast : ∀ other ∈ bodies, other.encloses s.place = true → other.opening ≤ body.opening) :
      Belongs bodies s ⟨some index, s.name⟩
  /-- Outside all classes it belongs to the first class that its name is qualified with. -/
  | named {index : Nat} {body : Body} {name : List Char}
      (houtside : ∀ other ∈ bodies, other.encloses s.place = false)
      (hcut : CutsLast s.name body.name name) (hbody : bodies[index]? = some body)
      (hfirst : ∀ i < index, ∀ other, bodies[i]? = some other → other.name ≠ body.name) :
      Belongs bodies s ⟨some index, name⟩
  /-- Otherwise it stands by itself, under its full name. -/
  | free (houtside : ∀ other ∈ bodies, other.encloses s.place = false)
      (hunknown : ∀ other ∈ bodies, ∀ name, ¬CutsLast s.name other.name name) :
      Belongs bodies s ⟨none, s.name⟩

/-- A qualified name is cut at its last pair of colons.

**Proof sketch.** A later pair would lie in the second part or begin with the last of the colons
before it. -/
lemma splitQualified?_iff_cutsLast {whole owner name : List Char} :
    splitQualified? whole = some (owner, name) ↔ CutsLast whole owner name := by
  rw [splitQualified?_eq_some_iff]
  constructor
  · rintro ⟨rfl, hlast⟩
    refine ⟨by simp, fun owner' name' h => ?_⟩
    by_contra hlonger
    have hbehind : (owner ++ ':' :: ':' :: name).drop (owner.length + 1) = ':' :: name := by
      rw [List.drop_append, List.drop_eq_nil_of_le (Nat.le_succ _), Nat.add_sub_cancel_left]
      rfl
    have hinside : (owner' ++ "::".toList ++ name').drop (owner.length + 1)
        = owner'.drop (owner.length + 1) ++ "::".toList ++ name' := by
      rw [List.append_assoc, List.drop_append_of_le_length (by omega), List.append_assoc]
    refine hlast ?_
    rw [← hbehind, h, hinside]
    exact List.infix_append _ _ _
  · rintro ⟨rfl, hlast⟩
    refine ⟨by simp, ?_⟩
    rintro ⟨front, back, hpair⟩
    have hlonger := hlast (owner ++ ':' :: front) back (by
      rw [show owner ++ "::".toList ++ name = owner ++ [':'] ++ (':' :: name) by simp, ← hpair]
      simp)
    simp only [List.length_append, List.length_cons] at hlonger
    omega

/-- Classes are listed in the order of their opening braces. -/
def InOrder (bodies : List Body) : Prop := bodies.Pairwise (·.opening < ·.opening)

/-- The bodies that are matched come in the order of their opening braces. -/
lemma matchedBodies_inOrder (text : List Char) : InOrder (matchedBodies text) := by
  rw [matchedBodies_eq]
  exact (bodiesOf_pairwise text).imp Body.Nested.opens

section Innermost

variable {bodies : List Body} {place : Nat}

/-- The innermost class encloses the place, and its body opens last.

**Proof sketch.** The search goes from the last body on, so it finds the last one around the place.
Bodies come in the order of their opening braces. -/
lemma innermost?_eq_some (h : InOrder bodies) {index : Nat}
    (hindex : innermost? place bodies = some index) :
    ∃ body, bodies[index]? = some body ∧ body.encloses place = true
      ∧ ∀ other ∈ bodies, other.encloses place = true → other.opening ≤ body.opening := by
  obtain ⟨n, hn, rfl⟩ := Option.map_eq_some_iff.1 hindex
  obtain ⟨hlt, hencloses, hlater⟩ := List.findIdx?_eq_some_iff_getElem.1 hn
  rw [List.length_reverse] at hlt
  rw [List.getElem_reverse] at hencloses
  refine ⟨bodies[bodies.length - 1 - n], List.getElem?_eq_getElem _, hencloses,
    fun other hother henclosed => ?_⟩
  obtain ⟨i, hi, rfl⟩ := List.getElem_of_mem hother
  rcases Nat.lt_trichotomy i (bodies.length - 1 - n) with hearlier | rfl | hbehind
  · exact (List.pairwise_iff_getElem.1 h i _ hi _ hearlier).le
  · exact Nat.le_refl _
  · -- A class further on would be found first, from the end of the list.
    have hnot := hlater (bodies.length - 1 - i) (by omega)
    rw [List.getElem_reverse] at hnot
    have hplace : bodies.length - 1 - (bodies.length - 1 - i) = i := by omega
    simp only [hplace, henclosed, not_true] at hnot

/-- Where no body is innermost, none is around the place. -/
lemma innermost?_eq_none :
    innermost? place bodies = none ↔ ∀ other ∈ bodies, other.encloses place = false := by
  rw [innermost?, Option.map_eq_none_iff, List.findIdx?_eq_none_iff]
  simp only [List.mem_reverse]

end Innermost

/-- A function belongs where it is said to.

**Proof sketch.** By the three ways to attribute a function: within the innermost body, by the owner
that its name cuts off, or to none, if no body is called so. -/
lemma belongs_attributionOf {bodies : List Body} (h : InOrder bodies) (s : Signature) :
    Belongs bodies s (attributionOf bodies s) := by
  unfold attributionOf
  split
  -- within a body
  · next index hindex =>
    obtain ⟨body, hbody, hencloses, hlast⟩ := innermost?_eq_some h hindex
    exact .inside hbody hencloses hlast
  · next hnone =>
    have houtside := innermost?_eq_none.1 hnone
    split
    -- outside all bodies, and not qualified
    · next hsplit =>
      refine .free houtside fun other _ name hcut => ?_
      rw [splitQualified?_iff_cutsLast.2 hcut] at hsplit
      cases hsplit
    · next owner name hsplit =>
      have hcut := splitQualified?_iff_cutsLast.1 hsplit
      split
      -- qualified by the name of a body
      · next index hindex =>
        obtain ⟨hlt, hname, hearlier⟩ := List.findIdx?_eq_some_iff_getElem.1 hindex
        have howner : bodies[index].name = owner := beq_iff_eq.1 hname
        refine .named houtside (howner ▸ hcut) (List.getElem?_eq_getElem hlt)
          fun i hi other hother hsame => ?_
        obtain ⟨hilt, rfl⟩ := List.getElem?_eq_some_iff.1 hother
        exact hearlier i hi (beq_iff_eq.2 (hsame.trans howner))
      -- qualified by another name
      · next hunknown =>
        refine .free houtside fun other hother name' hcut' => ?_
        have hsame := (splitQualified?_iff_cutsLast.2 hcut').symm.trans hsplit
        have hname : other.name = owner := congrArg Prod.fst (Option.some.inj hsame)
        have hnot := List.findIdx?_eq_none_iff.1 hunknown other hother
        rw [hname, beq_self_eq_true] at hnot
        cases hnot

/-- A function belongs to one place.

**Proof sketch.** By the ways in which it belongs, pairwise. Two innermost bodies have the same
opening brace, and two first bodies of the owner have the same index. The other ways exclude each
other. -/
lemma Belongs.unique {bodies : List Body} {s : Signature} {a b : Attribution} (h : InOrder bodies)
    (ha : Belongs bodies s a) (hb : Belongs bodies s b) : a = b := by
  have hnot : ∀ {index : Nat} {body : Body}, bodies[index]? = some body →
      body.encloses s.place = true → ¬∀ other ∈ bodies, other.encloses s.place = false := by
    intro index body hbody hencloses houtside
    rw [houtside body (List.mem_of_getElem? hbody)] at hencloses
    cases hencloses
  cases ha with
  | @inside i body hbody hencloses hlast =>
    cases hb with
    | @inside j other hother hencloses' hlast' =>
      have hle := hlast other (List.mem_of_getElem? hother) hencloses'
      have hge := hlast' body (List.mem_of_getElem? hbody) hencloses
      obtain ⟨hi, rfl⟩ := List.getElem?_eq_some_iff.1 hbody
      obtain ⟨hj, rfl⟩ := List.getElem?_eq_some_iff.1 hother
      rcases Nat.lt_trichotomy i j with hlt | rfl | hlt
      · exact absurd hle (Nat.not_le_of_lt (List.pairwise_iff_getElem.1 h i j hi hj hlt))
      · rfl
      · exact absurd hge (Nat.not_le_of_lt (List.pairwise_iff_getElem.1 h j i hj hi hlt))
    | named houtside => exact absurd houtside (hnot hbody hencloses)
    | free houtside => exact absurd houtside (hnot hbody hencloses)
  | @named i body name houtside hcut hbody hfirst =>
    cases hb with
    | inside hother hencloses => exact absurd houtside (hnot hother hencloses)
    | @named j other name' _ hcut' hother hfirst' =>
      have hsame := (splitQualified?_iff_cutsLast.2 hcut).symm.trans
        (splitQualified?_iff_cutsLast.2 hcut')
      obtain ⟨howner, rfl⟩ := Prod.mk.inj (Option.some.inj hsame)
      rcases Nat.lt_trichotomy i j with hlt | rfl | hlt
      · exact absurd howner (hfirst' i hlt body hbody)
      · rfl
      · exact absurd howner.symm (hfirst j hlt other hother)
    | free _ hunknown => exact absurd hcut (hunknown body (List.mem_of_getElem? hbody) name)
  | free houtside hunknown =>
    cases hb with
    | inside hother hencloses => exact absurd houtside (hnot hother hencloses)
    | @named j other name' _ hcut hother =>
      exact absurd hcut (hunknown other (List.mem_of_getElem? hother) name')
    | free => rfl

/-- **Every function belongs to one place.** -/
theorem belongs_iff {bodies : List Body} {s : Signature} {a : Attribution} (h : InOrder bodies) :
    Belongs bodies s a ↔ attributionOf bodies s = a :=
  ⟨(belongs_attributionOf h s).unique h, fun heq => heq ▸ belongs_attributionOf h s⟩

/-! ## The constructs of a source -/

/-- The constructs of the functions that belong to an owner. -/
def functionsOf (kind : Kind) (owner : Option Nat) (functions : List (Attribution × Nat)) :
    List Construct :=
  Construct.leaves kind
    ((functions.filter (·.1.owner == owner)).map fun f => (.ofList f.1.name, f.2))

/-- The functions that stand by themselves, and the classes with the functions that belong to
them. -/
def forest (bodies : List Body) (functions : List (Attribution × Nat)) : List Construct :=
  functionsOf .functions none functions
    ++ bodies.mapIdx fun index body =>
        .branch body.header (functionsOf .methods (some index) functions)

/-- The functions that belong to a place are marked as leaves. -/
lemma marksOf_functionsOf (r : Reading) (kind : Kind) (owner : Option Nat) :
    Construct.marksOf (functionsOf kind owner r.functions) = r.functionsOf kind owner := by
  rw [functionsOf, Construct.marksOf_leaves, List.map_map]
  rfl

/-- Bodies are marked one after the other, each with its members. -/
lemma marksOf_mapIdx (bodies : List Body) (members : Nat → List Construct) :
    Construct.marksOf (bodies.mapIdx fun index body => .branch body.header (members index))
      = (bodies.mapIdx fun index body =>
          Mark.enter body.header :: (Construct.marksOf (members index) ++ [.leave])).flatten := by
  induction bodies generalizing members with
  | nil => rfl
  | cons body bodies ih =>
    rw [List.mapIdx_cons, List.mapIdx_cons, Construct.marksOf, List.flatten_cons,
      ← ih fun index => members (index + 1), Construct.marks]

/-- The marks of all but the name spaces are those of the forest and of the text substitutions. -/
lemma otherMarks_eq (r : Reading) :
    r.otherMarks = Construct.marksOf (forest r.bodies r.functions
      ++ Construct.leaves .macros (r.macros.map fun m => (.ofList m.1, m.2))) := by
  rw [Reading.otherMarks, Construct.marksOf_append, forest, Construct.marksOf_append,
    marksOf_functionsOf, marksOf_mapIdx, Construct.marksOf_leaves, List.map_map]
  simp only [marksOf_functionsOf]
  rfl

end CFamily

namespace Language

/-- **Every class and every function of a source is reported once.** The classes are those that the
pattern of definitions matches, in their order. Every function that the pattern of signatures
matches, but for the words that begin a statement, is a method of the innermost class around its
name, or else of the first class that its name is qualified with, or else it stands by itself. There
is nothing else but name spaces and text substitutions. The innermost class is the one whose body
opens last, and no class around the name has a shorter body (`CFamily.runInnermost?_eq`).

**Proof sketch.** Definitions and signatures are found as their patterns are, and a function belongs
where the source files it (`CFamily.belongs_iff`). The marks of a source are those of the forest,
behind the name spaces, each of which is filed unless there is one of its name. -/
theorem scan_attributed {language : Language} (hlanguage : language = c ∨ language = cpp)
    (lines : List String) :
    let text := Masking.mask (joinLines (lines.map String.toList))
    let bodies := CFamily.matchedBodies text
    let signatures := CFamily.matchedSignatures text
    ∃ (attributions : List CFamily.Attribution) (nameSpaces macros : List (String × Nat)),
      List.Forall₂ (CFamily.Belongs bodies) signatures attributions
      ∧ language.scan lines = (Document.ofForest language.legend (
          Construct.leaves .namespaces nameSpaces
          ++ CFamily.forest bodies
              (attributions.zip (signatures.map fun s => Place.line text s.place))
          ++ Construct.leaves .macros macros)).forgetLastClass := by
  intro text bodies signatures
  have hmarks : language.marks (lines.map String.toList) = (CFamily.Reading.ofText text).marks := by
    rcases hlanguage with rfl | rfl <;> rfl
  have hforgets : language.forgetsAtEnd = true := by
    rcases hlanguage with rfl | rfl <;> rfl
  have hbodies : (CFamily.Reading.ofText text).bodies = bodies :=
    (CFamily.matchedBodies_eq text).symm
  have hfunctions : (CFamily.Reading.ofText text).functions
      = (signatures.map (CFamily.attributionOf bodies)).zip
          (signatures.map fun s => Place.line text s.place) := by
    have hsignatures : signatures
        = (Signature.all text).filter fun s => !CFamily.keywords.contains (.ofList s.name) := by
      rw [Signature.all_eq_finds]
      rfl
    rw [List.zip_map', hsignatures, ← hbodies]
    rfl
  obtain ⟨kept, -, hdocument⟩ := Document.ofMarks_once_forest language.legend .namespaces
    ((CFamily.Reading.ofText text).nameSpaces.map fun n => (.ofList n.1, n.2))
    (CFamily.forest bodies (CFamily.Reading.ofText text).functions ++ Construct.leaves .macros
      ((CFamily.Reading.ofText text).macros.map fun m => (.ofList m.1, m.2)))
  refine ⟨signatures.map (CFamily.attributionOf bodies), kept,
    (CFamily.Reading.ofText text).macros.map fun m => (.ofList m.1, m.2), ?_, ?_⟩
  · rw [List.forall₂_map_right_iff, List.forall₂_same]
    exact fun s _ => CFamily.belongs_attributionOf (CFamily.matchedBodies_inOrder text) s
  · rw [scan, if_pos hforgets, hmarks, CFamily.Reading.marks_eq_append, CFamily.otherMarks_eq,
      hbodies, ← hfunctions, List.append_assoc, ← hdocument, List.map_map]
    rfl

/-- A source with a class in a class, and with qualified names of a class and of none. -/
def nestedClasses : List String :=
  ["namespace n \x7b", "class A \x7b", "  struct B \x7b int g(int x) \x7b \x7d \x7d;",
    "  int f(int x) \x7b while (x) \x7b \x7d \x7d", "\x7d;", "void A::h(int x) \x7b \x7d",
    "void Z::k(int x) \x7b \x7d", "\x7d"]

/-- The inner class has its method, the outer one a method in its body and one behind it, and the
function of an unknown class stands by itself.

**Proof sketch.** The general theorem at the text, with the document computed. -/
theorem scan_attributed_nested :
    let text := Masking.mask (joinLines (nestedClasses.map String.toList))
    (cpp = c ∨ cpp = cpp)
      ∧ (∃ (attributions : List CFamily.Attribution) (nameSpaces macros : List (String × Nat)),
          List.Forall₂ (CFamily.Belongs (CFamily.matchedBodies text))
            (CFamily.matchedSignatures text) attributions
          ∧ cpp.scan nestedClasses = (Document.ofForest cpp.legend (
              Construct.leaves .namespaces nameSpaces
              ++ CFamily.forest (CFamily.matchedBodies text)
                  (attributions.zip
                    ((CFamily.matchedSignatures text).map fun s => Place.line text s.place))
              ++ Construct.leaves .macros macros)).forgetLastClass)
      ∧ ((cpp.scan nestedClasses).occurrences.map fun o => (o.tag.name, o.tag.kind, o.tag.scope))
        = [("n", .namespaces, none), ("Z::k", .functions, none), ("A", .classes, none),
          ("f", .methods, some "A"), ("h", .methods, some "A"), ("B", .classes, none),
          ("g", .methods, some "B")] :=
  ⟨.inr rfl, scan_attributed (.inr rfl) nestedClasses, by decide +kernel⟩

end Language

end Outliner
