import Outliner.Proofs.Names
import Outliner.Proofs.Reports.ByText

set_option autoImplicit false

/-!
# Names in C and C++ sources

Definitions, signatures and text substitutions are found by their names, so they have some. But a
function outside all classes that is qualified with the name of a class is called there by what
follows its last pair of colons, and nothing may follow it.

## Main definitions

* `Outliner.CFamily.NamesNothing` — a function of the text is called by nothing.

## Main results

* `Outliner.CFamily.marks_hasName` — what is reported of a source has a name, unless a function is
  called by nothing.
* `Outliner.CFamily.exists_leaf_of_namesNothing` — a function called by nothing is reported as one.
-/

namespace Outliner.CFamily

/-- The classes of a text. -/
def bodiesOf (text : List Char) : List Body := (Reading.ofText text).bodies

/-- A function of the text stands outside all classes, and its name is that of a class and a pair of
colons with nothing after them. -/
def NamesNothing (text : List Char) : Prop :=
  ∃ s ∈ Signature.all text, innermost? s.place (bodiesOf text) = none
    ∧ ∃ body ∈ bodiesOf text, s.name = body.name ++ [':', ':']

/-- A name is cut at a pair of colons where the rest is as long as what follows them. -/
lemma cut_colons (owner name : List Char) :
    (owner ++ ':' :: ':' :: name).take ((owner ++ ':' :: ':' :: name).length - name.length - 2) = owner
      ∧ (owner ++ ':' :: ':' :: name).drop ((owner ++ ':' :: ':' :: name).length - name.length)
        = name := by
  have hlength : (owner ++ ':' :: ':' :: name).length = owner.length + 2 + name.length := by
    simp only [List.length_append, List.length_cons]
    omega
  have hdrop : owner.length + 2 + name.length - name.length = (owner ++ [':', ':']).length := by
    simp
  have htake : (owner ++ [':', ':']).length - 2 = owner.length := by simp
  rw [hlength, hdrop, htake, List.take_left]
  refine ⟨rfl, ?_⟩
  rw [show owner ++ ':' :: ':' :: name = owner ++ [':', ':'] ++ name by simp, List.drop_left]

/-- A name that is cut has a pair of colons where it is cut, and none behind it.

**Proof sketch.** The text is searched from its end. What is found first there is the last pair; a
pair behind it, even one that shares a colon with it, would have been found before it. -/
lemma eq_append_of_splitQualified? {whole owner name : List Char}
    (h : splitQualified? whole = some (owner, name)) :
    whole = owner ++ ':' :: ':' :: name ∧ ¬[':', ':'] <:+: ':' :: name := by
  rw [splitQualified?, Option.map_eq_some_iff] at h
  obtain ⟨n, hoffset, heq⟩ := h
  obtain ⟨hn, ⟨rest, hrest⟩, hfirst⟩ := offset?_eq_some_iff.1 hoffset
  obtain ⟨after, hafter, hlength⟩ : ∃ after, whole = rest.reverse ++ ':' :: ':' :: after
      ∧ after.length = n := by
    refine ⟨(whole.reverse.take n).reverse, ?_, ?_⟩
    · have hwhole := List.take_append_drop n whole.reverse
      rw [← hrest] at hwhole
      simpa using (congrArg List.reverse hwhole).symm
    · rw [List.length_reverse, List.length_take_of_le hn]
  subst hafter hlength
  obtain ⟨rfl, rfl⟩ := Prod.mk.inj ((congrArg₂ Prod.mk (cut_colons rest.reverse after).1
    (cut_colons rest.reverse after).2).symm.trans heq)
  refine ⟨rfl, ?_⟩
  rintro ⟨front, back, hpair⟩
  have hlength := congrArg List.length hpair
  simp only [List.length_append, List.length_cons, List.length_nil] at hlength
  have hreverse : (rest.reverse ++ ':' :: ':' :: after).reverse
      = back.reverse ++ (':' :: ':' :: (front.reverse ++ ':' :: rest)) := by
    rw [← hpair]
    simp
  refine hfirst back.length (by omega) ?_
  have hback : back.length = back.reverse.length := List.length_reverse.symm
  rw [hreverse, hback, List.drop_left]
  exact ⟨front.reverse ++ ':' :: rest, rfl⟩

/-- A name is cut at a pair of colons if there is none behind it.

**Proof sketch.** What is found first from the end is this pair. One found before it would lie
within what follows the first of the two colons. -/
lemma splitQualified?_append {owner name : List Char} (hlast : ¬[':', ':'] <:+: ':' :: name) :
    splitQualified? (owner ++ ':' :: ':' :: name) = some (owner, name) := by
  rw [splitQualified?, Option.map_eq_some_iff]
  refine ⟨name.length, offset?_eq_some_iff.2 ⟨?_, ?_, fun m hm hfront => hlast ?_⟩,
    congrArg₂ Prod.mk (cut_colons owner name).1 (cut_colons owner name).2⟩
  · simp
  · simp
  · have hall : (owner ++ ':' :: ':' :: name).reverse
        = (name.reverse ++ [':']) ++ ':' :: owner.reverse := by simp
    have hle : m ≤ (name.reverse ++ [':']).length := by
      simp only [List.length_append, List.length_reverse]
      omega
    rw [hall, List.drop_append_of_le_length hle] at hfront
    have hfront : [':', ':'] <+: (name.reverse ++ [':']).drop m := by
      refine List.prefix_of_prefix_length_le hfront (List.prefix_append _ _) ?_
      simp only [List.length_drop, List.length_append, List.length_reverse, List.length_cons,
        List.length_nil]
      omega
    have hinfix : [':', ':'] <:+: name.reverse ++ [':'] :=
      hfront.isInfix.trans (List.drop_suffix m _).isInfix
    rw [← List.reverse_infix]
    simpa using hinfix

/-- A qualified name is cut at its last pair of colons. -/
lemma splitQualified?_eq_some_iff {whole owner name : List Char} :
    splitQualified? whole = some (owner, name)
      ↔ whole = owner ++ ':' :: ':' :: name ∧ ¬[':', ':'] <:+: ':' :: name := by
  constructor
  · exact eq_append_of_splitQualified?
  · rintro ⟨rfl, hlast⟩
    exact splitQualified?_append hlast

/-- A qualified name with nothing after its last pair of colons ends in them. -/
lemma splitQualified?_eq_nil_iff {whole owner : List Char} :
    splitQualified? whole = some (owner, []) ↔ whole = owner ++ [':', ':'] := by
  have hpair : ¬[':', ':'] <:+: [':'] := fun h => absurd h.length_le (by decide)
  rw [splitQualified?_eq_some_iff, and_iff_left hpair]

/-- A function is called by nothing where it stands outside all classes, and its name is that of a
class and a pair of colons.

**Proof sketch.** In a class a function keeps its whole name. Outside, the part behind the last
colons is dropped for the owner only if a class is called like the owner, and it is nothing only if
the name ends in the colons. -/
lemma attributionOf_name_eq_nil_iff {bodies : List Body} {s : Signature} (hname : s.name ≠ []) :
    (attributionOf bodies s).name = []
      ↔ innermost? s.place bodies = none
        ∧ ∃ body ∈ bodies, s.name = body.name ++ [':', ':'] := by
  unfold attributionOf
  split
  -- in a class
  · next index hinner => simp [hinner, hname]
  · next hinner =>
    split
    -- outside all classes, and not qualified
    · next hsplit =>
      simp only [hname, hinner, true_and, false_iff, not_exists, not_and]
      intro body hbody hcolons
      rw [splitQualified?_eq_nil_iff.2 hcolons] at hsplit
      exact absurd hsplit (by simp)
    -- qualified
    · next owner name hsplit =>
      have hcolons : ∀ body : Body, s.name = body.name ++ [':', ':'] →
          owner = body.name ∧ name = [] := by
        intro body h
        rw [splitQualified?_eq_nil_iff.2 h] at hsplit
        obtain ⟨rfl, rfl⟩ := Prod.mk.inj (Option.some.inj hsplit)
        exact ⟨rfl, rfl⟩
      split
      · next index hindex =>
        obtain ⟨hlt, howner, -⟩ := List.findIdx?_eq_some_iff_getElem.1 hindex
        constructor
        · rintro rfl
          refine ⟨hinner, bodies[index], List.getElem_mem hlt, ?_⟩
          rw [beq_iff_eq.1 howner]
          exact splitQualified?_eq_nil_iff.1 hsplit
        · rintro ⟨-, body, -, h⟩
          exact (hcolons body h).2
      · next hnone =>
        simp only [hname, hinner, true_and, false_iff, not_exists, not_and]
        intro body hbody h
        have hother := List.findIdx?_eq_none_iff.1 hnone body hbody
        rw [(hcolons body h).1] at hother
        exact absurd hother (by simp)

/-- A function that belongs to no class is called by its name. -/
lemma attributionOf_name_of_none {bodies : List Body} {s : Signature}
    (h : (attributionOf bodies s).owner = none) : (attributionOf bodies s).name = s.name := by
  unfold attributionOf at h ⊢
  split at h
  · exact absurd h (by simp)
  · split at h
    · rfl
    · split at h
      · exact absurd h (by simp)
      · rfl

/-- A function belongs to a class of the list.

**Proof sketch.** The class is found by searching the list, for the innermost one around the place
or for the owner in the name. -/
lemma attributionOf_lt {bodies : List Body} {s : Signature} {index : Nat}
    (h : (attributionOf bodies s).owner = some index) : index < bodies.length := by
  unfold attributionOf at h
  split at h
  · next innermost hinner =>
    obtain rfl := Option.some.inj h
    obtain ⟨n, hn, rfl⟩ := Option.map_eq_some_iff.1 hinner
    obtain ⟨hlt, -, -⟩ := List.findIdx?_eq_some_iff_getElem.1 hn
    rw [List.length_reverse] at hlt
    omega
  · split at h
    · exact absurd h (by simp)
    · split at h
      · next named hnamed =>
        obtain rfl := Option.some.inj h
        exact (List.findIdx?_eq_some_iff_getElem.1 hnamed).1
      · exact absurd h (by simp)

/-- No word that begins a statement has colons. -/
lemma not_isKeyword {owner : List Char} :
    keywords.contains (.ofList (owner ++ [':', ':'])) = false := by
  have hcolons : ∀ word ∈ keywords, ':' ∉ word.toList := by
    decide
  rw [List.contains_eq_mem, decide_eq_false_iff_not]
  intro hword
  refine hcolons _ hword ?_
  rw [String.toList_ofList]
  exact List.mem_append_right _ List.mem_cons_self

/-- **What is reported of a source has a name**, unless a function is called by nothing.

**Proof sketch.** Definitions and macros have names as such. A function has one unless its
attribution takes all of it away, which was excluded. -/
theorem marks_hasName {lines : List (List Char)}
    (h : ¬NamesNothing (Masking.mask (joinLines lines))) :
    ∀ m ∈ marks lines, m.All Report.HasName := by
  refine Reading.marks_all (fun n hn => ?_) (fun f hf kind => ?_) (fun body hbody => ?_)
    (fun m hm => ?_)
  · obtain ⟨d, hd, rfl⟩ := List.mem_map.1 hn
    exact Report.hasName_ofList (Definition.mem_all (List.mem_filter.1 hd).1).nonempty
  · obtain ⟨s, hs, rfl⟩ := List.mem_map.1 hf
    have hsignature := (List.mem_filter.1 hs).1
    refine Report.hasName_ofList fun hnothing => h ⟨s, hsignature, ?_⟩
    exact (attributionOf_name_eq_nil_iff (Signature.mem_all hsignature).nonempty).1 hnothing
  · obtain ⟨d, hd, rfl⟩ := List.mem_map.1 hbody
    exact Report.hasName_ofList (Definition.mem_all (List.mem_filter.1 hd).1).nonempty
  · obtain ⟨found, hfound, hm⟩ := List.mem_flatten.1 hm
    obtain ⟨i, hi, rfl⟩ := List.mem_mapIdx.1 hfound
    obtain ⟨name, hname, rfl⟩ := Option.map_eq_some_iff.1 (Option.mem_toList.1 hm)
    exact Report.hasName_ofList (macroName?_isInfix hname).2.nonempty

/-- What is found of a function is reported, as a function or as a method of the class to which it
belongs.

**Proof sketch.** A free function is among those at the top. A method stands in the block of its
class, which is one of the list. -/
lemma Reading.mem_marks_of_function {r : Reading} {f : Attribution × Nat} (hf : f ∈ r.functions)
    (howner : ∀ index, f.1.owner = some index → index < r.bodies.length) :
    Mark.leaf (if f.1.owner = none then .functions else .methods) (.ofList f.1.name) f.2
      ∈ r.marks := by
  have hleaf : ∀ kind, Mark.leaf kind (.ofList f.1.name) f.2 ∈ r.functionsOf kind f.1.owner :=
    fun kind => List.mem_map.2 ⟨f, List.mem_filter.2 ⟨hf, beq_self_eq_true _⟩, rfl⟩
  rw [Reading.marks]
  refine List.mem_append_left _ ?_
  cases hindex : f.1.owner with
  | none =>
    rw [if_pos rfl]
    exact List.mem_append_left _ (List.mem_append_right _ (hindex ▸ hleaf .functions))
  | some index =>
    rw [if_neg (Option.some_ne_none index)]
    refine List.mem_append_right _ (List.mem_flatten.2
      ⟨_, List.mem_mapIdx.2 ⟨index, howner index hindex, rfl⟩, ?_⟩)
    exact List.mem_cons_of_mem _ (List.mem_append_left _ (hindex ▸ hleaf .methods))

/-- A function whose name is none of the words that begin a statement is found. -/
lemma mem_functions {text : List Char} {s : Signature} (hs : s ∈ Signature.all text)
    (hname : keywords.contains (.ofList s.name) = false) :
    (attributionOf (bodiesOf text) s, Place.line text s.place) ∈ (Reading.ofText text).functions :=
  List.mem_map.2 ⟨s, List.mem_filter.2 ⟨hs, by rw [hname]; rfl⟩, rfl⟩

/-- A function that is called by nothing is reported as a method without a name.

**Proof sketch.** It belongs to the first class of its owner's name, so it is among the marks of
this class. -/
theorem exists_leaf_of_namesNothing {lines : List (List Char)}
    (h : NamesNothing (Masking.mask (joinLines lines))) :
    ∃ line, Mark.leaf .methods "" line ∈ marks lines := by
  obtain ⟨s, hs, hcalled⟩ := h
  generalize htext : Masking.mask (joinLines lines) = text at hs hcalled
  have hname : s.name ≠ [] := (Signature.mem_all hs).nonempty
  have hnothing : (attributionOf (bodiesOf text) s).name = [] :=
    (attributionOf_name_eq_nil_iff hname).2 hcalled
  obtain ⟨-, body, -, hcolons⟩ := hcalled
  have hfound := mem_functions hs (hcolons ▸ not_isKeyword)
  cases howner : (attributionOf (bodiesOf text) s).owner with
  | none =>
    rw [attributionOf_name_of_none howner] at hnothing
    exact absurd hnothing hname
  | some index =>
    refine ⟨Place.line text s.place, ?_⟩
    have hmark := Reading.mem_marks_of_function hfound fun index => attributionOf_lt
    rw [howner, if_neg (Option.some_ne_none index), hnothing] at hmark
    rw [marks, htext]
    exact hmark

end Outliner.CFamily
