import Outliner.Proofs.Pattern

set_option autoImplicit false

/-!
# What combined patterns match

A pattern that is put together from others matches what they match one behind the other. Where each
part can be passed in one way at most, because what follows it begins with something else, so can
the whole, and it is read from left to right. Of other patterns it is told which texts they match.

## Main definitions

* `Outliner.Pattern.Reads` — a pattern that matches in one way at most.
* `Outliner.Pattern.Spells` — a pattern that matches the texts of a class, wherever they stand.

## Main results

* `Outliner.Pattern.Reads.seq`, `Outliner.Pattern.Reads.either`, `Outliner.Pattern.Reads.many`,
  `Outliner.Pattern.Reads.skip`, `Outliner.Pattern.Reads.maybe` — how combined patterns are read.
* `Outliner.Pattern.Spells.seq`, `Outliner.Pattern.Spells.many`, `Outliner.Pattern.Spells.plus` —
  what combined patterns match.
-/

namespace Outliner.Pattern

variable {a b p : Pattern} {m m' : Match}

/-! ## Patterns that match in one way -/

/-- A pattern matches in one way at most, and `f` gives what is left then. -/
structure Reads (p : Pattern) (f : List Char → Option (List Char)) : Prop where
  /-- What is left is an end of the text. -/
  suffix : ∀ {text rest}, f text = some rest → rest <:+ text
  /-- A match goes on until it is left. -/
  ways : ∀ m, p.ways m = ((f m.rest).map m.upTo).toList

/-- What follows the first character, if it is of a class. -/
def afterOne? (q : Char → Bool) : List Char → Option (List Char)
  | [] => none
  | c :: rest => if q c then some rest else none

variable {f g : List Char → Option (List Char)} {q : Char → Bool}

/-- A character is read as what is left behind it.

**Proof sketch.** By the first character of the rest: there is one way if it is of the kind that is
asked for, and none if not. -/
lemma reads_char (q : Char → Bool) : (char q).Reads (afterOne? q) where
  suffix := by
    intro text rest h
    cases text with
    | nil => cases h
    | cons c text =>
      rw [afterOne?] at h
      split at h
      · obtain rfl := Option.some.inj h
        exact List.suffix_cons c _
      · cases h
  ways m := by
    cases hrest : m.rest with
    | nil => exact ways_char_nil hrest
    | cons c rest =>
      rw [ways_char_cons hrest, afterOne?]
      split
      · exact congrArg (fun m' => [m']) (Match.upTo_eq_past [c] hrest).symm
      · rfl

/-- Two patterns, one after the other, are read one after the other. -/
lemma Reads.seq (ha : a.Reads f) (hb : b.Reads g) :
    (a.seq b).Reads fun text => (f text).bind g where
  suffix := by
    intro text rest h
    obtain ⟨middle, hmiddle, hrest⟩ := Option.bind_eq_some_iff.1 h
    exact (hb.suffix hrest).trans (ha.suffix hmiddle)
  ways m := by
    rw [ways_seq, ha.ways]
    cases hmiddle : f m.rest with
    | none => rfl
    | some middle =>
      show List.flatMap b.ways [m.upTo middle] = ((g middle).map m.upTo).toList
      rw [List.flatMap_singleton, hb.ways, Match.rest_upTo,
        Match.map_upTo_upTo (ha.suffix hmiddle) fun _ hrest => hb.suffix hrest]

/-- A sign is read as what is left behind it. -/
lemma reads_sign (c : Char) : (char (· == c)).Reads (after? [c]) := by
  have heq : afterOne? (· == c) = after? [c] := by
    funext text
    cases text with
    | nil => rfl
    | cons d text =>
      by_cases hd : d = c
      · simp [afterOne?, after?, hd]
      · simp [afterOne?, after?, hd, Ne.symm hd]
  rw [← heq]
  exact reads_char (· == c)

/-- A word is read as what is left behind it. -/
lemma reads_word (w : List Char) : (word w).Reads (after? w) := by
  induction w with
  | nil =>
    refine ⟨fun h => ?_, fun m => ?_⟩
    · obtain rfl := Option.some.inj h
      exact List.suffix_refl _
    · exact congrArg (fun m' => [m']) (Match.upTo_eq_past [] rfl).symm
  | cons c w ih =>
    have heq : (fun text => (after? [c] text).bind (after? w)) = after? (c :: w) := by
      funext text
      cases text with
      | nil => rfl
      | cons d text => by_cases hd : c = d <;> simp [after?, hd]
    have hboth := (reads_sign c).seq ih
    rwa [heq] at hboth

/-- Where both alternatives do not match at once, it does not matter which one is preferred. -/
lemma Reads.either (ha : a.Reads f) (hb : b.Reads g) (hfg : ∀ text, f text ≠ none → g text = none) :
    (a.either b).Reads fun text => (f text).or (g text) where
  suffix h := (Option.or_eq_some_iff.1 h).elim ha.suffix fun h => hb.suffix h.2
  ways m := by
    rw [ways_either, ha.ways, hb.ways]
    cases hf : f m.rest with
    | none => rfl
    | some rest =>
      rw [hfg m.rest (by simp [hf])]
      exact List.append_nil _

/-- One of some words that begin with different characters.

**Proof sketch.** Induction on the words. Where the first one matches, no other one does, so there
is one way at most. -/
lemma reads_oneOf {words : List (List Char)} (hne : words ≠ [])
    (hwords : words.Pairwise fun w w' => ∀ text, after? w text ≠ none → after? w' text = none) :
    (oneOf words).Reads fun text => words.findSome? (after? · text) := by
  induction words with
  | nil => exact absurd rfl hne
  | cons w words ih =>
    obtain ⟨hw, hwords⟩ := List.pairwise_cons.1 hwords
    cases words with
    | nil =>
      have heq : (fun text => [w].findSome? (after? · text)) = after? w := by
        funext text
        rw [List.findSome?_cons, List.findSome?_nil]
        cases after? w text <;> rfl
      rw [heq]
      exact reads_word w
    | cons w' words =>
      have heq : (fun text => (w :: w' :: words).findSome? (after? · text))
          = fun text => (after? w text).or ((w' :: words).findSome? (after? · text)) := by
        funext text
        rw [List.findSome?_cons]
        cases after? w text <;> rfl
      rw [heq]
      refine (reads_word w).either (ih (List.cons_ne_nil _ _) hwords) fun text htext => ?_
      exact List.findSome?_eq_none_iff.2 fun w' hw' => hw w' hw' text htext

/-- A pattern is repeated as often as possible where what comes next does not match as long as the
repeated pattern does.

**Proof sketch.** Strong induction on the length of what is left, once for the suffix and once for
the ways. Where the repeated pattern matches, the other one does not, so the way that stops there is
none, and all ways go on behind the first match. -/
lemma Reads.many {h : List Char → Option (List Char)} (ha : a.Reads f) (hp : p.Reads g)
    (hlength : ∀ {text rest}, f text = some rest → rest.length < text.length)
    (hstop : ∀ {text rest}, f text = some rest → g text = none ∧ h text = h rest)
    (hgo : ∀ {text}, f text = none → h text = g text) : (a.many.seq p).Reads h := by
  have hsuffix : ∀ n text rest, text.length = n → h text = some rest → rest <:+ text := by
    intro n
    induction n using Nat.strongRecOn with
    | _ n ih =>
      intro text rest hn hrest
      cases hf : f text with
      | none =>
        rw [hgo hf] at hrest
        exact hp.suffix hrest
      | some middle =>
        rw [(hstop hf).2] at hrest
        exact (ih _ (hn ▸ hlength hf) middle rest rfl hrest).trans (ha.suffix hf)
  refine ⟨hsuffix _ _ _ rfl, fun m => ?_⟩
  induction hn : m.rest.length using Nat.strongRecOn generalizing m with
  | _ n ih =>
    subst hn
    rw [ways_seq, ways_many, ha.ways]
    cases hf : f m.rest with
    | none =>
      rw [hgo hf]
      show List.flatMap p.ways [m] = _
      rw [List.flatMap_singleton, hp.ways]
    | some rest =>
      have hlt := hlength hf
      have hlater := ih _ hlt (m.upTo rest) rfl
      rw [ways_seq, Match.rest_upTo,
        Match.map_upTo_upTo (ha.suffix hf) fun _ hrest => hsuffix _ _ _ rfl hrest] at hlater
      -- no way stops here, since the other pattern does not match
      have hnone : p.ways m = [] := by
        rw [hp.ways, (hstop hf).1]
        rfl
      have hone : [m.upTo rest].filter (fun m' => m'.rest.length < m.rest.length) = [m.upTo rest] :=
        List.filter_cons_of_pos (decide_eq_true hlt)
      rw [Option.map_some, Option.toList_some, hone, List.flatMap_singleton, List.flatMap_append,
        hlater, List.flatMap_singleton, hnone, List.append_nil, (hstop hf).2]

/-- Characters are passed as far as possible where what comes next begins with none of them.

**Proof sketch.** If fewer characters are passed, one of them comes next, and the pattern does not
match there (`ways_skip`). So the one way is the one that passes all. -/
lemma Reads.skip (hp : p.Reads f) (hq : ∀ c rest, q c = true → f (c :: rest) = none) :
    ((char q).many.seq p).Reads fun text => f (text.dropWhile q) where
  suffix h := (hp.suffix h).trans (List.dropWhile_suffix q)
  ways m := by
    have hstop : ∀ n : Match, n.rest.head?.any q = true → p.ways n = [] := by
      intro n hn
      rw [hp.ways]
      cases hrest : n.rest with
      | nil =>
        rw [hrest] at hn
        cases hn
      | cons c rest =>
        rw [hrest] at hn
        rw [hq c rest hn]
        rfl
    rw [ways_skip hstop, hp.ways, Match.rest_upTo,
      Match.map_upTo_upTo (List.dropWhile_suffix q) fun _ h => hp.suffix h]

/-- A word and blanks are passed where what comes next begins with neither.

**Proof sketch.** The ways with the word are those of the pattern behind it, and the way without it
is that of the pattern alone. Where the word comes next, the pattern does not match without it. -/
lemma Reads.maybe {w : List Char} (hp : p.Reads f)
    (hq : ∀ c rest, q c = true → f (c :: rest) = none) (hw : ∀ rest, f (w ++ rest) = none) :
    (((word w).seq (char q).many).maybe.seq p).Reads fun text =>
      f (match after? w text with
        | some rest => rest.dropWhile q
        | none => text) where
  suffix := by
    intro text rest h
    split at h
    · next middle hmiddle =>
      exact ((hp.suffix h).trans (List.dropWhile_suffix q)).trans ((reads_word w).suffix hmiddle)
    · exact hp.suffix h
  ways m := by
    have hskip := (reads_word w).seq (hp.skip hq)
    rw [ways_seq, Pattern.maybe, ways_either, ways_empty, List.flatMap_append,
      List.flatMap_singleton, hp.ways]
    have hfirst : List.flatMap p.ways (((word w).seq (char q).many).ways m)
        = (((after? w m.rest).bind fun text => f (text.dropWhile q)).map m.upTo).toList := by
      rw [← hskip.ways, ways_seq, ways_seq, List.flatMap_assoc]
      rfl
    rw [hfirst]
    cases hafter : after? w m.rest with
    | none => rfl
    | some rest =>
      rw [after?_eq_some_iff.1 hafter, hw]
      exact List.append_nil _

/-! ## Patterns and the texts they match -/

/-- A pattern matches the texts with a property, wherever they stand. -/
def Spells (p : Pattern) (P : List Char → Prop) : Prop :=
  ∀ m m', m' ∈ p.ways m ↔ ∃ part rest, m.rest = part ++ rest ∧ P part ∧ m' = m.past part rest

variable {P Q : List Char → Prop}

/-- A pattern spells what is equivalent to what it spells. -/
lemma Spells.of_iff (h : p.Spells P) (hPQ : ∀ part, P part ↔ Q part) : p.Spells Q := by
  obtain rfl : P = Q := funext fun part => propext (hPQ part)
  exact h

/-- A character spells itself.

**Proof sketch.** By the rest, and there by whether its first character is of the kind that is asked
for. -/
lemma spells_char (q : Char → Bool) : (char q).Spells fun part => ∃ c, q c = true ∧ part = [c] := by
  intro m m'
  cases hrest : m.rest with
  | nil =>
    rw [ways_char_nil hrest]
    simp only [List.not_mem_nil, false_iff, not_exists, not_and]
    rintro part rest hnil ⟨c, -, rfl⟩
    cases hnil
  | cons c rest =>
    rw [ways_char_cons hrest]
    constructor
    · intro h
      split at h
      · next hc =>
        obtain rfl := List.mem_singleton.1 h
        exact ⟨[c], rest, rfl, ⟨c, hc, rfl⟩, rfl⟩
      · cases h
    · rintro ⟨part, rest', hparts, ⟨d, hd, rfl⟩, rfl⟩
      obtain ⟨rfl, rfl⟩ := List.cons_eq_cons.1 hparts
      rw [if_pos hd]
      exact List.mem_singleton_self _

/-- Two patterns, one after the other, spell what they spell, put together. -/
lemma Spells.seq (ha : a.Spells P) (hb : b.Spells Q) :
    (a.seq b).Spells fun part => ∃ x y, part = x ++ y ∧ P x ∧ Q y := by
  intro m m'
  rw [mem_ways_seq]
  constructor
  · rintro ⟨n, hn, hm'⟩
    obtain ⟨x, rest, hx, hPx, rfl⟩ := (ha m n).1 hn
    obtain ⟨y, rest', hy, hQy, rfl⟩ := (hb _ m').1 hm'
    rw [Match.rest_past] at hy
    exact ⟨x ++ y, rest', by rw [hx, hy, List.append_assoc], ⟨x, y, rfl, hPx, hQy⟩,
      Match.past_past ..⟩
  · rintro ⟨part, rest, hrest, ⟨x, y, rfl, hPx, hQy⟩, rfl⟩
    rw [List.append_assoc] at hrest
    exact ⟨m.past x (y ++ rest), (ha m _).2 ⟨x, y ++ rest, hrest, hPx, rfl⟩,
      (hb _ _).2 ⟨y, rest, rfl, hQy, (Match.past_past ..).symm⟩⟩

/-- A repetition matches what is put together from parts that are matched.

**Proof sketch.** Strong induction on the length of what is left. A repetition is one step and a
repetition, or nothing: the first part is what the step matched, it is not empty, and the other
parts are those of the repetition behind it. -/
lemma Spells.many (ha : a.Spells P) :
    a.many.Spells fun part => ∃ parts : List (List Char), part = parts.flatten
      ∧ ∀ x ∈ parts, P x ∧ x ≠ [] := by
  intro m m'
  induction hn : m.rest.length using Nat.strongRecOn generalizing m with
  | _ n ih =>
    subst hn
    rw [ways_many, List.mem_append, List.mem_flatMap, List.mem_singleton]
    constructor
    · rintro (⟨k, hk, hm'⟩ | rfl)
      -- one step and a repetition behind it
      · obtain ⟨hk, hlt⟩ := List.mem_filter.1 hk
        have hlt := of_decide_eq_true hlt
        obtain ⟨x, rest, hx, hPx, rfl⟩ := (ha m k).1 hk
        obtain ⟨part, rest', hrest, ⟨parts, rfl, hparts⟩, rfl⟩ := (ih _ hlt _ rfl).1 hm'
        rw [Match.rest_past] at hrest
        have hne : x ≠ [] := by
          rintro rfl
          rw [Match.rest_past, hx, List.nil_append] at hlt
          exact Nat.lt_irrefl _ hlt
        refine ⟨(x :: parts).flatten, rest', ?_, ⟨x :: parts, rfl, ?_⟩, Match.past_past ..⟩
        · rw [hx, hrest, List.flatten_cons, List.append_assoc]
        · exact List.forall_mem_cons.2 ⟨⟨hPx, hne⟩, hparts⟩
      · exact ⟨[], m'.rest, rfl, ⟨[], rfl, List.forall_mem_nil _⟩, rfl⟩
    · rintro ⟨part, rest, hrest, ⟨parts, rfl, hparts⟩, rfl⟩
      cases parts with
      | nil =>
        refine .inr ?_
        obtain rfl : m.rest = rest := hrest
        rfl
      | cons x parts =>
        obtain ⟨⟨hPx, hne⟩, hparts⟩ := List.forall_mem_cons.1 hparts
        rw [List.flatten_cons, List.append_assoc] at hrest
        -- the first part is what the first step matched
        have hlt : (m.past x (parts.flatten ++ rest)).rest.length < m.rest.length := by
          have hpos : 0 < x.length := List.length_pos_iff.2 hne
          simp only [hrest, Match.rest_past, List.length_append]
          omega
        refine .inl ⟨m.past x (parts.flatten ++ rest),
          List.mem_filter.2 ⟨?_, decide_eq_true hlt⟩, ?_⟩
        · exact (ha m _).2 ⟨x, _, hrest, hPx, rfl⟩
        · exact (ih _ hlt _ rfl).2 ⟨parts.flatten, rest, rfl, ⟨parts, rfl, hparts⟩,
            (Match.past_past ..).symm⟩

/-- A repeated character spells texts of such characters. -/
lemma spells_many_char (q : Char → Bool) :
    (char q).many.Spells fun part => ∀ c ∈ part, q c = true := by
  refine (spells_char q).many.of_iff fun part => ⟨?_, fun h => ?_⟩
  · rintro ⟨parts, rfl, hparts⟩ c hc
    obtain ⟨x, hx, hc⟩ := List.mem_flatten.1 hc
    obtain ⟨⟨d, hd, rfl⟩, -⟩ := hparts x hx
    obtain rfl := List.mem_singleton.1 hc
    exact hd
  · refine ⟨part.map fun c => [c], ?_, fun x hx => ?_⟩
    · exact (List.flatMap_singleton' part).symm
    · obtain ⟨c, hc, rfl⟩ := List.mem_map.1 hx
      exact ⟨⟨c, h c hc, rfl⟩, List.cons_ne_nil c []⟩

/-- A pattern that is repeated at least once spells some of its parts, put together. -/
lemma Spells.plus (ha : a.Spells P) (hne : ∀ part, P part → part ≠ []) :
    a.plus.Spells fun part => ∃ parts : List (List Char), parts ≠ [] ∧ part = parts.flatten
      ∧ ∀ x ∈ parts, P x := by
  refine (ha.seq ha.many).of_iff fun part => ⟨?_, ?_⟩
  · rintro ⟨x, y, rfl, hPx, parts, rfl, hparts⟩
    exact ⟨x :: parts, List.cons_ne_nil x parts, rfl,
      List.forall_mem_cons.2 ⟨hPx, fun y hy => (hparts y hy).1⟩⟩
  · rintro ⟨parts, hparts, rfl, hP⟩
    cases parts with
    | nil => exact absurd rfl hparts
    | cons x parts =>
      obtain ⟨hPx, hP⟩ := List.forall_mem_cons.1 hP
      exact ⟨x, parts.flatten, rfl, hPx, parts, rfl, fun y hy => ⟨hP y hy, hne y (hP y hy)⟩⟩

/-- A character that is repeated at least once spells texts of some such characters. -/
lemma spells_plus_char (q : Char → Bool) :
    (char q).plus.Spells fun part => part ≠ [] ∧ ∀ c ∈ part, q c = true := by
  refine ((spells_char q).seq (spells_many_char q)).of_iff fun part => ⟨?_, ?_⟩
  · rintro ⟨x, y, rfl, ⟨c, hc, rfl⟩, hy⟩
    exact ⟨List.cons_ne_nil c y, List.forall_mem_cons.2 ⟨hc, hy⟩⟩
  · rintro ⟨hne, hpart⟩
    cases part with
    | nil => exact absurd rfl hne
    | cons c y =>
      obtain ⟨hc, hy⟩ := List.forall_mem_cons.1 hpart
      exact ⟨[c], y, rfl, ⟨c, hc, rfl⟩, hy⟩

/-- What a group matches is remembered with its place. -/
lemma mem_ways_group {number : Nat} (ha : a.Spells P) :
    m' ∈ (group number a).ways m
      ↔ ∃ part rest, m.rest = part ++ rest ∧ P part
        ∧ m' = (m.past part rest).keep number ⟨m.place, part⟩ := by
  rw [ways_group, List.mem_map]
  constructor
  · rintro ⟨n, hn, rfl⟩
    obtain ⟨part, rest, hrest, hpart, rfl⟩ := (ha m n).1 hn
    exact ⟨part, rest, hrest, hpart, Match.remember_past number part rest m⟩
  · rintro ⟨part, rest, hrest, hpart, rfl⟩
    exact ⟨m.past part rest, (ha m _).2 ⟨part, rest, hrest, hpart, rfl⟩,
      Match.remember_past number part rest m⟩

end Outliner.Pattern
