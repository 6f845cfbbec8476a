import Mathlib.Data.List.Induction
import Outliner.Element
import Outliner.Proofs.Listing

set_option autoImplicit false

/-!
# What a scope lists after additions and settings

A scope keeps its groups, the descriptions and the priorities apart, and each may be written before
or after the others. What it lists in the end can be told from the history alone: below each kind
that was used stand the items that were added under it, with the settings made last. If all used
kinds have priorities of their own, it does not even matter which of them was used first.

## Main definitions

* `Outliner.Scope.Entry`, `Outliner.Scope.ofEntries` — additions and settings, and the scope that a
  list of them makes.
* `Outliner.Scope.added`, `Outliner.Scope.firstUses`, `Outliner.Scope.lastPriority`,
  `Outliner.Scope.lastDescription` — what a history tells about a kind.

## Main results

* `Outliner.Scope.get_ofEntries`, `Outliner.Scope.kinds_ofEntries`,
  `Outliner.Scope.priority_ofEntries`, `Outliner.Scope.description_ofEntries` — a scope holds what
  its history tells.
* `Outliner.Scope.byPriority_ofEntries` — what is listed, and that histories which tell the same of
  each kind are listed alike if priorities are distinct.
-/

namespace Outliner.Scope

variable {α : Type}

/-! ## Histories -/

/-- An addition to a scope, or a setting of it. -/
inductive Entry (α : Type) where
  /-- An item is added under a kind. -/
  | add (kind : Kind) (item : α)
  /-- The description of a kind is set. -/
  | describe (kind : Kind) (description : String)
  /-- The priority of a kind is set. -/
  | prioritise (kind : Kind) (priority : Int)

namespace Entry

/-- The scope after the addition or the setting. -/
def apply : Entry α → Scope α → Scope α
  | add kind item, s => s.add kind item
  | describe kind description, s => s.describe kind description
  | prioritise kind priority, s => s.prioritise kind priority

/-- The kind under which an item is added. -/
def use? : Entry α → Option Kind
  | add kind _ => some kind
  | _ => none

/-- The item that is added under the kind. -/
def item? (kind : Kind) : Entry α → Option α
  | add k item => if k = kind then some item else none
  | _ => none

/-- The description that is set for the kind. -/
def description? (kind : Kind) : Entry α → Option String
  | describe k description => if k = kind then some description else none
  | _ => none

/-- The priority that is set for the kind. -/
def priority? (kind : Kind) : Entry α → Option Int
  | prioritise k priority => if k = kind then some priority else none
  | _ => none

end Entry

/-- The scope that additions and settings make, beginning with the empty one. -/
def ofEntries (history : List (Entry α)) : Scope α :=
  history.foldl (fun s entry => entry.apply s) {}

/-- The items that were added under the kind. -/
def added (kind : Kind) (history : List (Entry α)) : List α := history.filterMap (Entry.item? kind)

/-- The kinds that were used, in the order of their first use. -/
def firstUses (history : List (Entry α)) : List Kind := (history.filterMap Entry.use?).eraseDups

/-- The description that was set last for the kind. -/
def lastDescription (kind : Kind) (history : List (Entry α)) : Option String :=
  (history.filterMap (Entry.description? kind)).getLast?

/-- The priority that was set last for the kind, zero if none was set. -/
def lastPriority (kind : Kind) (history : List (Entry α)) : Int :=
  (history.filterMap (Entry.priority? kind)).getLast?.getD 0

/-- The histories tell the same of each kind. -/
structure Agree (history history' : List (Entry α)) : Prop where
  /-- The same items were added, in the same order. -/
  added : ∀ kind, added kind history = added kind history'
  /-- The same priority was set last. -/
  priority : ∀ kind, lastPriority kind history = lastPriority kind history'
  /-- The same description was set last. -/
  description : ∀ kind, lastDescription kind history = lastDescription kind history'

/-! ## What the scope holds -/

/-- The last entry of a history is applied to what the others made. -/
lemma ofEntries_concat (history : List (Entry α)) (entry : Entry α) :
    ofEntries (history ++ [entry]) = entry.apply (ofEntries history) := by
  rw [ofEntries, List.foldl_append]
  rfl

/-- A value that comes again after others adds nothing to the distinct values. -/
lemma eraseDups_concat (kinds : List Kind) (kind : Kind) :
    (kinds ++ [kind]).eraseDups
      = if kind ∈ kinds.eraseDups then kinds.eraseDups else kinds.eraseDups ++ [kind] := by
  rw [List.eraseDups_append]
  by_cases hmem : kind ∈ kinds
  · simp [List.removeAll, hmem]
  · simp [List.removeAll, hmem, List.eraseDups_cons]

/-- What was told last is told by the last entry, or else by those before it. -/
lemma getLast?_filterMap_concat {β : Type} (tell? : Entry α → Option β) (history : List (Entry α))
    (entry : Entry α) : ((history ++ [entry]).filterMap tell?).getLast?
      = (tell? entry).or (history.filterMap tell?).getLast? := by
  rw [List.filterMap_append, List.getLast?_append]
  cases htell : tell? entry <;> simp [htell]

variable (history : List (Entry α))

/-- The items of a kind are those that were added under it. -/
theorem get_ofEntries (kind : Kind) : (ofEntries history).get kind = added kind history := by
  induction history using List.reverseRecOn with
  | nil => rfl
  | append_singleton history entry ih =>
    rw [ofEntries_concat, added, List.filterMap_append, ← added, ← ih]
    cases entry with
    | add k item =>
      rw [Entry.apply, get_add]
      by_cases hk : k = kind
      · simp [Entry.item?, hk]
      · simp [Entry.item?, hk, Ne.symm hk]
    | describe k description => exact (List.append_nil _).symm
    | prioritise k priority => exact (List.append_nil _).symm

/-- The kinds stand in the order of their first use. -/
theorem kinds_ofEntries : (ofEntries history).kinds = firstUses history := by
  induction history using List.reverseRecOn with
  | nil => rfl
  | append_singleton history entry ih =>
    rw [ofEntries_concat, firstUses, List.filterMap_append]
    cases entry with
    | add kind item =>
      rw [Entry.apply, kinds_add, ih, firstUses]
      exact (eraseDups_concat _ kind).symm
    | describe kind description =>
      rw [firstUses] at ih
      exact ih.trans (congrArg List.eraseDups (List.append_nil _).symm)
    | prioritise kind priority =>
      rw [firstUses] at ih
      exact ih.trans (congrArg List.eraseDups (List.append_nil _).symm)

/-- A kind has the priority that was set last. -/
theorem priority_ofEntries (kind : Kind) :
    (ofEntries history).priority kind = lastPriority kind history := by
  induction history using List.reverseRecOn with
  | nil => rfl
  | append_singleton history entry ih =>
    rw [ofEntries_concat, lastPriority, getLast?_filterMap_concat]
    cases entry with
    | add k item => exact ih
    | describe k description => exact ih
    | prioritise k priority =>
      rw [Entry.apply, Scope.priority, prioritise, lookup_enter]
      by_cases hk : kind = k
      · simp [Entry.priority?, hk]
      · rw [if_neg hk, Entry.priority?, if_neg (Ne.symm hk)]
        exact ih

/-- A kind has the description that was set last. -/
theorem description_ofEntries (kind : Kind) :
    (ofEntries history).description kind = lastDescription kind history := by
  induction history using List.reverseRecOn with
  | nil => rfl
  | append_singleton history entry ih =>
    rw [ofEntries_concat, lastDescription, getLast?_filterMap_concat]
    cases entry with
    | add k item => exact ih
    | prioritise k priority => exact ih
    | describe k description =>
      rw [Entry.apply, Scope.description, describe, lookup_enter]
      by_cases hk : kind = k
      · simp [Entry.description?, hk]
      · rw [if_neg hk, Entry.description?, if_neg (Ne.symm hk)]
        exact ih

/-- Each kind that was used is counted once. -/
lemma nodup_firstUses : (firstUses history).Nodup := by
  rw [firstUses]
  induction history.filterMap Entry.use? using List.reverseRecOn with
  | nil => exact List.nodup_nil
  | append_singleton kinds kind ih =>
    rw [eraseDups_concat]
    split
    · exact ih
    · next hnew =>
      exact List.nodup_append.2 ⟨ih, List.nodup_singleton kind,
        fun k hk k' hk' heq => hnew (List.mem_singleton.1 hk' ▸ heq ▸ hk)⟩

/-- The kinds that were used are those under which items were added.

**Proof sketch.** A kind is used by an entry that adds an item under it, and by no other entry. -/
lemma mem_firstUses {kind : Kind} : kind ∈ firstUses history ↔ added kind history ≠ [] := by
  rw [firstUses, List.mem_eraseDups, List.mem_filterMap, added, Ne, List.filterMap_eq_nil_iff,
    not_forall]
  constructor
  · rintro ⟨entry, hentry, huse⟩
    refine ⟨entry, fun h => ?_⟩
    cases entry with
    | add k item => simpa [Entry.item?, Option.some.inj huse] using h hentry
    | describe k description => exact absurd huse (by simp [Entry.use?])
    | prioritise k priority => exact absurd huse (by simp [Entry.use?])
  · rintro ⟨entry, hentry⟩
    obtain ⟨hmem, hitem⟩ := Classical.not_imp.1 hentry
    refine ⟨entry, hmem, ?_⟩
    cases entry with
    | add k item =>
      by_contra huse
      exact hitem (if_neg fun hk => huse (congrArg some hk))
    | describe k description => exact absurd rfl hitem
    | prioritise k priority => exact absurd rfl hitem

/-- All kinds in use have items. -/
lemma usedKinds_ofEntries : (ofEntries history).usedKinds = firstUses history := by
  rw [usedKinds, kinds_ofEntries]
  refine List.filter_eq_self.2 fun kind hkind => ?_
  rw [get_ofEntries, Bool.not_eq_true', List.isEmpty_eq_false_iff]
  exact (mem_firstUses history).1 hkind

/-! ## What is listed -/

variable [Named α]

omit [Named α] in
/-- Histories that tell the same of each kind use the same kinds. -/
lemma Agree.firstUses_perm {history history' : List (Entry α)} (h : Agree history history') :
    (firstUses history).Perm (firstUses history') := by
  refine (List.perm_ext_iff_of_nodup (nodup_firstUses _) (nodup_firstUses _)).2 fun kind => ?_
  rw [mem_firstUses, mem_firstUses, h.added]

omit [Named α] in
/-- Where the used kinds have priorities of their own, the order of their first use is forgotten.

**Proof sketch.** Both orders are descending in the same priorities and hold the same kinds; two
kinds that could change places would be of one priority. -/
lemma Agree.kindsByPriority_eq {history history' : List (Entry α)} (h : Agree history history')
    (hdistinct : ∀ k ∈ firstUses history, ∀ k' ∈ firstUses history,
      lastPriority k history = lastPriority k' history → k = k') :
    (ofEntries history).kindsByPriority = (ofEntries history').kindsByPriority := by
  have hstable := (ofEntries history).isStableSort_kindsByPriority
  have hstable' := (ofEntries history').isStableSort_kindsByPriority
  have hperm := hstable.perm
  have hperm' := hstable'.perm
  rw [kinds_ofEntries] at hperm hperm'
  have hpriority : ∀ kind,
      (ofEntries history').priority kind = (ofEntries history).priority kind := by
    intro kind
    rw [priority_ofEntries, priority_ofEntries, h.priority]
  have hordered' : (ofEntries history').kindsByPriority.Pairwise
      fun k k' => (ofEntries history).priority k ≥ (ofEntries history).priority k' := by
    refine hstable'.ordered.imp fun hge => ?_
    rwa [hpriority, hpriority] at hge
  refine List.Perm.eq_of_pairwise (fun k k' hk hk' hge hge' => ?_) hstable.ordered hordered'
    (hperm.trans (h.firstUses_perm.trans hperm'.symm))
  refine hdistinct k (hperm.subset hk) k' (h.firstUses_perm.symm.subset (hperm'.subset hk')) ?_
  rw [← priority_ofEntries, ← priority_ofEntries]
  exact le_antisymm hge' hge

/-- **What a scope lists can be told from its history.** Each kind that was used has one heading,
the one whose last priority is higher first and kinds of one priority in the order of their first
use, with the description set last and the items added under the kind by name. Histories that tell
the same of each kind are listed alike if the kinds they use have priorities of their own.

**Proof sketch.** One half puts together what is known of priorities, descriptions and items
(`priority_ofEntries`, `description_ofEntries`, `get_ofEntries`) with the order of a stable sort.
For the other half, histories that agree have the same headings and use the same kinds, and where
priorities are distinct only one order is possible. -/
theorem byPriority_ofEntries :
    (∀ history : List (Entry α),
      IsStableSort (· ≥ ·) (lastPriority · history) (firstUses history)
          ((ofEntries history).byPriority.map Heading.kind)
        ∧ ((ofEntries history).byPriority.map Heading.kind).Nodup
        ∧ ∀ heading ∈ (ofEntries history).byPriority,
          heading.priority = lastPriority heading.kind history
            ∧ heading.description = lastDescription heading.kind history
            ∧ IsStableSort (· ≤ ·) Named.name (added heading.kind history) heading.items)
      ∧ ∀ history history' : List (Entry α), Agree history history' →
        (∀ k ∈ firstUses history, ∀ k' ∈ firstUses history,
          lastPriority k history = lastPriority k' history → k = k') →
        (ofEntries history).byPriority = (ofEntries history').byPriority := by
  constructor
  · intro history
    have hstable := (ofEntries history).isStableSort_kinds_byPriority
    have hpriority : (ofEntries history).priority = (lastPriority · history) :=
      funext fun kind => priority_ofEntries history kind
    rw [usedKinds_ofEntries, hpriority] at hstable
    refine ⟨hstable, hstable.perm.nodup_iff.2 (nodup_firstUses history), fun heading hmem => ?_⟩
    obtain ⟨-, hdescription, hpriority, hitems⟩ := mem_headings hmem
    refine ⟨hpriority.trans (priority_ofEntries history _),
      hdescription.trans (description_ofEntries history _), ?_⟩
    rw [hitems, sorted, get_ofEntries]
    exact Named.isStableSort_sort _
  · intro history history' h hdistinct
    have hheading : (ofEntries history).heading = (ofEntries history').heading := by
      funext kind
      simp only [heading, sorted, description_ofEntries, priority_ofEntries, get_ofEntries,
        h.description, h.priority, h.added]
    rw [byPriority, byPriority, headings, headings, hheading, h.kindsByPriority_eq hdistinct]

/-- A function and two variables, with the settings made first. -/
def settledFirst : List (Entry Element) :=
  [.prioritise .functions (-1), .describe .vars "Variables",
    .add .vars (.leaf ⟨"y", 3, .vars, none⟩), .add .functions (.leaf ⟨"f", 1, .functions, none⟩),
    .add .vars (.leaf ⟨"x", 5, .vars, none⟩)]

/-- The same additions and settings in another order, with a priority that is set twice. -/
def settledLast : List (Entry Element) :=
  [.add .functions (.leaf ⟨"f", 1, .functions, none⟩), .prioritise .functions 7,
    .add .vars (.leaf ⟨"y", 3, .vars, none⟩), .add .vars (.leaf ⟨"x", 5, .vars, none⟩),
    .describe .vars "Variables", .prioritise .functions (-1)]

/-- Settings made before the items or after them make no difference, if the kinds have priorities of
their own.

**Proof sketch.** The histories agree kind by kind: the two kinds that occur are looked at, and no
entry speaks of any other. -/
theorem byPriority_ofEntries_settled :
    Agree settledFirst settledLast
      ∧ (∀ k ∈ firstUses settledFirst, ∀ k' ∈ firstUses settledFirst,
        lastPriority k settledFirst = lastPriority k' settledFirst → k = k')
      ∧ (ofEntries settledFirst).byPriority = (ofEntries settledLast).byPriority := by
  have hagree : Agree settledFirst settledLast := by
    refine ⟨fun kind => ?_, fun kind => ?_, fun kind => ?_⟩
    all_goals
      by_cases hvars : Kind.vars = kind
      · subst hvars
        rfl
      · by_cases hfunctions : Kind.functions = kind
        · subst hfunctions
          rfl
        · simp only [added, lastPriority, lastDescription, settledFirst, settledLast,
            List.filterMap_cons, List.filterMap_nil, Entry.item?, Entry.priority?,
            Entry.description?, if_neg hvars, if_neg hfunctions]
  have hdistinct : ∀ k ∈ firstUses settledFirst, ∀ k' ∈ firstUses settledFirst,
      lastPriority k settledFirst = lastPriority k' settledFirst → k = k' := by
    decide
  exact ⟨hagree, hdistinct, byPriority_ofEntries.2 _ _ hagree hdistinct⟩

end Outliner.Scope
