import Outliner.Kind

set_option autoImplicit false

/-!
# Scopes

A scope holds items grouped by kind. Groups stand in the order in which their kinds were first used,
also when a group has lost its items since; items stand in the order in which they were added.
Beside the groups a scope knows, for some kinds, a description and a display priority, whether or
not the kind is in use.

Nothing here depends on what the items are, except that a sorted view needs their names.

## Main definitions

* `Outliner.Scope` — items grouped by kind.
* `Outliner.Scope.add`, `Outliner.Scope.modify`, `Outliner.Scope.describe`,
  `Outliner.Scope.prioritise` — the changes a scope admits.
* `Outliner.Scope.get`, `Outliner.Scope.sorted` — the items of a kind, as added and by name.
* `Outliner.Heading` — a group as it is shown.
* `Outliner.Scope.byPriority`, `Outliner.Scope.byRole` — the two orders in which groups are shown.

## Main results

* `Outliner.Scope.get_add` — adding appends to one group and leaves the others.
* `Outliner.Scope.kinds_add` — a kind is entered once, at its first use.
-/

namespace Outliner

/-- What has a name. Items are sorted, found and compared by it. -/
class Named (α : Type) where
  /-- The name of the item. -/
  name : α → String

variable {α β : Type}

/-- Whether the first name comes no later than the second one, in the order of code points. -/
def Named.le [Named α] (a b : α) : Bool := Named.name a ≤ Named.name b

/-- The items in the order of their names. Items of one name keep their order. -/
def Named.sort [Named α] (items : List α) : List α := items.mergeSort Named.le

/-- Whether one of the items has the name. -/
def Named.occurs [Named α] (name : String) (items : List α) : Bool :=
  items.any fun item => Named.name item == name

/-- The items of one kind. -/
structure Group (α : Type) where
  /-- The kind under which the items are filed. -/
  kind : Kind
  /-- The items in the order in which they were added. -/
  items : List α

/-- Items grouped by kind, with a description and a display priority for some kinds. -/
structure Scope (α : Type) where
  /-- The groups in the order of their first use. -/
  groups : List (Group α) := []
  /-- The kinds that have a description. -/
  descriptions : List (Kind × String) := []
  /-- The kinds that have a priority. -/
  priorities : List (Kind × Int) := []

/-- A group as it is shown. -/
structure Heading (α : Type) where
  /-- The kind of the items. -/
  kind : Kind
  /-- What the kind is called here. -/
  description : Option String
  /-- The display priority of the kind. -/
  priority : Int
  /-- The items in the order in which they are shown. -/
  items : List α

/-- Enters a value for a kind, in the place of an earlier one if there is one. -/
def enter (kind : Kind) (value : β) : List (Kind × β) → List (Kind × β)
  | [] => [(kind, value)]
  | (k, v) :: entries =>
    if k = kind then (kind, value) :: entries else (k, v) :: enter kind value entries

/-- Appends an item to the group of a kind, which is made if there is none. -/
def Group.file (kind : Kind) (item : α) : List (Group α) → List (Group α)
  | [] => [⟨kind, [item]⟩]
  | group :: groups =>
    if group.kind = kind then ⟨kind, group.items ++ [item]⟩ :: groups
    else group :: Group.file kind item groups

/-- Applies a change to the items of a kind, if there is a group of it. -/
def Group.revise (kind : Kind) (change : List α → List α) : List (Group α) → List (Group α)
  | [] => []
  | group :: groups =>
    if group.kind = kind then ⟨kind, change group.items⟩ :: groups
    else group :: Group.revise kind change groups

namespace Scope

/-! ## Changing -/

/-- Adds an item under a kind. -/
def add (kind : Kind) (item : α) (s : Scope α) : Scope α :=
  { s with groups := Group.file kind item s.groups }

/-- Applies a change to the items of a kind. Where the kind is not in use, nothing changes. -/
def modify (kind : Kind) (change : List α → List α) (s : Scope α) : Scope α :=
  { s with groups := Group.revise kind change s.groups }

/-- Applies a change to one item of a kind. Where there is no such item, nothing changes. -/
def modifyAt (kind : Kind) (index : Nat) (change : α → α) (s : Scope α) : Scope α :=
  s.modify kind (List.modify · index change)

/-- Sets the description of a kind. -/
def describe (kind : Kind) (description : String) (s : Scope α) : Scope α :=
  { s with descriptions := enter kind description s.descriptions }

/-- Sets the display priority of a kind. -/
def prioritise (kind : Kind) (priority : Int) (s : Scope α) : Scope α :=
  { s with priorities := enter kind priority s.priorities }

/-! ## Asking -/

/-- The group of a kind, if the kind is in use. -/
def group? (kind : Kind) (s : Scope α) : Option (Group α) := s.groups.find? (·.kind == kind)

/-- The items of a kind, in the order in which they were added. -/
def get (kind : Kind) (s : Scope α) : List α := ((s.group? kind).map Group.items).getD []

/-- The items of a kind, in the order of their names. -/
def sorted [Named α] (kind : Kind) (s : Scope α) : List α := Named.sort (s.get kind)

/-- Whether there is an item of this kind and name. -/
def contains [Named α] (kind : Kind) (name : String) (s : Scope α) : Bool :=
  Named.occurs name (s.get kind)

/-- What the kind is called here. -/
def description (kind : Kind) (s : Scope α) : Option String := s.descriptions.lookup kind

/-- The display priority of a kind, zero unless another one was set. -/
def priority (kind : Kind) (s : Scope α) : Int := (s.priorities.lookup kind).getD 0

/-- The kinds in use, in the order of their first use. -/
def kinds (s : Scope α) : List Kind := s.groups.map Group.kind

/-- The kinds in use, the higher priority first. Kinds of one priority keep their order. -/
def kindsByPriority (s : Scope α) : List Kind :=
  s.kinds.mergeSort fun a b => s.priority b ≤ s.priority a

/-- The kinds of a class's members as they are shown: variables, methods, and all others in the
order of their first use. -/
def kindsByRole (s : Scope α) : List Kind :=
  [.vars, .methods] ++ s.kinds.filter fun kind => kind != .vars && kind != .methods

/-- Whether there is no item. -/
def isEmpty (s : Scope α) : Bool := s.groups.all (·.items.isEmpty)

/-! ## Showing -/

/-- The group of a kind as it is shown. -/
def heading [Named α] (s : Scope α) (kind : Kind) : Heading α :=
  ⟨kind, s.description kind, s.priority kind, s.sorted kind⟩

/-- The groups of the given kinds as they are shown, those without items left out. -/
def headings [Named α] (kinds : List Kind) (s : Scope α) : List (Heading α) :=
  (kinds.map s.heading).filter (!·.items.isEmpty)

/-- The groups as they are shown at the top of a document. -/
def byPriority [Named α] (s : Scope α) : List (Heading α) := s.headings s.kindsByPriority

/-- The groups as they are shown within a class. -/
def byRole [Named α] (s : Scope α) : List (Heading α) := s.headings s.kindsByRole

/-- The scope with every item replaced by its image. -/
def map (f : α → β) (s : Scope α) : Scope β :=
  { groups := s.groups.map fun group => ⟨group.kind, group.items.map f⟩
    descriptions := s.descriptions
    priorities := s.priorities }

/-! ## What a change does -/

/-- Filing an item makes it the last one of its kind, and groups of other kinds are found as before.

**Proof sketch.** Induction on the groups, up to the one of the kind. If there is none, a new group
comes last. -/
theorem find?_file (kind other : Kind) (item : α) (groups : List (Group α)) :
    (Group.file kind item groups).find? (·.kind == other) =
      if other = kind then
        some ⟨kind, ((groups.find? (·.kind == kind)).map Group.items).getD [] ++ [item]⟩
      else groups.find? (·.kind == other) := by
  induction groups with
  | nil =>
    by_cases h : other = kind
    · simp [Group.file, h]
    · simp [Group.file, h, Ne.symm h]
  | cons group groups ih =>
    by_cases here : group.kind = kind
    · by_cases h : other = kind
      · simp [Group.file, here, h]
      · simp [Group.file, here, h, Ne.symm h]
    · by_cases h : other = kind
      · subst h
        simp [Group.file, here, ih]
      · by_cases found : group.kind = other
        · simp [Group.file, h, found]
        · simp [Group.file, here, h, found, ih]

/-- An item is filed behind the others of its kind, and nothing else changes. -/
theorem get_add (kind other : Kind) (item : α) (s : Scope α) :
    (s.add kind item).get other = if other = kind then s.get kind ++ [item] else s.get other := by
  by_cases h : other = kind
  · simp [get, group?, add, find?_file, h]
  · simp [get, group?, add, find?_file, h]

/-- Filing an item adds its kind to the kinds in use, unless it is among them, and leaves their
order alone.

**Proof sketch.** Induction on the groups, up to the one of the kind. -/
theorem kinds_add (kind : Kind) (item : α) (s : Scope α) :
    (s.add kind item).kinds = if kind ∈ s.kinds then s.kinds else s.kinds ++ [kind] := by
  obtain ⟨groups, descriptions, priorities⟩ := s
  show (Group.file kind item groups).map Group.kind =
    if kind ∈ groups.map Group.kind then groups.map Group.kind else groups.map Group.kind ++ [kind]
  induction groups with
  | nil => simp [Group.file]
  | cons group groups ih =>
    by_cases here : group.kind = kind
    · simp [Group.file, here]
    · have other : ¬ kind = group.kind := fun h => here h.symm
      by_cases there : kind ∈ groups.map Group.kind
      · rw [if_pos there] at ih
        simp only [Group.file, here, if_false, List.map_cons, ih, List.mem_cons, other, there,
          or_true, if_true]
      · rw [if_neg there] at ih
        simp only [Group.file, here, if_false, List.map_cons, ih, List.mem_cons, other, there,
          or_self, List.cons_append]

/-- A change of the items of a kind leaves the kinds alone. -/
theorem kinds_modify (kind : Kind) (change : List α → List α) (s : Scope α) :
    (s.modify kind change).kinds = s.kinds := by
  obtain ⟨groups, descriptions, priorities⟩ := s
  show (Group.revise kind change groups).map Group.kind = groups.map Group.kind
  induction groups with
  | nil => rfl
  | cons group groups ih =>
    by_cases here : group.kind = kind
    · simp [Group.revise, here]
    · simp [Group.revise, here, ih]

/-- What is entered for a kind is found there, and what was entered for other kinds is found as
before.

**Proof sketch.** Induction on the entries, up to the one of the kind, which is replaced. -/
theorem lookup_enter (kind other : Kind) (value : β) (entries : List (Kind × β)) :
    (enter kind value entries).lookup other
      = if other = kind then some value else entries.lookup other := by
  induction entries with
  | nil =>
    by_cases h : other = kind
    · simp [enter, h]
    · have apart : (other == kind) = false := by simpa using h
      simp [enter, List.lookup_cons, h, apart]
  | cons entry entries ih =>
    obtain ⟨k, v⟩ := entry
    by_cases here : k = kind
    · subst here
      by_cases h : other = k
      · simp [enter, h]
      · have apart : (other == k) = false := by simpa using h
        simp [enter, h, List.lookup_cons, apart]
    · by_cases h : other = k
      · subst h
        simp [enter, here]
      · have apart : (other == k) = false := by simpa using h
        simp [enter, here, List.lookup_cons, apart, ih]

end Scope

end Outliner
