import Mathlib.Data.List.Forall2
import Mathlib.Data.List.Perm.Basic
import Outliner.Outline
import Outliner.Proofs.Built
import Outliner.Proofs.Listing

set_option autoImplicit false

/-!
# What an outline shows

An outline shows a document if below each heading stand the elements of its kind in the order of
their names, if every member of a scope stands below exactly one heading, if no heading stands there
for nothing, and if each element is shown in the same way. At the top of the outline the headings
are ordered by priority, below a class by their role.

## Main definitions

* `Outliner.Node.tag` — what a node tells about its element, apart from the groups below it.
* `Outliner.Scope.ListedBy` — what headings tell about a scope.
* `Outliner.Node.Shows`, `Outliner.Outline.Shows` — a node shows an element, an outline a document.

## Main results

* `Outliner.Element.Distinct.shows` — a node made from an element shows it.
* `Outliner.Scope.Distinct.flattenGroups_perm` — a listing has every element of a scope once, at
  whatever depth it stands.
* `Outliner.Document.Built.outline_complete` — the outline of a document that operations build shows
  the document, and loses and doubles nothing.
-/

namespace Outliner

/-- What a node tells about its element, apart from the groups below it. -/
def Node.tag (n : Node) : Tag := ⟨n.name, n.line, n.kind, n.scope⟩

/-- The headings tell of a scope all it holds, where `sorted kind` are the items of a kind in the
order in which they are shown. -/
structure Scope.ListedBy (s : Scope Element) (headings : List (Heading Node))
    (sorted : Kind → List Element) : Prop where
  /-- The items of a kind are shown in the order of their names, equal names as they were added. -/
  stable : ∀ kind, IsStableSort (· ≤ ·) Named.name (s.get kind) (sorted kind)
  /-- What stands below the headings is what the scope holds. -/
  complete : (headings.flatMap fun heading => sorted heading.kind).Perm
    (s.groups.flatMap Group.items)
  /-- No heading stands there for nothing. -/
  nonempty : ∀ heading ∈ headings, heading.items ≠ []
  /-- A heading has the description of its kind. -/
  description : ∀ heading ∈ headings, heading.description = s.description heading.kind
  /-- A heading has the priority of its kind. -/
  priority : ∀ heading ∈ headings, heading.priority = s.priority heading.kind

/-- The node shows the element. -/
inductive Node.Shows : Node → Element → Prop where
  /-- A leaf is shown without groups. -/
  | leaf (tag : Tag) : Node.Shows (tag.toNode []) (.leaf tag)
  /-- A branch is shown with its members by role. -/
  | branch (tag : Tag) {members : Scope Element} {groups : List (Heading Node)}
      (sorted : Kind → List Element) (listed : members.ListedBy groups sorted)
      (order : groups.map Heading.kind = Kind.byRole members.usedKinds)
      (items : ∀ heading ∈ groups, List.Forall₂ Node.Shows heading.items (sorted heading.kind)) :
    Node.Shows (tag.toNode groups) (.branch tag members)

/-- The outline shows the document, with the groups of higher priority first and groups of one
priority in the order of their first use. -/
inductive Outline.Shows : Outline → Document → Prop where
  /-- Each top-level element is shown below one of the headings. -/
  | intro {o : Outline} {d : Document} (sorted : Kind → List Element)
      (listed : d.scope.ListedBy o.groups sorted)
      (order : IsStableSort (· ≥ ·) d.scope.priority d.scope.usedKinds (o.groups.map Heading.kind))
      (items : ∀ heading ∈ o.groups, List.Forall₂ Node.Shows heading.items (sorted heading.kind)) :
    Outline.Shows o d

/-! ## Headings of nodes -/

/-- A node has the tag from which it is made. -/
@[simp] lemma Tag.toNode_tag (tag : Tag) (groups : List (Heading Node)) :
    (tag.toNode groups).tag = tag := rfl

/-- The node of an element has its name. -/
lemma Element.name_toNode (e : Element) : Named.name e.toNode = Named.name e := by
  cases e with
  | leaf tag => rw [toNode_leaf]; rfl
  | branch tag members => rw [toNode_branch]; rfl

namespace Scope

section Map

variable {α β : Type} (f : α → β) (s : Scope α)

/-- A change of the items leaves the kinds alone. -/
@[simp] lemma kinds_map : (s.map f).kinds = s.kinds := by
  simp [kinds, map, Function.comp_def]

/-- The items of a kind are changed one by one. -/
@[simp] lemma get_map (kind : Kind) : (s.map f).get kind = (s.get kind).map f := by
  obtain ⟨groups, descriptions, priorities⟩ := s
  simp only [get, group?, map]
  induction groups with
  | nil => rfl
  | cons g groups ih =>
    by_cases hk : g.kind = kind
    · simp [hk]
    · have hb : (g.kind == kind) = false := by simpa using hk
      simpa [List.find?_cons, hb] using ih

/-- A change of the items leaves the kinds in use alone. -/
@[simp] lemma usedKinds_map : (s.map f).usedKinds = s.usedKinds := by
  simp [usedKinds]

/-- Replacing the items by items of the same names does not change how they are listed. -/
lemma headings_map [Named α] [Named β] (hf : ∀ a, Named.name (f a) = Named.name a)
    (order : List Kind) : (s.map f).headings order = (s.headings order).map (Heading.map f) := by
  have hheading : (s.map f).heading = Heading.map f ∘ s.heading := by
    funext kind
    simp only [heading, Heading.map, sorted, get_map, Named.sort_map hf, Function.comp_apply]
    rfl
  rw [headings, hheading, ← List.map_map, List.filter_map, headings]
  congr 1
  refine List.filter_congr fun heading _ => ?_
  simp [Heading.map]

end Map

variable {s : Scope Element}

/-- The headings of the nodes are those of the elements. -/
lemma headings_toNode (order : List Kind) :
    (s.map Element.toNode).headings order
      = (s.headings order).map (Heading.map Element.toNode) :=
  headings_map Element.toNode s Element.name_toNode order

/-- A listing by an order in which every kind of the scope stands exactly once tells all of it.

**Proof sketch.** The headings of the order have all items, since each kind stands in it once
(`flatMap_headings_perm`). Everything else is known of each heading by itself (`mem_headings`). -/
lemma listedBy_headings (hs : s.kinds.Nodup) {order : List Kind} (horder : order.Nodup)
    (hsub : s.kinds ⊆ order) :
    s.ListedBy ((s.map Element.toNode).headings order) fun kind => s.sorted kind := by
  rw [headings_toNode]
  refine ⟨fun kind => Named.isStableSort_sort _, ?_, ?_, ?_, ?_⟩
  · have hperm := flatMap_headings_perm hs horder hsub fun e => [e]
    simp only [List.flatMap_singleton'] at hperm
    refine List.Perm.trans (List.Perm.of_eq ?_) hperm
    rw [List.flatMap_map]
    refine List.flatMap_congr fun heading hmem => ?_
    exact (mem_headings hmem).2.2.2.symm
  · simp only [List.forall_mem_map]
    intro heading hmem
    simpa [Heading.map] using (mem_headings hmem).1
  · simp only [List.forall_mem_map]
    exact fun heading hmem => (mem_headings hmem).2.1
  · simp only [List.forall_mem_map]
    exact fun heading hmem => (mem_headings hmem).2.2.1

/-- Where each element of a scope is shown by its node, the items of a heading are. -/
lemma items_shown (h : ∀ g ∈ s.groups, ∀ e ∈ g.items, e.toNode.Shows e) {order : List Kind}
    {heading : Heading Node} (hmem : heading ∈ (s.map Element.toNode).headings order) :
    List.Forall₂ Node.Shows heading.items (s.sorted heading.kind) := by
  rw [headings_toNode] at hmem
  obtain ⟨heading, hlisted, rfl⟩ := List.mem_map.1 hmem
  have hitems : heading.items = s.sorted heading.kind := (mem_headings hlisted).2.2.2
  simp only [Heading.map, hitems, List.forall₂_map_left_iff]
  refine List.forall₂_same.2 fun e he => ?_
  have hget : e ∈ s.get heading.kind := (Named.isStableSort_sort _).perm.mem_iff.1 he
  obtain ⟨g, hg, -, he⟩ := mem_get hget
  exact h g hg e he

/-- Each kind in use stands once in the order by role. -/
lemma nodup_kindsByRole (hs : s.kinds.Nodup) : s.kindsByRole.Nodup := by
  refine List.nodup_append.2 ⟨by decide, hs.filter _, fun a ha b hb heq => ?_⟩
  have hb := (List.mem_filter.1 hb).2
  subst heq
  simp only [List.mem_cons, List.not_mem_nil, or_false] at ha
  rcases ha with rfl | rfl <;> simp at hb

/-- Every kind of the scope is shown somewhere by role. -/
lemma kinds_subset_kindsByRole : s.kinds ⊆ s.kindsByRole := by
  intro kind hkind
  by_cases hvars : kind = .vars
  · simp [kindsByRole, hvars]
  · by_cases hmethods : kind = .methods
    · simp [kindsByRole, hmethods]
    · simp [kindsByRole, hvars, hmethods, hkind]

/-- Ordering by priority loses and doubles no kind. -/
lemma kindsByPriority_perm : s.kindsByPriority.Perm s.kinds := s.isStableSort_kindsByPriority.perm

end Scope

/-- **A node made from an element shows it.**

**Proof sketch.** Induction on the tree. The order by role has each kind in use once, so the listing
is complete, and below a heading stand the nodes of the sorted items, which show them. -/
theorem Element.Distinct.shows {e : Element} (h : e.Distinct) : e.toNode.Shows e := by
  induction h with
  | leaf tag =>
    rw [toNode_leaf]
    exact .leaf tag
  | @branch tag members hkinds _ ih =>
    have hrole : (members.map toNode).kindsByRole = members.kindsByRole := by
      simp [Scope.kindsByRole]
    rw [toNode_branch]
    refine .branch tag (fun kind => members.sorted kind) ?_ ?_ ?_
    · rw [Scope.byRole, hrole]
      exact Scope.listedBy_headings hkinds (Scope.nodup_kindsByRole hkinds)
        Scope.kinds_subset_kindsByRole
    · rw [Scope.kinds_byRole (by simpa using hkinds), Scope.usedKinds_map]
    · exact fun heading hmem => Scope.items_shown ih hmem

/-! ## Flattening -/

namespace Node

/-- Several nodes are flattened one after the other. -/
lemma flattenItems_eq_flatMap (items : List Node) : flattenItems items = items.flatMap flatten := by
  induction items with
  | nil => simp [flattenItems]
  | cons n items ih => simp [flattenItems, ih]

/-- Groups are flattened one after the other. -/
lemma flattenGroups_eq_flatMap (groups : List (Heading Node)) :
    flattenGroups groups = groups.flatMap (·.items.flatMap flatten) := by
  induction groups with
  | nil => simp [flattenGroups]
  | cons heading groups ih => simp [flattenGroups, ih, flattenItems_eq_flatMap]

/-- A node comes before what is flattened below it. -/
lemma flatten_toNode (tag : Tag) (groups : List (Heading Node)) :
    (tag.toNode groups).flatten = tag.toNode groups :: flattenGroups groups := by
  rw [Tag.toNode, flatten]

end Node

/-- A listing by an order in which every kind of the scope stands exactly once has each element
once, at whatever depth it stands, if this holds of the nodes of the items.

**Proof sketch.** Both sides are sums over the groups: one in the order of the headings, the other
in the order of the scope. Item by item they agree. -/
lemma Scope.flattenGroups_perm_of_items {s : Scope Element} {holders : List Tag}
    (h : ∀ g ∈ s.groups, ∀ e ∈ g.items,
      (e.toNode.flatten.map Node.tag).Perm ((e.occurrences holders g.kind).map Occurrence.tag))
    (hs : s.kinds.Nodup) {order : List Kind} (horder : order.Nodup) (hsub : s.kinds ⊆ order) :
    ((Node.flattenGroups ((s.map Element.toNode).headings order)).map Node.tag).Perm
      ((s.occurrences holders).map Occurrence.tag) := by
  have hflat : (Node.flattenGroups ((s.map Element.toNode).headings order)).map Node.tag
      = (s.headings order).flatMap (·.items.flatMap fun e => e.toNode.flatten.map Node.tag) := by
    rw [Node.flattenGroups_eq_flatMap, headings_toNode]
    simp [List.map_flatMap, List.flatMap_map, Heading.map]
  have hocc : (s.occurrences holders).map Occurrence.tag
      = s.groups.flatMap fun g =>
          g.items.flatMap fun e => (e.occurrences holders g.kind).map Occurrence.tag := by
    simp [Scope.occurrences, Group.occurrences, List.map_flatMap]
  rw [hflat, hocc]
  refine (flatMap_headings_perm hs horder hsub _).trans ?_
  exact List.Perm.flatMap_left _ fun g hg => List.Perm.flatMap_left _ fun e he => h g hg e he

/-- The nodes of a tree have the tags of its elements. -/
theorem Element.Distinct.flatten_perm {e : Element} (h : e.Distinct) (holders : List Tag)
    (group : Kind) :
    (e.toNode.flatten.map Node.tag).Perm ((e.occurrences holders group).map Occurrence.tag) := by
  induction h generalizing holders group with
  | leaf tag =>
    rw [toNode_leaf, Node.flatten_toNode, occurrences_leaf]
    simp [Node.flattenGroups]
  | @branch tag members hkinds _ ih =>
    have hrole : (members.map toNode).kindsByRole = members.kindsByRole := by
      simp [Scope.kindsByRole]
    rw [toNode_branch, Node.flatten_toNode, occurrences_branch, List.map_cons, List.map_cons,
      Tag.toNode_tag, Scope.byRole, hrole]
    exact List.Perm.cons tag (Scope.flattenGroups_perm_of_items (fun g hg e he => ih g hg e he _ _)
      hkinds (Scope.nodup_kindsByRole hkinds) Scope.kinds_subset_kindsByRole)

/-- A listing of a scope has every element of it once, at whatever depth it stands. -/
theorem Scope.Distinct.flattenGroups_perm {s : Scope Element} (h : s.Distinct) {order : List Kind}
    (horder : order.Nodup) (hsub : s.kinds ⊆ order) (holders : List Tag) :
    ((Node.flattenGroups ((s.map Element.toNode).headings order)).map Node.tag).Perm
      ((s.occurrences holders).map Occurrence.tag) :=
  Scope.flattenGroups_perm_of_items
    (fun g hg e he => (h.items g hg e he).flatten_perm holders g.kind) h.kinds horder hsub

/-! ## Emptiness -/

/-- An element occurs at least once. -/
lemma Element.occurrences_ne_nil (e : Element) (holders : List Tag) (group : Kind) :
    e.occurrences holders group ≠ [] := by
  cases e <;> simp

/-- A scope is empty if it counts nothing, whatever groups it has. -/
theorem Scope.isEmpty_iff_count (s : Scope Element) : s.isEmpty = true ↔ s.count = 0 := by
  rw [← s.length_occurrences [], List.length_eq_zero_iff, Scope.occurrences, isEmpty, List.all_eq_true,
    List.flatMap_eq_nil_iff]
  refine forall₂_congr fun g _ => ?_
  rw [List.isEmpty_iff, Group.occurrences, List.flatMap_eq_nil_iff]
  constructor
  · rintro h e he
    rw [h] at he
    exact absurd he List.not_mem_nil
  · intro h
    refine List.eq_nil_iff_forall_not_mem.2 fun e he => ?_
    exact e.occurrences_ne_nil [] g.kind (h e he)

/-- An outline is empty if it has no node. -/
theorem Outline.isEmpty_iff_flatten (o : Outline) : o.isEmpty = true ↔ o.flatten = [] := by
  rw [isEmpty, flatten, Node.flattenGroups_eq_flatMap, List.all_eq_true, List.flatMap_eq_nil_iff]
  refine forall₂_congr fun heading _ => ?_
  rw [List.isEmpty_iff, List.flatMap_eq_nil_iff]
  constructor
  · rintro h n hn
    rw [h] at hn
    exact absurd hn List.not_mem_nil
  · intro h
    refine List.eq_nil_iff_forall_not_mem.2 fun n hn => ?_
    obtain ⟨name, kind, line, scope, groups⟩ := n
    have hflat := h _ hn
    rw [Node.flatten] at hflat
    exact List.cons_ne_nil _ _ hflat

/-! ## Documents -/

/-- **The outline of a document loses and doubles nothing and orders everything.** For a document
that operations build, in whatever order they come: the outline shows the document at every depth,
its nodes tell of the elements of the document and are as many, and outline and document are empty
together.

**Proof sketch.** No scope of the document has two groups of one kind (`Document.Built.distinct`).
The order by priority then has each kind in use once, so the listing of the top scope is complete
(`Scope.Distinct.flattenGroups_perm`), and its elements are shown (`Element.Distinct.shows`). The
counts follow, since there are as many occurrences as elements. -/
theorem Document.Built.outline_complete {d : Document} (h : d.Built) :
    d.outline.Shows d
      ∧ (d.outline.flatten.map Node.tag).Perm (d.occurrences.map Occurrence.tag)
      ∧ d.outline.flatten.length = d.count
      ∧ (d.outline.isEmpty = true ↔ d.isEmpty = true)
      ∧ (d.isEmpty = true ↔ d.count = 0) := by
  have hd : d.scope.Distinct := h.distinct
  have hpriority : (d.scope.map Element.toNode).kindsByPriority = d.scope.kindsByPriority := by
    rw [Scope.kindsByPriority, Scope.kinds_map]
    rfl
  have hgroups : d.outline.groups
      = (d.scope.map Element.toNode).headings d.scope.kindsByPriority := by
    rw [outline, Scope.byPriority, hpriority]
  have hperm : d.scope.kindsByPriority.Perm d.scope.kinds := Scope.kindsByPriority_perm
  have horder : d.scope.kindsByPriority.Nodup := hperm.nodup_iff.2 hd.kinds
  have hsub : d.scope.kinds ⊆ d.scope.kindsByPriority := hperm.symm.subset
  have hflat : (d.outline.flatten.map Node.tag).Perm (d.occurrences.map Occurrence.tag) := by
    rw [Outline.flatten, hgroups]
    exact hd.flattenGroups_perm horder hsub []
  have hlength : d.outline.flatten.length = d.count := by
    rw [← List.length_map, hflat.length_eq, List.length_map]
    exact d.scope.length_occurrences []
  have hempty : d.isEmpty = true ↔ d.count = 0 := d.scope.isEmpty_iff_count
  refine ⟨?_, hflat, hlength, ?_, hempty⟩
  · refine .intro (fun kind => d.scope.sorted kind) ?_ ?_ ?_
    · rw [hgroups]
      exact Scope.listedBy_headings hd.kinds horder hsub
    · have hstable := (d.scope.map Element.toNode).isStableSort_kinds_byPriority
      rw [Scope.usedKinds_map] at hstable
      exact hstable
    · exact fun heading hmem =>
        Scope.items_shown (fun g hg e he => (hd.items g hg e he).shows) hmem
  · rw [Outline.isEmpty_iff_flatten, hempty, ← hlength, List.length_eq_zero_iff]

/-- A class that holds a class, and whose variables were taken out again. -/
def Class.emptied : Class :=
  let inner := (Class.empty ⟨"Inner", 2, .classes, none⟩).add .methods
    (.leaf ⟨"run", 3, .methods, none⟩)
  let outer := (Class.empty ⟨"Outer", 1, .classes, none⟩).add .classes (.ofClass inner)
  (outer.add .vars (.leaf ⟨"x", 4, .vars, none⟩)).modifyMembers (.modify .vars fun _ => [])

/-- A document with a class, a leaf filed among the classes, two functions of one name and a group
of higher priority than both. -/
def Document.mixed : Document :=
  let filed := ((({} : Document).addClass .emptied).add .classes
    (.leaf ⟨"main", 0, .packages, none⟩)).addFunction ⟨"go", 7, .functions, none⟩
  ((filed.addFunction ⟨"go", 6, .functions, none⟩).add .macros
    (.leaf ⟨"N", 5, .macros, none⟩)).prioritise .macros 10

/-- A document with a class in a class, a group that was emptied, elements beside them and a
priority of its own.

**Proof sketch.** The document is built step by step, class by class, and the general theorem
applies to it. -/
theorem Document.outline_complete_mixed :
    mixed.Built
      ∧ mixed.outline.Shows mixed
      ∧ (mixed.outline.flatten.map Node.tag).Perm (mixed.occurrences.map Occurrence.tag)
      ∧ mixed.outline.flatten.length = mixed.count
      ∧ (mixed.outline.isEmpty = true ↔ mixed.isEmpty = true)
      ∧ (mixed.isEmpty = true ↔ mixed.count = 0) := by
  have hinner : ((Class.empty ⟨"Inner", 2, .classes, none⟩).add .methods
      (.leaf ⟨"run", 3, .methods, none⟩)).Built := .add _ (.empty _) (.leaf _)
  have houter : Class.Built (((Class.empty ⟨"Outer", 1, .classes, none⟩).add .classes
      (.ofClass _)).add .vars (.leaf ⟨"x", 4, .vars, none⟩)) :=
    .add _ (.add _ (.empty _) (.ofClass hinner)) (.leaf _)
  have hemptied : Class.emptied.Built :=
    .modifyMembers _ houter (.modify _ _ houter.members (by simp))
  have hmixed : mixed.Built :=
    .prioritise _ _ (.add _ (.add _ (.add _ (.add _ (.addClass .empty hemptied) (.leaf _))
      (.leaf _)) (.leaf _)) (.leaf _))
  exact ⟨hmixed, hmixed.outline_complete⟩

end Outliner
