import Mathlib.Data.List.Forall2
import Mathlib.Tactic.Lemma
import Outliner.Outline.Export

set_option autoImplicit false

/-!
# What an export tells

An outline is exported with fewer fields than it has: a description or a scope that is missing is
left out, so are the groups of a node without any, and a kind is written by its key. Nothing is lost
by this, as long as no well-known kind is spelled out as a custom one. The order in which the fields
of an object are written does not matter either.

## Main definitions

* `Outliner.Json.Same` — equality of JSON values, whatever the order of their fields.
* `Outliner.Node.Canonical`, `Outliner.Outline.Canonical` — all kinds are canonical, at any depth.

## Main results

* `Outliner.Node.Canonical.eq_of_same` — a node is known by its export.
* `Outliner.Outline.toJson_faithful` — so is an outline.
-/

namespace Outliner

/-! ## JSON values -/

namespace Json

/-- The values are the same. An object is known by the values of its fields, not by their order. -/
inductive Same : Json → Json → Prop where
  /-- Equal integers. -/
  | number (value : Int) : Same (.number value) (.number value)
  /-- Equal strings. -/
  | text (value : String) : Same (.text value) (.text value)
  /-- Arrays with the same items in the same order. -/
  | array {a b : List Json} (items : List.Forall₂ Same a b) : Same (.array a) (.array b)
  /-- Objects whose fields of each name are the same, or missing in both. -/
  | object {a b : List (String × Json)}
      (fields : ∀ name, Option.Rel Same (a.lookup name) (b.lookup name)) :
      Same (.object a) (.object b)

/-- An object with the fields that have a value. -/
def record (fields : List (String × Option Json)) : Json :=
  .object (fields.filterMap fun field => field.2.map (field.1, ·))

/-- A record holds the value of each of its fields, if no two have one name.

**Proof sketch.** Induction on the fields. The first one of the name is found, and if its value is
missing, no other field gives one. -/
lemma lookup_fields {fields : List (String × Option Json)} (hnames : (fields.map Prod.fst).Nodup)
    {name : String} {value : Option Json} (h : (name, value) ∈ fields) :
    (fields.filterMap fun field => field.2.map (field.1, ·)).lookup name = value := by
  have habsent : ∀ {fields : List (String × Option Json)}, name ∉ fields.map Prod.fst →
      (fields.filterMap fun field => field.2.map (field.1, ·)).lookup name = none := by
    intro fields hname
    refine List.lookup_eq_none_iff.2 fun entry hentry => ?_
    obtain ⟨field, hfield, hvalue⟩ := List.mem_filterMap.1 hentry
    obtain ⟨_, -, rfl⟩ := Option.map_eq_some_iff.1 hvalue
    rw [bne_iff_ne]
    rintro rfl
    exact hname (List.mem_map_of_mem hfield)
  induction fields with
  | nil => exact absurd h List.not_mem_nil
  | cons field fields ih =>
    obtain ⟨hfirst, hrest⟩ := List.nodup_cons.1 hnames
    rcases List.mem_cons.1 h with rfl | h
    · cases value with
      | none => simpa using habsent hfirst
      | some value => simp
    · have hne : name ≠ field.1 := by
        rintro rfl
        exact hfirst (List.mem_map.2 ⟨_, h, rfl⟩)
      have hother : (name == field.1) = false := beq_eq_false_iff_ne.2 hne
      cases hvalue : field.2 with
      | none => simpa [hvalue] using ih hrest h
      | some _ => simpa [hvalue, List.lookup_cons, hother] using ih hrest h

/-- The fields of the same record are the same, those that are missing included.

**Proof sketch.** Under the name of each field both records hold the value that stands at its place
(`lookup_fields`), so these values are the same. -/
lemma Same.of_record {names : List String} (hnames : names.Nodup) {xs ys : List (Option Json)}
    (hxs : xs.length = names.length) (hys : ys.length = names.length)
    (h : Same (record (names.zip xs)) (record (names.zip ys))) :
    List.Forall₂ (Option.Rel Same) xs ys := by
  have hfields : ∀ {zs : List (Option Json)}, zs.length = names.length →
      ((names.zip zs).map Prod.fst).Nodup := by
    intro zs hzs
    rwa [List.map_fst_zip (Nat.le_of_eq hzs.symm)]
  refine List.forall₂_iff_get.2 ⟨hxs.trans hys.symm, fun i hx hy => ?_⟩
  have hi : i < names.length := hxs ▸ hx
  have hmem : ∀ {zs : List (Option Json)} (hz : i < zs.length), zs.length = names.length →
      (names[i], zs[i]) ∈ names.zip zs := by
    intro zs hz hzs
    refine List.mem_iff_getElem.2 ⟨i, ?_, List.getElem_zip⟩
    rwa [List.length_zip, hzs, Nat.min_self]
  cases h with
  | object fields =>
    have hfield := fields names[i]
    rwa [lookup_fields (hfields hxs) (hmem hx hxs), lookup_fields (hfields hys) (hmem hy hys)]
      at hfield

/-- A string that may be missing is known by its field. -/
lemma eq_of_rel_text {s t : Option String}
    (h : Option.Rel Same (s.map .text) (t.map .text)) : s = t := by
  cases s <;> cases t <;> cases h
  · rfl
  · next h =>
    cases h
    rfl

/-- Numbers that are exported as the same value are the same. -/
lemma eq_of_rel_number {m n : Int}
    (h : Option.Rel Same (some (.number m)) (some (.number n))) : m = n := by
  cases h with
  | some h =>
    cases h
    rfl

/-- Arrays that are exported as the same value have the same items. -/
lemma forall₂_of_rel_array {xs ys : List Json}
    (h : Option.Rel Same (some (.array xs)) (some (.array ys))) : List.Forall₂ Same xs ys := by
  cases h with
  | some h =>
    cases h
    assumption

end Json

/-- Lists whose items are related are equal, where related items of them are. -/
lemma eq_of_forall₂ {α : Type} {R : α → α → Prop} {xs ys : List α} (h : List.Forall₂ R xs ys)
    (heq : ∀ x ∈ xs, ∀ y ∈ ys, R x y → x = y) : xs = ys := by
  induction h with
  | nil => rfl
  | @cons x y xs ys hxy _ ih =>
    have hfirst : x = y := heq x List.mem_cons_self y List.mem_cons_self hxy
    have hrest : xs = ys :=
      ih fun x hx y hy => heq x (List.mem_cons_of_mem _ hx) y (List.mem_cons_of_mem _ hy)
    rw [hfirst, hrest]

/-! ## Canonical outlines -/

/-- All kinds of the node and below it are canonical. -/
inductive Node.Canonical : Node → Prop where
  /-- The kind of the node is, those of the groups below it are, and those of their items are. -/
  | intro {n : Node} (kind : n.kind.IsCanonical) (groups : ∀ g ∈ n.groups, g.kind.IsCanonical)
      (items : ∀ g ∈ n.groups, ∀ m ∈ g.items, Node.Canonical m) : Node.Canonical n

/-- All kinds of the outline are canonical. -/
structure Outline.Canonical (o : Outline) : Prop where
  /-- Those of the groups at the top are. -/
  groups : ∀ g ∈ o.groups, g.kind.IsCanonical
  /-- Those of the nodes are, at any depth. -/
  items : ∀ g ∈ o.groups, ∀ n ∈ g.items, n.Canonical

/-- A canonical kind is known by its key. -/
lemma Kind.eq_of_key {a b : Kind} (ha : a.IsCanonical) (hb : b.IsCanonical) (h : a.key = b.key) :
    a = b := by
  rw [← ofKey_key_iff.2 ha, ← ofKey_key_iff.2 hb, h]

/-! ## Exports as records -/

namespace Node

/-- A group of nodes as JSON. -/
def groupJson (g : Heading Node) : Json :=
  .record (["kind", "description", "priority", "items"].zip
    [some (.text g.kind.key), g.description.map .text, some (.number g.priority),
      some (.array (g.items.map toJson))])

/-- Items are exported one by one. -/
lemma itemsToJson_eq_map (items : List Node) : itemsToJson items = items.map toJson := by
  induction items with
  | nil => rw [itemsToJson, List.map_nil]
  | cons n items ih => rw [itemsToJson, ih, List.map_cons]

/-- Groups are exported one by one. -/
lemma groupsToJson_eq_map (groups : List (Heading Node)) :
    groupsToJson groups = groups.map groupJson := by
  induction groups with
  | nil => rw [groupsToJson, List.map_nil]
  | cons g groups ih =>
    obtain ⟨kind, description, priority, items⟩ := g
    rw [groupsToJson, ih, itemsToJson_eq_map, List.map_cons, groupJson]
    cases description <;> rfl

/-- A node is a record with its groups, unless it has none. -/
lemma toJson_eq_record (n : Node) : n.toJson =
    .record (["name", "kind", "line", "scope", "groups"].zip
      [some (.text n.name), some (.text n.kind.key), some (.number n.line), n.scope.map .text,
        if n.groups.isEmpty then none else some (.array (n.groups.map groupJson))]) := by
  obtain ⟨name, kind, line, scope, groups⟩ := n
  rw [toJson, groupsToJson_eq_map]
  cases scope <;> cases groups <;> rfl

end Node

/-! ## Nothing is lost -/

/-- Groups whose items are known by their exports are known by theirs.

**Proof sketch.** Field by field: the kinds are told by their keys because they are canonical, the
descriptions and the priorities are values themselves, and the items are known by assumption. -/
lemma Node.eq_of_groupJson {g g' : Heading Node} (hg : g.kind.IsCanonical)
    (hg' : g'.kind.IsCanonical)
    (hitems : ∀ n ∈ g.items, ∀ n' ∈ g'.items, Json.Same n.toJson n'.toJson → n = n')
    (h : Json.Same (groupJson g) (groupJson g')) : g = g' := by
  have hvalues := h.of_record (by decide) rfl rfl
  simp only [List.forall₂_cons] at hvalues
  obtain ⟨hkind, hdescription, hpriority, hexports, -⟩ := hvalues
  have hkinds : g.kind = g'.kind :=
    Kind.eq_of_key hg hg' (Option.some.inj (Json.eq_of_rel_text hkind))
  have hexports : List.Forall₂ Json.Same (g.items.map toJson) (g'.items.map toJson) :=
    Json.forall₂_of_rel_array hexports
  have hall : g.items = g'.items := by
    rw [List.forall₂_map_left_iff, List.forall₂_map_right_iff] at hexports
    exact eq_of_forall₂ hexports hitems
  obtain ⟨kind, description, priority, items⟩ := g
  obtain ⟨kind', description', priority', items'⟩ := g'
  obtain rfl : kind = kind' := hkinds
  obtain rfl : description = description' := Json.eq_of_rel_text hdescription
  obtain rfl : priority = priority' := Json.eq_of_rel_number hpriority
  obtain rfl : items = items' := hall
  rfl

/-- The groups are known by their exports, where the items of the first ones are. -/
lemma Node.eq_of_groupsJson {gs gs' : List (Heading Node)} (hgs : ∀ g ∈ gs, g.kind.IsCanonical)
    (hgs' : ∀ g ∈ gs', g.kind.IsCanonical) (hcanonical : ∀ g ∈ gs', ∀ n ∈ g.items, n.Canonical)
    (hitems : ∀ g ∈ gs, ∀ n ∈ g.items, ∀ n' : Node, n'.Canonical →
      Json.Same n.toJson n'.toJson → n = n')
    (h : List.Forall₂ Json.Same (gs.map groupJson) (gs'.map groupJson)) : gs = gs' := by
  rw [List.forall₂_map_left_iff, List.forall₂_map_right_iff] at h
  refine eq_of_forall₂ h fun g hg g' hg' hsame => ?_
  exact eq_of_groupJson (hgs g hg) (hgs' g' hg')
    (fun n hn n' hn' => hitems g hg n hn n' (hcanonical g' hg' n' hn')) hsame

/-- The groups of a node may be left out where there are none. -/
lemma Node.forall₂_of_rel_groups {gs gs' : List (Heading Node)}
    (h : Option.Rel Json.Same
      (if gs.isEmpty then none else some (.array (gs.map groupJson)))
      (if gs'.isEmpty then none else some (.array (gs'.map groupJson)))) :
    List.Forall₂ Json.Same (gs.map groupJson) (gs'.map groupJson) := by
  cases gs <;> cases gs'
  · exact .nil
  · exact absurd h (by rintro ⟨⟩)
  · exact absurd h (by rintro ⟨⟩)
  · exact Json.forall₂_of_rel_array h

/-- **A node is known by its export**, if all kinds are canonical.

**Proof sketch.** Induction on the node. Its own fields are read off its record. An absent scope is
an absent field, and a node without groups has no field for them, so either is told from any value.
The groups are known by their exports since their items are. -/
theorem Node.Canonical.eq_of_same {n n' : Node} (hn : n.Canonical) (hn' : n'.Canonical)
    (h : Json.Same n.toJson n'.toJson) : n = n' := by
  induction hn generalizing n' with
  | @intro n hkind hgroups _ ih =>
    cases hn' with
    | intro hkind' hgroups' hitems' =>
      rw [toJson_eq_record, toJson_eq_record] at h
      have hvalues := h.of_record (by decide) rfl rfl
      simp only [List.forall₂_cons] at hvalues
      obtain ⟨hname, hkey, hline, hscope, hexports, -⟩ := hvalues
      have hkinds : n.kind = n'.kind :=
        Kind.eq_of_key hkind hkind' (Option.some.inj (Json.eq_of_rel_text hkey))
      have hall : n.groups = n'.groups :=
        eq_of_groupsJson hgroups hgroups' hitems' (fun g hg m hm m' hm' => ih g hg m hm hm')
          (forall₂_of_rel_groups hexports)
      obtain ⟨name, kind, line, scope, groups⟩ := n
      obtain ⟨name', kind', line', scope', groups'⟩ := n'
      obtain rfl : name = name' := Option.some.inj (Json.eq_of_rel_text hname)
      obtain rfl : kind = kind' := hkinds
      obtain rfl : line = line' := Int.ofNat_inj.1 (Json.eq_of_rel_number hline)
      obtain rfl : scope = scope' := Json.eq_of_rel_text hscope
      obtain rfl : groups = groups' := hall
      rfl

/-- A value is the same as itself.

**Proof sketch.** Values are compared along their structure, and the value of a field is smaller
than the record. -/
theorem Json.Same.refl : (value : Json) → Same value value
  | .number value => .number value
  | .text value => .text value
  | .array items => .array (List.forall₂_same.2 fun item _ => refl item)
  | .object fields => .object fun name => by
      cases hvalue : fields.lookup name with
      | none => exact .none
      | some value =>
        have hmem : (name, value) ∈ fields := by
          obtain ⟨before, after, rfl, -⟩ := List.lookup_eq_some_iff.1 hvalue
          exact List.mem_append_right before List.mem_cons_self
        have hsize : sizeOf value < sizeOf fields := by
          refine Nat.lt_trans ?_ (List.sizeOf_lt_of_mem hmem)
          simp only [Prod.mk.sizeOf_spec]
          omega
        exact .some (refl value)

/-- **Nothing is lost in an export.** The kind of any word is canonical, and if all kinds of two
outlines are, the outlines are exported as the same value only if they are the same outline.

**Proof sketch.** The groups of the outlines are exported item by item. Canonical nodes are known by
their exports (`Node.Canonical.eq_of_same`), and so are groups of such nodes. -/
theorem Outline.toJson_faithful :
    (∀ word, (Kind.ofKey word).IsCanonical)
      ∧ ∀ o o' : Outline, o.Canonical → o'.Canonical →
        (Json.Same o.toJson o'.toJson ↔ o = o') := by
  refine ⟨Kind.isCanonical_ofKey, fun o o' ho ho' => ⟨fun h => ?_, fun h => h ▸ .refl _⟩⟩
  have hrecord : ∀ o : Outline, o.toJson
      = .record (["groups"].zip [some (.array (o.groups.map Node.groupJson))]) := by
    intro o
    rw [toJson, Node.groupsToJson_eq_map]
    rfl
  rw [hrecord, hrecord] at h
  have hvalues := h.of_record (by decide) rfl rfl
  simp only [List.forall₂_cons] at hvalues
  have hgroups : o.groups = o'.groups :=
    Node.eq_of_groupsJson ho.groups ho'.groups ho'.items
      (fun g hg n hn n' hn' => (ho.items g hg n hn).eq_of_same hn')
      (Json.forall₂_of_rel_array hvalues.1)
  obtain ⟨groups⟩ := o
  obtain ⟨groups'⟩ := o'
  exact congrArg Outline.mk hgroups

/-- An outline of an environment within a class, which may be known to belong to the class. -/
def Outline.nested (scope : Option String) : Outline :=
  ⟨[⟨.classes, some "Class Definitions", 2,
    [⟨"A", .classes, 0, none,
      [⟨.custom "environment", none, 0, [⟨"inner", .custom "environment", 1, scope, []⟩]⟩]⟩]⟩]⟩

/-- A scope that is missing is told from an empty one.

**Proof sketch.** The two outlines differ in one scope, so they cannot be exported as the same
value. -/
theorem Outline.toJson_faithful_nested :
    (nested none).Canonical ∧ (nested (some "")).Canonical
      ∧ ¬Json.Same (nested none).toJson (nested (some "")).toJson := by
  have hclasses : Kind.classes.IsCanonical := Kind.ofKey_key_iff.1 (by decide)
  have hcustom : (Kind.custom "environment").IsCanonical := Kind.ofKey_key_iff.1 (by decide)
  have hcanonical : ∀ scope, (nested scope).Canonical := by
    intro scope
    have hinner : Node.Canonical ⟨"inner", .custom "environment", 1, scope, []⟩ :=
      .intro hcustom (List.forall_mem_nil _) (List.forall_mem_nil _)
    have hclass : Node.Canonical ⟨"A", .classes, 0, none,
        [⟨.custom "environment", none, 0, [⟨"inner", .custom "environment", 1, scope, []⟩]⟩]⟩ :=
      .intro hclasses (List.forall_mem_singleton.2 hcustom)
        (List.forall_mem_singleton.2 (List.forall_mem_singleton.2 hinner))
    exact ⟨List.forall_mem_singleton.2 hclasses,
      List.forall_mem_singleton.2 (List.forall_mem_singleton.2 hclass)⟩
  refine ⟨hcanonical none, hcanonical (some ""), fun h => ?_⟩
  have heq := (toJson_faithful.2 _ _ (hcanonical none) (hcanonical (some ""))).1 h
  simp [nested] at heq

end Outliner
