import Outliner.Proofs.Occurrence

set_option autoImplicit false

/-!
# What the operations build

Documents, classes, scopes and elements are built by operations that begin with what is empty. Some
operations hand out a part to be changed at will: the items of a kind, the members of a class, the
last class and the first class of a name. What is left there must itself be built by operations.

In whatever order the operations come, no scope ever has two groups of one kind, at any depth. This
is the one fact about histories on which the listing of a document rests.

## Main definitions

* `Outliner.Scope.Built`, `Outliner.Class.Built`, `Outliner.Element.Built`,
  `Outliner.Document.Built` — what the operations build.
* `Outliner.Element.Distinct`, `Outliner.Scope.Distinct` — no scope in a tree has two groups of one
  kind.

## Main results

* `Outliner.Document.Built.distinct` — whatever is built is distinct.
-/

namespace Outliner

mutual

/-- A scope that operations build. -/
inductive Scope.Built : Scope Element → Prop where
  /-- The empty scope. -/
  | empty : Scope.Built {}
  /-- Filing an element. -/
  | add {s : Scope Element} {e : Element} (kind : Kind) :
    Scope.Built s → Element.Built e → Scope.Built (s.add kind e)
  /-- Changing the items of a kind at will. -/
  | modify {s : Scope Element} (kind : Kind) (change : List Element → List Element) :
    Scope.Built s → (∀ e ∈ change (s.get kind), Element.Built e) → Scope.Built (s.modify kind change)
  /-- Setting a description. -/
  | describe {s : Scope Element} (kind : Kind) (description : String) :
    Scope.Built s → Scope.Built (s.describe kind description)
  /-- Setting a priority. -/
  | prioritise {s : Scope Element} (kind : Kind) (priority : Int) :
    Scope.Built s → Scope.Built (s.prioritise kind priority)

/-- A class that operations build. -/
inductive Class.Built : Class → Prop where
  /-- A class without members. -/
  | empty (tag : Tag) : Class.Built (.empty tag)
  /-- Changing what is known of the class itself. -/
  | retag {c : Class} (tag : Tag) : Class.Built c → Class.Built { c with tag := tag }
  /-- Filing a member. -/
  | add {c : Class} {e : Element} (kind : Kind) :
    Class.Built c → Element.Built e → Class.Built (c.add kind e)
  /-- Changing the members at will. -/
  | modifyMembers {c : Class} (change : Scope Element → Scope Element) :
    Class.Built c → Scope.Built (change c.members) → Class.Built (c.modifyMembers change)

/-- An element that operations build. -/
inductive Element.Built : Element → Prop where
  /-- A leaf. -/
  | leaf (tag : Tag) : Element.Built (.leaf tag)
  /-- A class. -/
  | ofClass {c : Class} : Class.Built c → Element.Built (.ofClass c)

end

/-- A document that operations build. -/
inductive Document.Built : Document → Prop where
  /-- The empty document. -/
  | empty : Document.Built {}
  /-- Filing an element. Functions and variables are filed in this way. -/
  | add {d : Document} {e : Element} (kind : Kind) :
    Document.Built d → Element.Built e → Document.Built (d.add kind e)
  /-- Filing a class and remembering it. -/
  | addClass {d : Document} {c : Class} :
    Document.Built d → Class.Built c → Document.Built (d.addClass c)
  /-- Forgetting the last class. -/
  | forgetLastClass {d : Document} : Document.Built d → Document.Built d.forgetLastClass
  /-- Setting a description. -/
  | describe {d : Document} (kind : Kind) (description : String) :
    Document.Built d → Document.Built (d.describe kind description)
  /-- Setting a priority. -/
  | prioritise {d : Document} (kind : Kind) (priority : Int) :
    Document.Built d → Document.Built (d.prioritise kind priority)
  /-- Changing the last class at will. -/
  | modifyLastClass {d : Document} (change : Class → Class) :
    Document.Built d → (∀ c, d.lastClass? = some c → Class.Built (change c)) →
      Document.Built (d.modifyLastClass change)
  /-- Changing the first class of a name at will. -/
  | modifyClassNamed {d : Document} (name : String) (change : Class → Class) :
    Document.Built d → (∀ c, d.classNamed? name = some c → Class.Built (change c)) →
      Document.Built (d.modifyClassNamed name change)

/-- A member stays built when it becomes known to belong to a scope. -/
lemma Element.Built.withinScope {e : Element} (scope : String) : e.Built → (e.withinScope scope).Built
  | .leaf _ => .leaf _
  | .ofClass hc => .ofClass (.retag _ hc)

/-- The members of a class that operations build are themselves built, so that any operation on a
scope may be applied to them. -/
theorem Class.Built.members {c : Class} : c.Built → c.members.Built
  | .empty _ => .describe _ _ (.describe _ _ .empty)
  | .retag _ hc => hc.members
  | .add kind hc he => .add kind hc.members (he.withinScope _)
  | .modifyMembers _ _ hs => hs

/-! ## Distinct kinds -/

/-- No scope in the tree has two groups of one kind. -/
inductive Element.Distinct : Element → Prop where
  /-- A leaf has no scope. -/
  | leaf (tag : Tag) : Element.Distinct (.leaf tag)
  /-- The members of a branch are grouped by distinct kinds, and so are theirs. -/
  | branch (tag : Tag) {members : Scope Element} (kinds : members.kinds.Nodup)
      (items : ∀ g ∈ members.groups, ∀ e ∈ g.items, Element.Distinct e) :
    Element.Distinct (.branch tag members)

/-- No scope has two groups of one kind, neither this one nor one below it. -/
structure Scope.Distinct (s : Scope Element) : Prop where
  /-- The groups are of distinct kinds. -/
  kinds : s.kinds.Nodup
  /-- So are the groups below them. -/
  items : ∀ g ∈ s.groups, ∀ e ∈ g.items, e.Distinct

/-- An element with members is distinct if its members are. -/
lemma Element.distinct_branch_iff {tag : Tag} {members : Scope Element} :
    (branch tag members).Distinct ↔ members.Distinct := by
  constructor
  · rintro ⟨⟩
    exact ⟨‹_›, ‹_›⟩
  · intro h
    exact .branch tag h.kinds h.items

/-- A tag that changes in being put within a class changes nothing below it. -/
lemma Element.Distinct.withinScope {e : Element} (h : e.Distinct) (scope : String) :
    (e.withinScope scope).Distinct := by
  cases e with
  | leaf tag => exact .leaf _
  | branch tag members => exact distinct_branch_iff.2 (distinct_branch_iff.1 h)

/-- What is filed after an element was filed is that element or was filed before.

**Proof sketch.** Induction on the groups, up to the one of the kind. There the element stands
behind those that were there; where there is no group of the kind, it is the only one of a new
group. -/
lemma Scope.mem_items_add {s : Scope Element} {kind : Kind} {e x : Element} {g : Group Element}
    (hg : g ∈ (s.add kind e).groups) (hx : x ∈ g.items) : x = e ∨ ∃ g ∈ s.groups, x ∈ g.items := by
  obtain ⟨groups, descriptions, priorities⟩ := s
  change g ∈ Group.file kind e groups at hg
  show x = e ∨ ∃ g ∈ groups, x ∈ g.items
  induction groups with
  | nil =>
    obtain rfl := List.mem_singleton.1 hg
    exact .inl (List.mem_singleton.1 hx)
  | cons first groups ih =>
    by_cases hk : first.kind = kind
    · rw [Group.file, if_pos hk, List.mem_cons] at hg
      rcases hg with rfl | hg
      · rcases List.mem_append.1 hx with hx | hx
        · exact .inr ⟨first, List.mem_cons_self, hx⟩
        · exact .inl (List.mem_singleton.1 hx)
      · exact .inr ⟨g, List.mem_cons_of_mem first hg, hx⟩
    · rw [Group.file, if_neg hk, List.mem_cons] at hg
      rcases hg with rfl | hg
      · exact .inr ⟨g, List.mem_cons_self, hx⟩
      · rcases ih hg with h | ⟨g, hg, hx⟩
        · exact .inl h
        · exact .inr ⟨g, List.mem_cons_of_mem first hg, hx⟩

/-- What is filed after the items of a kind were changed is among these or was filed before.

**Proof sketch.** Induction on the groups, up to the one of the kind. -/
lemma Scope.mem_items_modify {s : Scope Element} {kind : Kind}
    {change : List Element → List Element} {x : Element} {g : Group Element}
    (hg : g ∈ (s.modify kind change).groups) (hx : x ∈ g.items) :
    x ∈ change (s.get kind) ∨ ∃ g ∈ s.groups, x ∈ g.items := by
  obtain ⟨groups, descriptions, priorities⟩ := s
  change g ∈ Group.revise kind change groups at hg
  simp only [Scope.get, Scope.group?]
  induction groups with
  | nil => simp [Group.revise] at hg
  | cons first groups ih =>
    by_cases hk : first.kind = kind
    · rw [Group.revise, if_pos hk, List.mem_cons] at hg
      rcases hg with rfl | hg
      · exact .inl (by simpa [List.find?_cons, hk] using hx)
      · exact .inr ⟨g, List.mem_cons_of_mem first hg, hx⟩
    · rw [Group.revise, if_neg hk, List.mem_cons] at hg
      have hb : (first.kind == kind) = false := by simpa using hk
      rcases hg with rfl | hg
      · exact .inr ⟨g, List.mem_cons_self, hx⟩
      · rcases ih hg with h | ⟨g, hg, hx⟩
        · exact .inl (by simpa only [List.find?_cons, hb] using h)
        · exact .inr ⟨g, List.mem_cons_of_mem first hg, hx⟩

namespace Scope.Distinct

variable {s : Scope Element}

/-- The empty scope is distinct. -/
theorem empty : ({} : Scope Element).Distinct := ⟨List.nodup_nil, by simp⟩

/-- Filing a distinct element keeps a scope distinct. -/
theorem add (h : s.Distinct) {e : Element} (he : e.Distinct) (kind : Kind) :
    (s.add kind e).Distinct := by
  refine ⟨?_, fun g hg x hx => ?_⟩
  · rw [Scope.kinds_add]
    split
    · exact h.kinds
    · next hnew =>
      refine List.nodup_append.2 ⟨h.kinds, by simp, fun a ha b hb heq => hnew ?_⟩
      rwa [← List.mem_singleton.1 hb, ← heq]
  · rcases Scope.mem_items_add hg hx with rfl | ⟨g, hg, hx⟩
    · exact he
    · exact h.items g hg x hx

/-- Changing the items of a kind keeps a scope distinct, if the items are distinct afterwards. -/
theorem modify (h : s.Distinct) {kind : Kind} {change : List Element → List Element}
    (hchange : ∀ e ∈ change (s.get kind), e.Distinct) : (s.modify kind change).Distinct := by
  refine ⟨by rw [Scope.kinds_modify]; exact h.kinds, fun g hg x hx => ?_⟩
  rcases Scope.mem_items_modify hg hx with hx | ⟨g, hg, hx⟩
  · exact hchange x hx
  · exact h.items g hg x hx

end Scope.Distinct

/-- What a list holds after one item was changed are its old items and the changed one. -/
lemma mem_modify {α : Type} {l : List α} {i : Nat} {f : α → α} {a : α} (h : a ∈ l.modify i f) :
    a ∈ l ∨ ∃ b, l[i]? = some b ∧ f b = a := by
  induction l generalizing i with
  | nil => simp at h
  | cons b l ih =>
    cases i with
    | zero => simp_all; tauto
    | succ i =>
      rw [List.modify_succ_cons, List.mem_cons] at h
      rcases h with rfl | h
      · simp
      · rcases ih h with h | h
        · exact .inl (List.mem_cons_of_mem b h)
        · exact .inr (by simpa using h)

/-- Changing the class at a place of a kind keeps a scope distinct, if the class is distinct
afterwards.

**Proof sketch.** The items of the kind were distinct before. All of them but the one at the place
are as they were, and that one is changed as a class, if it is one. -/
lemma Scope.Distinct.modifyAt {s : Scope Element} (h : s.Distinct) {kind : Kind} {i : Nat}
    {change : Class → Class}
    (hchange : ∀ c, (s.get kind)[i]? = some (.ofClass c) → (Element.ofClass (change c)).Distinct) :
    (s.modifyAt kind i (Element.modifyClass change)).Distinct := by
  refine h.modify fun e he => ?_
  have hold : ∀ e ∈ s.get kind, e.Distinct := by
    intro e he
    rw [Scope.get] at he
    cases hg : s.group? kind with
    | none => simp [hg] at he
    | some g => exact h.items g (List.mem_of_find?_eq_some hg) e (by simpa [hg] using he)
  rcases mem_modify he with hmem | ⟨e, hi, rfl⟩
  · exact hold e hmem
  · cases e with
    | leaf tag => exact .leaf tag
    | branch tag members => exact hchange ⟨tag, members⟩ hi

/-! ## Whatever is built is distinct -/

mutual

/-- A scope that operations build has no two groups of one kind, at any depth. -/
theorem Scope.Built.distinct {s : Scope Element} : s.Built → s.Distinct
  | .empty => .empty
  | .add kind hs he => hs.distinct.add he.distinct kind
  | .modify _ _ hs hchange => hs.distinct.modify fun e he => (hchange e he).distinct
  | .describe _ _ hs => ⟨hs.distinct.kinds, hs.distinct.items⟩
  | .prioritise _ _ hs => ⟨hs.distinct.kinds, hs.distinct.items⟩

/-- The members of a class that is built are distinct. -/
theorem Class.Built.distinct {c : Class} : c.Built → c.members.Distinct
  | .empty _ => ⟨List.nodup_nil, fun _ hg => absurd hg List.not_mem_nil⟩
  | .retag _ hc => hc.distinct
  | .add kind hc he => hc.distinct.add (he.distinct.withinScope _) kind
  | .modifyMembers _ _ hs => hs.distinct

/-- An element that is built is distinct. -/
theorem Element.Built.distinct {e : Element} : e.Built → e.Distinct
  | .leaf tag => .leaf tag
  | .ofClass hc => Element.distinct_branch_iff.2 hc.distinct

end

/-- A document that operations build has no two groups of one kind, at any depth.

**Proof sketch.** Induction on the operations. Those that file an element file a distinct one. Those
that change a class change the element at one place among the classes, and leave there a class that
is itself built. -/
theorem Document.Built.distinct {d : Document} (h : d.Built) : d.scope.Distinct := by
  induction h with
  | empty => exact .empty
  | add kind _ he ih => exact ih.add he.distinct kind
  | addClass _ hc ih => exact ih.add (Element.Built.ofClass hc).distinct .classes
  | forgetLastClass _ ih => exact ih
  | describe _ _ _ ih => exact ⟨ih.kinds, ih.items⟩
  | prioritise _ _ _ ih => exact ⟨ih.kinds, ih.items⟩
  | @modifyLastClass d change _ hchange ih =>
    rw [Document.modifyLastClass]
    split
    · next i hi =>
      refine ih.modifyAt fun c hc => ?_
      refine (Element.Built.ofClass (hchange c ?_)).distinct
      simp [Document.lastClass?, hi, hc]
    · exact ih
  | @modifyClassNamed d name change _ hchange ih =>
    rw [Document.modifyClassNamed]
    split
    · next i hi =>
      refine ih.modifyAt fun c hc => ?_
      refine (Element.Built.ofClass (hchange c ?_)).distinct
      simp [Document.classNamed?_eq_bind, hi, hc]
    · exact ih

end Outliner
