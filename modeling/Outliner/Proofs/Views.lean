import Outliner.Proofs.Built
import Outliner.Proofs.Listing

set_option autoImplicit false

/-!
# Views of classes

What a document holds is shown in more than one way. Its classes are listed by themselves, and also
among all that is filed with them, leaves included. The members of a class are listed by role, and
also by priority, as those of any scope are. A listing by itself selects before it sorts where the
other one sorts before it selects, and a listing by role asks for two kinds that may not be in use,
yet both show the same.

## Main results

* `Outliner.Scope.byRole_perm_byPriority` — the groups shown by role are those shown by priority.
* `Outliner.Document.classes_agree` — the views of classes agree.
-/

namespace Outliner

/-- Ordering kinds by role loses and doubles none.

**Proof sketch.** A kind is counted in the part to which it belongs, and in the other two parts it
does not occur. -/
lemma Kind.byRole_perm (kinds : List Kind) : (Kind.byRole kinds).Perm kinds := by
  refine List.perm_iff_count.2 fun kind => ?_
  -- a kind stands in one of the three parts, and there as often as in the whole
  have hout : ∀ p : Kind → Bool, p kind = false → (kinds.filter p).count kind = 0 := by
    intro p hp
    refine List.count_eq_zero.2 fun hmem => ?_
    rw [(List.mem_filter.1 hmem).2] at hp
    cases hp
  rw [Kind.byRole, List.count_append, List.count_append]
  by_cases hvars : kind = .vars
  · subst hvars
    rw [List.count_filter (by decide), hout _ (by decide), hout _ (by decide), Nat.add_zero]
  · by_cases hmethods : kind = .methods
    · subst hmethods
      rw [hout _ (by decide), List.count_filter (by decide), hout _ (by decide), Nat.zero_add,
        Nat.add_zero]
    · rw [hout _ (by simpa using hvars), hout _ (by simpa using hmethods),
        List.count_filter (by simp [hvars, hmethods]), Nat.zero_add]

namespace Scope

variable {α : Type} [Named α] {s : Scope α}

/-- A heading is told by its kind. -/
lemma map_heading_kinds (order : List Kind) (s : Scope α) :
    ((s.headings order).map Heading.kind).map s.heading = s.headings order := by
  rw [List.map_map]
  refine (List.map_congr_left fun heading hmem => ?_).trans (List.map_id _)
  obtain ⟨kind, -, rfl⟩ := List.mem_map.1 (List.mem_filter.1 hmem).1
  rfl

/-- **The groups shown by role are those shown by priority**, if no kind has two groups.

**Proof sketch.** Both listings have one heading for each kind that has items, and a heading is told
by its kind. -/
theorem byRole_perm_byPriority (hs : s.kinds.Nodup) : s.byRole.Perm s.byPriority := by
  have hkinds : (s.byRole.map Heading.kind).Perm (s.byPriority.map Heading.kind) := by
    rw [kinds_byRole hs]
    exact (Kind.byRole_perm _).trans s.isStableSort_kinds_byPriority.perm.symm
  have hheadings := hkinds.map s.heading
  rwa [byRole, byPriority, map_heading_kinds, map_heading_kinds] at hheadings

/-- By role, each kind is shown once. -/
lemma nodup_kinds_byRole (hs : s.kinds.Nodup) : (s.byRole.map Heading.kind).Nodup := by
  rw [kinds_byRole hs]
  exact (Kind.byRole_perm _).nodup_iff.2 (hs.filter _)

end Scope

/-- What is a class bears the name of the class. -/
lemma Element.name_class? {e : Element} {c : Class} (h : e.class? = some c) :
    Named.name c = Named.name e := by
  cases e with
  | leaf tag => cases h
  | branch tag members =>
    obtain rfl := Option.some.inj h
    rfl

/-- **The views of classes agree.** The classes of a document are the classes, in the same order,
among all that is filed with the classes in the order of the names. The groups of members that a
class shows are those that its members show as a scope, with the same items in the same order, and
each kind is shown once, whatever priorities there are and whatever groups have lost their items. -/
theorem Document.classes_agree :
    (∀ d : Document, d.classes = (d.scope.sorted .classes).filterMap Element.class?)
      ∧ ∀ c : Class, c.Built →
        c.elements.Perm c.members.byPriority ∧ (c.elements.map Heading.kind).Nodup := by
  refine ⟨fun d => ?_, fun c hc => ?_⟩
  · exact Named.sort_filterMap (fun _ _ => Element.name_class?) (d.scope.get .classes)
  · have hkinds : c.members.kinds.Nodup := hc.distinct.kinds
    exact ⟨Scope.byRole_perm_byPriority hkinds, Scope.nodup_kinds_byRole hkinds⟩

/-- A class with a class, two methods and a variable as its members. Then the variable is removed,
and classes are given priority. -/
def Class.widget : Class :=
  (((((Class.empty ⟨"Widget", 0, .classes, none⟩).add .vars (.leaf ⟨"width", 1, .vars, none⟩)).add
    .methods (.leaf ⟨"draw", 2, .methods, none⟩)).add
    .classes (.ofClass (.empty ⟨"Inner", 3, .classes, none⟩))).add
    .methods (.leaf ⟨"area", 4, .methods, none⟩)).modifyMembers
      fun s => (s.modify .vars fun _ => []).prioritise .classes 5

/-- A class with members of three kinds, one kind emptied again and one raised: by role its methods
come first, and by priority its classes.

**Proof sketch.** The class is built step by step. The order by role is computed. That by priority
is the one stable order of the kinds, so it is enough to see that the given one is stable. -/
theorem Document.classes_agree_widget :
    Class.widget.Built ∧ Class.widget.elements.Perm Class.widget.members.byPriority
      ∧ Class.widget.elements.map Heading.kind = [.methods, .classes]
      ∧ Class.widget.members.byPriority.map Heading.kind = [.classes, .methods] := by
  have hbuilt : Class.widget.Built := by
    have hmembers := ((((Class.Built.empty ⟨"Widget", 0, .classes, none⟩).add
      .vars (.leaf ⟨"width", 1, .vars, none⟩)).add
      .methods (.leaf ⟨"draw", 2, .methods, none⟩)).add
      .classes (.ofClass (.empty ⟨"Inner", 3, .classes, none⟩))).add
      .methods (.leaf ⟨"area", 4, .methods, none⟩)
    exact hmembers.modifyMembers _ (.prioritise _ _ (.modify _ _ hmembers.members (by simp)))
  have hrole : Class.widget.elements.map Heading.kind = [.methods, .classes] := by
    rw [Class.elements, Scope.kinds_byRole hbuilt.distinct.kinds]
    decide
  have hpriority : Class.widget.members.byPriority.map Heading.kind = [.classes, .methods] := by
    refine Class.widget.members.isStableSort_kinds_byPriority.unique
      (fun _ _ hle hle' => le_antisymm hle' hle) ⟨by decide, fun priority => ?_⟩
    have hused : Class.widget.members.usedKinds = [.methods, .classes] := by decide
    have hmethods : Class.widget.members.priority .methods = 0 := by decide
    have hclasses : Class.widget.members.priority .classes = 5 := by decide
    rw [hused]
    by_cases hzero : 0 = priority
    · subst hzero
      decide
    · simp [List.filter_cons, hmethods, hclasses, hzero]
  exact ⟨hbuilt, (Document.classes_agree.2 Class.widget hbuilt).1, hrole, hpriority⟩

end Outliner
