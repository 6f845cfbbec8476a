import Outliner.Proofs.Display

set_option autoImplicit false

/-!
# Searching an outline

A search goes down an outline by itself and takes the nodes of a name. It finds what is left when
all nodes are listed and those of other names are taken out: nodes below a node of the name are
found as well, and each node is found before those below it.

## Main definitions

* `Outliner.Document.named` — the elements of a name at all depths of a document.

## Main results

* `Outliner.Node.find_eq_filter` — a search below a node.
* `Outliner.Outline.find_complete` — a search finds the nodes of the name, and in the outline of a
  document as many as there are elements of the name.
-/

namespace Outliner

namespace Node

variable (target : String)

mutual

/-- Below a node are found the nodes of the name, in the order in which all nodes are listed. -/
theorem find_eq_filter : ∀ n : Node, n.find target = n.flatten.filter (·.name = target)
  | ⟨name, kind, line, scope, groups⟩ => by
    have hgroups := findGroups_eq_filter groups
    by_cases hname : name = target
    · simp [find, flatten, hname, hgroups]
    · simp [find, flatten, hname, hgroups]

/-- In groups are found the nodes of the name. -/
theorem findGroups_eq_filter : ∀ groups : List (Heading Node),
    findGroups target groups = (flattenGroups groups).filter (·.name = target)
  | [] => by simp [findGroups, flattenGroups]
  | ⟨_, _, _, items⟩ :: groups => by
    simp [findGroups, flattenGroups, findItems_eq_filter items, findGroups_eq_filter groups]

/-- In a list are found the nodes of the name. -/
theorem findItems_eq_filter : ∀ items : List Node,
    findItems target items = (flattenItems items).filter (·.name = target)
  | [] => by simp [findItems, flattenItems]
  | n :: items => by
    simp [findItems, flattenItems, find_eq_filter n, findItems_eq_filter items]

end

end Node

/-- A search finds the nodes of the name, in the order in which all nodes are listed. -/
lemma Outline.find_eq_filter (target : String) (o : Outline) :
    o.find target = o.flatten.filter (·.name = target) :=
  Node.findGroups_eq_filter target o.groups

/-- The elements of a name at all depths of a document. -/
def Document.named (target : String) (d : Document) : List Occurrence :=
  d.occurrences.filter (·.tag.name = target)

/-- The nodes of the outline of a document tell of its elements. -/
lemma Document.Built.flatten_outline_perm {d : Document} (h : d.Built) :
    (d.outline.flatten.map Node.tag).Perm (d.occurrences.map Occurrence.tag) := by
  have hpriority : (d.scope.map Element.toNode).kindsByPriority.Perm d.scope.kinds := by
    have hperm := (d.scope.map Element.toNode).isStableSort_kindsByPriority.perm
    rwa [Scope.kinds_map] at hperm
  exact h.distinct.flattenGroups_perm (hpriority.nodup_iff.2 h.distinct.kinds)
    hpriority.symm.subset []

/-- **A search finds every node of the name.** In any outline it finds the nodes of the name among
all nodes, in their order and as often as they stand there. In the outline of a document that
operations build, these tell of the elements of the name at all depths and are as many.

**Proof sketch.** The search and the listing go down the outline in the same way
(`Node.find_eq_filter`). The listing of the outline of a document tells of each of its elements
once, so the nodes of a name tell of the elements of this name. -/
theorem Outline.find_complete (target : String) :
    (∀ o : Outline, o.find target = o.flatten.filter (·.name = target))
      ∧ ∀ d : Document, d.Built →
        ((d.outline.find target).map Node.tag).Perm ((d.named target).map Occurrence.tag)
          ∧ (d.outline.find target).length = (d.named target).length := by
  refine ⟨Outline.find_eq_filter target, fun d hd => ?_⟩
  have hfound : (d.outline.find target).map Node.tag
      = (d.outline.flatten.map Node.tag).filter (·.name = target) := by
    rw [Outline.find_eq_filter, List.filter_map]
    rfl
  have hnamed : (d.named target).map Occurrence.tag
      = (d.occurrences.map Occurrence.tag).filter (·.name = target) := by
    rw [Document.named, List.filter_map]
    rfl
  have hperm : ((d.outline.find target).map Node.tag).Perm
      ((d.named target).map Occurrence.tag) := by
    rw [hfound, hnamed]
    exact hd.flatten_outline_perm.filter _
  refine ⟨hperm, ?_⟩
  have hlength := hperm.length_eq
  rwa [List.length_map, List.length_map] at hlength

/-- A class whose method has its name, beside a function of this name. -/
def Document.homonymous : Document :=
  let outer := (Class.empty ⟨"A", 0, .classes, none⟩).add .methods (.leaf ⟨"A", 1, .methods, none⟩)
  (({} : Document).addFunction ⟨"A", 3, .functions, none⟩).addClass outer

/-- A node below a node of its name is found. -/
theorem Outline.find_complete_homonymous :
    Document.homonymous.Built
      ∧ (Document.homonymous.outline.find "A").length = (Document.homonymous.named "A").length
      ∧ (Document.homonymous.named "A").length = 3 := by
  have hbuilt : Document.homonymous.Built :=
    .addClass (.add _ .empty (.leaf _)) (.add _ (.empty _) (.leaf _))
  exact ⟨hbuilt, ((Outline.find_complete "A").2 _ hbuilt).2, by decide⟩

end Outliner
