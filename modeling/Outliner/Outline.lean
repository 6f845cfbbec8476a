import Outliner.Document

set_option autoImplicit false

/-!
# Outlines

An outline is a document as it is shown: groups with their headings in display order, items in the
order of their names, and below each item the groups of its members. It no longer knows in which
order anything was added.

## Main definitions

* `Outliner.Node` — an element as it is shown.
* `Outliner.Outline` — the headings at the top.
* `Outliner.Document.outline` — the outline of a document.
* `Outliner.Outline.flatten`, `Outliner.Outline.find` — all nodes and the nodes of a name, each node
  before the nodes below it.

## Main results

* `Outliner.Element.toNode_branch` — what is shown below a class are its members by role.
-/

namespace Outliner

/-- An element as it is shown. -/
structure Node where
  /-- The name of the element. -/
  name : String
  /-- The kind of the element. -/
  kind : Kind
  /-- The line on which it begins, counted from zero. -/
  line : Nat
  /-- The name of the class that holds it. -/
  scope : Option String
  /-- The groups of its members. -/
  groups : List (Heading Node)

instance : Named Node := ⟨Node.name⟩

/-- What the items of the group are called: the description, or the key of the kind if there is
none. -/
def Heading.label {α : Type} (heading : Heading α) : String :=
  heading.description.getD heading.kind.key

/-- A document as it is shown. -/
structure Outline where
  /-- The groups at the top, in display order. -/
  groups : List (Heading Node)

/-- A tag as a node with these groups below it. -/
def Tag.toNode (tag : Tag) (groups : List (Heading Node)) : Node :=
  ⟨tag.name, tag.kind, tag.line, tag.scope, groups⟩

namespace Element

mutual

/-- An element as it is shown. -/
def toNode : Element → Node
  | leaf tag => tag.toNode []
  | branch tag ⟨groups, descriptions, priorities⟩ =>
    tag.toNode (Scope.byRole ⟨toNodeGroups groups, descriptions, priorities⟩)

/-- The groups with each element as it is shown. -/
def toNodeGroups : List (Group Element) → List (Group Node)
  | [] => []
  | ⟨kind, items⟩ :: groups => ⟨kind, toNodes items⟩ :: toNodeGroups groups

/-- The elements as they are shown. -/
def toNodes : List Element → List Node
  | [] => []
  | e :: items => e.toNode :: toNodes items

end

/-- The nodes of several elements are the nodes of each. -/
theorem toNodes_eq_map (items : List Element) : toNodes items = items.map toNode := by
  induction items with
  | nil => simp [toNodes]
  | cons e items ih => simp [toNodes, ih]

/-- The groups of nodes are made group by group. -/
theorem toNodeGroups_eq_map (groups : List (Group Element)) :
    toNodeGroups groups = groups.map fun group => ⟨group.kind, group.items.map toNode⟩ := by
  induction groups with
  | nil => simp [toNodeGroups]
  | cons group groups ih => simp [toNodeGroups, ih, toNodes_eq_map]

/-- An element without members becomes a node without groups. -/
@[simp] theorem toNode_leaf (tag : Tag) : (leaf tag).toNode = tag.toNode [] := by rw [toNode]

/-- The members of an element are shown by their roles. -/
@[simp] theorem toNode_branch (tag : Tag) (members : Scope Element) :
    (branch tag members).toNode = tag.toNode (members.map toNode).byRole := by
  rw [toNode, toNodeGroups_eq_map, Scope.map]

end Element

/-- The outline of a document. -/
def Document.outline (d : Document) : Outline := ⟨(d.scope.map Element.toNode).byPriority⟩

namespace Node

mutual

/-- The node and all nodes below it, each before the nodes below it. -/
def flatten : Node → List Node
  | ⟨name, kind, line, scope, groups⟩ => ⟨name, kind, line, scope, groups⟩ :: flattenGroups groups

/-- All nodes of the groups. -/
def flattenGroups : List (Heading Node) → List Node
  | [] => []
  | ⟨_, _, _, items⟩ :: groups => flattenItems items ++ flattenGroups groups

/-- All nodes of the list. -/
def flattenItems : List Node → List Node
  | [] => []
  | n :: items => n.flatten ++ flattenItems items

end

mutual

/-- The nodes of this name among the node and all nodes below it, each before the nodes below it. -/
def find (target : String) : Node → List Node
  | ⟨name, kind, line, scope, groups⟩ =>
    if name = target then ⟨name, kind, line, scope, groups⟩ :: findGroups target groups
    else findGroups target groups

/-- The nodes of this name in the groups. -/
def findGroups (target : String) : List (Heading Node) → List Node
  | [] => []
  | ⟨_, _, _, items⟩ :: groups => findItems target items ++ findGroups target groups

/-- The nodes of this name in the list. -/
def findItems (target : String) : List Node → List Node
  | [] => []
  | n :: items => n.find target ++ findItems target items

end

end Node

namespace Outline

/-- All nodes, each before the nodes below it. -/
def flatten (o : Outline) : List Node := Node.flattenGroups o.groups

/-- The nodes of this name, each before the nodes below it. -/
def find (target : String) (o : Outline) : List Node := Node.findGroups target o.groups

/-- Whether no group at the top has an item. -/
def isEmpty (o : Outline) : Bool := o.groups.all (·.items.isEmpty)

/-- The number of nodes at the top. -/
def topLevelCount (o : Outline) : Nat := (o.groups.flatMap (·.items)).length

end Outline

end Outliner
