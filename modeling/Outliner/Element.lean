import Outliner.Scope

set_option autoImplicit false

/-!
# Elements

An element is a named construct of a source text: a leaf, or a branch that has members in a scope of
its own. A class is what a branch is made from: its tag and its members. Elements are compared by
name alone, whatever their kinds, places and members.

## Main definitions

* `Outliner.Tag` — what is known of a construct by itself: its name, line, kind and enclosing class.
* `Outliner.Element` — a leaf or a branch.
* `Outliner.Class` — a tag with members, not yet filed as a branch.
* `Outliner.Element.count` — the number of elements in the tree below and with an element.
* `Outliner.Class.add` — filing a member, which learns the name of its class.

## Main results

* `Outliner.Element.count_branch` — a branch counts one more than its members.
-/

namespace Outliner

/-- What is known of a construct by itself. -/
structure Tag where
  /-- The name as it stands in the source. -/
  name : String
  /-- The line on which the construct begins, counted from zero. -/
  line : Nat
  /-- The kind of construct. -/
  kind : Kind
  /-- The name of the class that holds it, if one does. -/
  scope : Option String := none
deriving DecidableEq, Repr

/-- A named construct: a leaf, or a branch with members. -/
inductive Element where
  /-- A construct without members. -/
  | leaf (tag : Tag)
  /-- A construct with a scope of its own. -/
  | branch (tag : Tag) (members : Scope Element)

/-- A tag with members: what a branch is made from. -/
structure Class where
  /-- What is known of the class itself. -/
  tag : Tag
  /-- What the class holds. -/
  members : Scope Element

namespace Element

/-- What is known of the element itself. -/
def tag : Element → Tag
  | leaf tag => tag
  | branch tag _ => tag

/-- The name of the element. -/
def name (e : Element) : String := e.tag.name

instance : Named Element := ⟨name⟩

/-- How two elements compare: as their names do. -/
def compare (a b : Element) : Ordering :=
  if a.name = b.name then .eq else if a.name < b.name then .lt else .gt

/-- The same element, known to belong to the class of this name unless it already belongs to one. -/
def withinScope (scope : String) : Element → Element
  | leaf tag => leaf { tag with scope := some (tag.scope.getD scope) }
  | branch tag members => branch { tag with scope := some (tag.scope.getD scope) } members

/-- The class that a branch was made from. -/
def class? : Element → Option Class
  | leaf _ => none
  | branch tag members => some ⟨tag, members⟩

/-- A class as an element. -/
def ofClass (c : Class) : Element := branch c.tag c.members

/-- Applies a change to the class that a branch was made from. A leaf stays as it is. -/
def modifyClass (change : Class → Class) : Element → Element
  | leaf tag => leaf tag
  | branch tag members => ofClass (change ⟨tag, members⟩)

mutual

/-- The number of elements in the tree that the element is the root of. -/
def count : Element → Nat
  | leaf _ => 1
  | branch _ ⟨groups, _, _⟩ => 1 + countGroups groups

/-- The number of elements in the trees of the groups. -/
def countGroups : List (Group Element) → Nat
  | [] => 0
  | ⟨_, items⟩ :: groups => countItems items + countGroups groups

/-- The number of elements in the trees of the list. -/
def countItems : List Element → Nat
  | [] => 0
  | e :: items => e.count + countItems items

end

end Element

/-- The number of elements in a scope, members of members included. -/
def Scope.count (s : Scope Element) : Nat := Element.countGroups s.groups

namespace Element

/-- An element without members counts once. -/
@[simp] theorem count_leaf (tag : Tag) : (leaf tag).count = 1 := by rw [count]

/-- An element with members counts for itself and for them. -/
@[simp] theorem count_branch (tag : Tag) (members : Scope Element) :
    (branch tag members).count = 1 + members.count := by
  rw [count, Scope.count]

end Element

namespace Class

/-- The name of the class. -/
def name (c : Class) : String := c.tag.name

instance : Named Class := ⟨name⟩

/-- A class without members. Its variables and methods are called what they are usually called. -/
def empty (tag : Tag) : Class :=
  ⟨tag, (({} : Scope Element).describe .vars "Class Variables").describe .methods "Methods"⟩

/-- Files a member under a kind. A member that belongs to no class yet belongs to this one. -/
def add (kind : Kind) (member : Element) (c : Class) : Class :=
  { c with members := c.members.add kind (member.withinScope c.name) }

/-- The class under another name. Members that know the old name keep it. -/
def rename (name : String) (c : Class) : Class :=
  { c with tag := { c.tag with name := name } }

/-- Applies a change to the members. -/
def modifyMembers (change : Scope Element → Scope Element) (c : Class) : Class :=
  { c with members := change c.members }

/-- The groups of members as they are shown. -/
def elements (c : Class) : List (Heading Element) := c.members.byRole

end Class

/-- An element made of a class is that class. -/
@[simp] theorem Element.class?_ofClass (c : Class) : (Element.ofClass c).class? = some c := rfl

end Outliner
