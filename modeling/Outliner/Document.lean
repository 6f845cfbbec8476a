import Outliner.Element

set_option autoImplicit false

/-!
# Documents

A document is the scope of a whole source text. It also remembers the class that was added last, by
its place among the classes, so that members met later can still be filed in it, until it is told to
forget it. Other elements may be filed with the classes too; they move no place, since items are
only ever appended.

## Main definitions

* `Outliner.Document` — the top scope and the place of the last class.
* `Outliner.Document.addClass`, `Outliner.Document.lastClass?`, `Outliner.Document.modifyLastClass`,
  `Outliner.Document.forgetLastClass` — the last class.
* `Outliner.Document.classNamed?`, `Outliner.Document.modifyClassNamed` — the first class of a name.

## Main results

* `Outliner.Document.lastClass?_addClass` — a class just added is the last one.
-/

namespace Outliner

/-- The outline under construction of a whole source text. -/
structure Document where
  /-- The top-level elements. -/
  scope : Scope Element := {}
  /-- The place among the classes of the class added last, unless it was forgotten. -/
  lastClassIndex : Option Nat := none

namespace Document

/-! ## Changing -/

/-- Adds a top-level element under a kind. -/
def add (kind : Kind) (element : Element) (d : Document) : Document :=
  { d with scope := d.scope.add kind element }

/-- Adds a top-level function. -/
def addFunction (tag : Tag) (d : Document) : Document := d.add .functions (.leaf tag)

/-- Adds a top-level variable. -/
def addVariable (tag : Tag) (d : Document) : Document := d.add .vars (.leaf tag)

/-- Adds a class and remembers it as the last one. -/
def addClass (c : Class) (d : Document) : Document :=
  { scope := d.scope.add .classes (.ofClass c)
    lastClassIndex := some (d.scope.get .classes).length }

/-- Forgets which class was added last. -/
def forgetLastClass (d : Document) : Document := { d with lastClassIndex := none }

/-- Sets the description of a kind. -/
def describe (kind : Kind) (description : String) (d : Document) : Document :=
  { d with scope := d.scope.describe kind description }

/-- Sets the display priority of a kind. -/
def prioritise (kind : Kind) (priority : Int) (d : Document) : Document :=
  { d with scope := d.scope.prioritise kind priority }

/-- Applies a change to the class at a place among the classes. -/
def modifyClassAt (index : Nat) (change : Class → Class) (d : Document) : Document :=
  { d with scope := d.scope.modifyAt .classes index (Element.modifyClass change) }

/-- Applies a change to the class added last, if one is remembered. -/
def modifyLastClass (change : Class → Class) (d : Document) : Document :=
  match d.lastClassIndex with
  | some index => d.modifyClassAt index change
  | none => d

/-- Whether the element is a class of this name. -/
def isClassNamed (name : String) (e : Element) : Bool := e.class?.any (·.name == name)

/-- The place among the classes of the first class of this name. -/
def classIndex? (name : String) (d : Document) : Option Nat :=
  (d.scope.get .classes).findIdx? (isClassNamed name)

/-- Applies a change to the first class of this name, if there is one. -/
def modifyClassNamed (name : String) (change : Class → Class) (d : Document) : Document :=
  match d.classIndex? name with
  | some index => d.modifyClassAt index change
  | none => d

/-! ## Asking -/

/-- The class added last, unless it was forgotten. -/
def lastClass? (d : Document) : Option Class :=
  d.lastClassIndex.bind fun index => (d.scope.get .classes)[index]?.bind Element.class?

/-- The first class of this name. -/
def classNamed? (name : String) (d : Document) : Option Class :=
  ((d.scope.get .classes).filterMap Element.class?).find? (·.name == name)

/-- The top-level functions in the order of their names. -/
def functions (d : Document) : List Element := d.scope.sorted .functions

/-- The top-level variables in the order of their names. -/
def vars (d : Document) : List Element := d.scope.sorted .vars

/-- The classes in the order of their names; leaves filed with them are left out. -/
def classes (d : Document) : List Class :=
  Named.sort ((d.scope.get .classes).filterMap Element.class?)

/-- The top-level elements of a kind, in the order in which they were added. -/
def get (kind : Kind) (d : Document) : List Element := d.scope.get kind

/-- Whether there is a top-level element of this kind and name. -/
def contains (kind : Kind) (name : String) (d : Document) : Bool := d.scope.contains kind name

/-- The top-level groups as they are shown. -/
def elements (d : Document) : List (Heading Element) := d.scope.byPriority

/-- Whether there is no element. -/
def isEmpty (d : Document) : Bool := d.scope.isEmpty

/-- The number of elements at all depths. -/
def count (d : Document) : Nat := d.scope.count

/-- A class that is added is the last class. -/
theorem lastClass?_addClass (c : Class) (d : Document) : (d.addClass c).lastClass? = some c := by
  simp [lastClass?, addClass, Scope.get_add]

end Document

end Outliner
