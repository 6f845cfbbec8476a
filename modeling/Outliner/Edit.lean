import Outliner.Document

set_option autoImplicit false

/-!
# Edits

The changes that a document, a class and a scope admit, as data. A history is a list of edits, and
what can be reached from an empty document is what some history makes of it. Edits of members lie
inside edits of their class, to any depth.

## Main definitions

* `Outliner.ScopeEdit`, `Outliner.ClassEdit`, `Outliner.DocumentEdit` — single changes.
* `Outliner.ScopeEdit.apply`, `Outliner.ClassEdit.apply`, `Outliner.DocumentEdit.apply` — what they
  do.
* `Outliner.Document.ofHistory` — the document that a list of edits makes.
-/

namespace Outliner

/-- The items whose name differs from that of the item kept before them, beginning after `kept`. -/
def Named.dedupAfter {α : Type} [Named α] (kept : α) : List α → List α
  | [] => []
  | a :: items =>
    if Named.name a = Named.name kept then Named.dedupAfter kept items
    else a :: Named.dedupAfter a items

/-- The first item of each run of items of one name. -/
def Named.dedupRuns {α : Type} [Named α] : List α → List α
  | [] => []
  | a :: items => a :: Named.dedupAfter a items

mutual

/-- A change of a scope. -/
inductive ScopeEdit where
  /-- Adds an element under a kind. -/
  | add (kind : Kind) (element : Element)
  /-- Sets the description of a kind. -/
  | describe (kind : Kind) (description : String)
  /-- Sets the priority of a kind. -/
  | prioritise (kind : Kind) (priority : Int)
  /-- Removes the last element of a kind. -/
  | pop (kind : Kind)
  /-- Removes all elements of a kind. -/
  | clear (kind : Kind)
  /-- Removes the elements of a kind that have the name of the element before them. -/
  | dedup (kind : Kind)
  /-- Changes the class at a place of a kind. -/
  | within (kind : Kind) (index : Nat) (edit : ClassEdit)

/-- A change of a class. -/
inductive ClassEdit where
  /-- Files a member under a kind. -/
  | add (kind : Kind) (member : Element)
  /-- Changes the name. -/
  | rename (name : String)
  /-- Changes the scope of the members. -/
  | members (edit : ScopeEdit)

end

mutual

/-- The scope after the change. -/
def ScopeEdit.apply : ScopeEdit → Scope Element → Scope Element
  | .add kind element, s => s.add kind element
  | .describe kind description, s => s.describe kind description
  | .prioritise kind priority, s => s.prioritise kind priority
  | .pop kind, s => s.modify kind List.dropLast
  | .clear kind, s => s.modify kind fun _ => []
  | .dedup kind, s => s.modify kind Named.dedupRuns
  | .within kind index edit, s => s.modifyAt kind index (Element.modifyClass edit.apply)

/-- The class after the change. -/
def ClassEdit.apply : ClassEdit → Class → Class
  | .add kind member, c => c.add kind member
  | .rename name, c => c.rename name
  | .members edit, c => c.modifyMembers edit.apply

end

/-- A change of a document. -/
inductive DocumentEdit where
  /-- Adds a top-level element under a kind. -/
  | add (kind : Kind) (element : Element)
  /-- Adds a class and remembers it. -/
  | addClass (c : Class)
  /-- Sets the description of a kind. -/
  | describe (kind : Kind) (description : String)
  /-- Sets the priority of a kind. -/
  | prioritise (kind : Kind) (priority : Int)
  /-- Forgets the last class. -/
  | forgetLastClass
  /-- Changes the last class. -/
  | lastClass (edit : ClassEdit)
  /-- Changes the first class of a name. -/
  | classNamed (name : String) (edit : ClassEdit)

/-- The document after the change. -/
def DocumentEdit.apply : DocumentEdit → Document → Document
  | add kind element, d => d.add kind element
  | addClass c, d => d.addClass c
  | describe kind description, d => d.describe kind description
  | prioritise kind priority, d => d.prioritise kind priority
  | forgetLastClass, d => d.forgetLastClass
  | lastClass edit, d => d.modifyLastClass edit.apply
  | classNamed name edit, d => d.modifyClassNamed name edit.apply

/-- The scope that a list of edits makes of another one. -/
def Scope.edit (edits : List ScopeEdit) (s : Scope Element) : Scope Element :=
  edits.foldl (fun s edit => edit.apply s) s

/-- The class that a list of edits makes of another one. -/
def Class.edit (edits : List ClassEdit) (c : Class) : Class :=
  edits.foldl (fun c edit => edit.apply c) c

/-- The document that a list of edits makes, beginning with the empty one. -/
def Document.ofHistory (edits : List DocumentEdit) : Document :=
  edits.foldl (fun d edit => edit.apply d) {}

end Outliner
