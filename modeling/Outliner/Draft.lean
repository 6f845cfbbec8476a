import Outliner.Document

set_option autoImplicit false

/-!
# Marks and drafts

Reading a source does not build a document directly. It says what it meets, as a list of marks; a
draft is what the marks seen so far make: a document together with the classes that are still open,
the innermost one first. An open class is filed when it is left, so it stands where its end was met.
At the end of a source all open classes are left.

What a document looks like therefore depends on the marks of its source alone, and a source cut
short gives the first marks of the whole one.

## Main definitions

* `Outliner.Mark` — what can be met.
* `Outliner.Draft`, `Outliner.Draft.mark` — the document under construction and what a mark does to
  it.
* `Outliner.Legend` — the descriptions and priorities with which a document begins.
* `Outliner.Document.ofMarks` — the document that a list of marks makes.

## Main results

* `Outliner.Draft.marks_append` — marks are taken one after the other.
-/

namespace Outliner

/-- The header of a class: how it is known, where it is filed, and what its members are called. -/
structure Header where
  /-- The kind under which the class is filed. -/
  group : Kind
  /-- What is known of the class itself. -/
  tag : Tag
  /-- Descriptions of kinds of members, beside the usual ones. -/
  labels : List (Kind × String) := []

/-- The class that begins with the header, still without members. -/
def Header.toClass (header : Header) : Class :=
  header.labels.foldl (fun c label => c.modifyMembers (·.describe label.1 label.2))
    (.empty header.tag)

/-- What is met in a source. -/
inductive Mark where
  /-- An element without members, in the innermost open class or else at the top. -/
  | leaf (kind : Kind) (name : String) (line : Nat)
  /-- An element without members at the top, whatever is open. -/
  | atTop (kind : Kind) (name : String) (line : Nat)
  /-- An element without members at the top, unless one of its kind and name is there already. -/
  | once (kind : Kind) (name : String) (line : Nat)
  /-- The beginning of a class. -/
  | enter (header : Header)
  /-- The end of the innermost open class. Where none is open, it means nothing. -/
  | leave
  /-- The end of the part of the source that belongs to the last class. -/
  | forget
  /-- A method of the class `owner`, which begins with its first method. -/
  | method (owner name : String) (line : Nat)
  /-- An element without members that names its owner: it belongs to the first class of that name at
  the top, under the first kind, and if there is none it is an element like any other, under the
  second kind. -/
  | qualified (owner : String) (owned free : Kind) (name : String) (line : Nat)
deriving Inhabited

/-- A class that is still open, and the kind under which it will be filed. -/
structure OpenClass where
  /-- The kind under which the class will be filed. -/
  group : Kind
  /-- The class with the members met so far. -/
  body : Class

/-- A document under construction and the classes still open, the innermost one first. -/
structure Draft where
  /-- What is filed already. -/
  document : Document := {}
  /-- The classes still open. -/
  opened : List OpenClass := []

namespace Draft

/-- Files an element in the innermost open class, or else at the top. -/
def file (kind : Kind) (element : Element) (d : Draft) : Draft :=
  match d.opened with
  | [] => { d with document := d.document.add kind element }
  | innermost :: outer =>
    { d with opened := { innermost with body := innermost.body.add kind element } :: outer }

/-- Leaves the innermost open class. It becomes a member of the class around it; at the top it
becomes the last class if it is filed with the classes. -/
def leave (d : Draft) : Draft :=
  match d.opened with
  | [] => d
  | [innermost] =>
    { document :=
        if innermost.group = .classes then d.document.addClass innermost.body
        else d.document.add innermost.group (.ofClass innermost.body) }
  | innermost :: outer => { d with opened := outer }.file innermost.group (.ofClass innermost.body)

/-- An element without members. -/
def leafOf (kind : Kind) (name : String) (line : Nat) : Element :=
  .leaf { name := name, line := line, kind := kind }

/-- What a mark does. -/
def mark (d : Draft) : Mark → Draft
  | .leaf kind name line => d.file kind (leafOf kind name line)
  | .atTop kind name line => { d with document := d.document.add kind (leafOf kind name line) }
  | .once kind name line =>
    if d.document.contains kind name then d
    else { d with document := d.document.add kind (leafOf kind name line) }
  | .enter header => { d with opened := ⟨header.group, header.toClass⟩ :: d.opened }
  | .leave => d.leave
  | .forget => { d with document := d.document.forgetLastClass }
  | .method owner name line =>
    let owned :=
      if (d.document.classNamed? owner).isSome then d.document
      else d.document.addClass (.empty { name := owner, line := line, kind := .classes })
    { d with document := owned.modifyClassNamed owner (·.add .methods (leafOf .methods name line)) }
  | .qualified owner owned free name line =>
    if (d.document.classNamed? owner).isSome then
      let member := leafOf owned name line
      { d with document := d.document.modifyClassNamed owner (·.add owned member) }
    else d.file free (leafOf free name line)

/-- What a list of marks does. -/
def marks (d : Draft) (list : List Mark) : Draft := list.foldl mark d

/-- The document at the end of the source: all open classes are left. -/
def finish (d : Draft) : Document :=
  (d.marks (List.replicate d.opened.length .leave)).document

/-- No marks change nothing. -/
@[simp] theorem marks_nil (d : Draft) : d.marks [] = d := rfl

/-- Marks are made one after the other. -/
@[simp] theorem marks_cons (d : Draft) (m : Mark) (list : List Mark) :
    d.marks (m :: list) = (d.mark m).marks list := rfl

/-- Marks are made in two parts as they are made at once. -/
theorem marks_append (d : Draft) (a b : List Mark) : d.marks (a ++ b) = (d.marks a).marks b := by
  simp [marks]

/-- Leaving closes one element, if any is open. -/
theorem length_opened_leave (d : Draft) : d.leave.opened.length = d.opened.length - 1 := by
  unfold leave
  split
  · simp_all
  · simp_all
  · next innermost outer h opened =>
    cases outer with
    | nil => simp at h
    | cons next outer => simp [file, opened]

end Draft

/-- How a kind is shown in the documents of a language. -/
structure LegendEntry where
  /-- The kind. -/
  kind : Kind
  /-- What it is called. -/
  description : String
  /-- Its display priority. -/
  priority : Int := 0

/-- How the kinds are shown in the documents of a language. -/
abbrev Legend := List LegendEntry

/-- The empty document that shows kinds as the legend says. -/
def Document.withLegend (legend : Legend) : Document :=
  legend.foldl
    (fun d entry =>
      (d.describe entry.kind entry.description).prioritise entry.kind entry.priority)
    {}

/-- The document that the marks make. -/
def Document.ofMarks (legend : Legend) (list : List Mark) : Document :=
  (Draft.marks { document := .withLegend legend } list).finish

end Outliner
