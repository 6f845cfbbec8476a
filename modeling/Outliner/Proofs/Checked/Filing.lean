import Outliner.Proofs.Checked
import Outliner.Proofs.Filing

set_option autoImplicit false

/-!
# Filing with checks

A program that files an item at the end of its group takes one from the number of items there, which
is the place of the item. This is a difference, and here are the marks of a source as a program
takes them that checks it. Since the item is there already, nothing goes wrong.

## Main definitions

* `Outliner.Scope.push` — the program that files an item and tells its place.
* `Outliner.Draft.runMark` — the program that takes a mark.
* `Outliner.Document.runMarks` — the program that makes a document of marks.

## Main results

* `Outliner.Scope.push_eq` — a place is the number of items that were there before.
* `Outliner.Document.runMarks_eq` — nothing goes wrong.
-/

namespace Outliner

open Checked

/-! ## Scopes and classes -/

namespace Scope

variable {α : Type}

/-- Files an item and tells its place among the items of its kind. -/
def push (kind : Kind) (item : α) (s : Scope α) : Run (Scope α × Nat) := do
  let filed := s.add kind item
  return (filed, ← minus (filed.get kind).length 1)

/-- The place of an item is the number of items that were there before. -/
theorem push_eq (kind : Kind) (item : α) (s : Scope α) :
    s.push kind item = .ok (s.add kind item, (s.get kind).length) := by
  have hlength : ((s.add kind item).get kind).length = (s.get kind).length + 1 := by
    rw [get_add, if_pos rfl, List.length_append, List.length_singleton]
  rw [push, hlength, minus_of_le (Nat.le_add_left 1 _), Nat.add_sub_cancel]
  rfl

/-- Changes that do the same to an item do the same to the scope that holds it.

**Proof sketch.** Induction on the groups, up to the one of the kind. There only the item at the
index is changed, and both changes make the same of it. -/
lemma modifyAt_congr {s : Scope α} {kind : Kind} {index : Nat} {item : α} {change change' : α → α}
    (hitem : (s.get kind)[index]? = some item) (h : change item = change' item) :
    s.modifyAt kind index change = s.modifyAt kind index change' := by
  obtain ⟨groups, descriptions, priorities⟩ := s
  have hgroups : Group.revise kind (List.modify · index change) groups
      = Group.revise kind (List.modify · index change') groups := by
    simp only [get, group?] at hitem
    induction groups with
    | nil => rfl
    | cons group groups ih =>
      rw [Group.revise, Group.revise]
      by_cases hkind : group.kind = kind
      · have hhere : group.items[index]? = some item := by simpa [hkind] using hitem
        rw [if_pos hkind, if_pos hkind, List.modify_eq_set_getElem?, List.modify_eq_set_getElem?,
          hhere, Option.map_eq_map, Option.map_eq_map, Option.map_some, Option.map_some, h]
      · rw [if_neg hkind, if_neg hkind, ih (by simpa [hkind] using hitem)]
  rw [modifyAt, modifyAt, modify, modify, hgroups]

end Scope

/-- Files a member of a class. -/
def Class.runAdd (kind : Kind) (member : Element) (c : Class) : Run Class := do
  let (members, _) ← c.members.push kind (member.withinScope c.name)
  return { c with members := members }

/-- Filing a member in a class goes well. -/
lemma Class.runAdd_eq (kind : Kind) (member : Element) (c : Class) :
    c.runAdd kind member = .ok (c.add kind member) := by
  rw [runAdd, Scope.push_eq]
  rfl

/-! ## Documents -/

namespace Document

/-- Files an element at the top. -/
def runAdd (kind : Kind) (element : Element) (d : Document) : Run Document := do
  let (scope, _) ← d.scope.push kind element
  return { d with scope := scope }

/-- Files a class and remembers it as the last one, by the place at which it was filed. -/
def runAddClass (c : Class) (d : Document) : Run Document := do
  let (scope, index) ← d.scope.push .classes (.ofClass c)
  return { scope := scope, lastClassIndex := some index }

/-- Files a member of the first class of a name, if there is one. -/
def runAddMember (owner : String) (kind : Kind) (member : Element) (d : Document) :
    Run Document :=
  match d.classNamed? owner with
  | none => return d
  | some c => do
    let grown ← c.runAdd kind member
    return d.modifyClassNamed owner fun _ => grown

/-- Filing an element in a document goes well. -/
lemma runAdd_eq (kind : Kind) (element : Element) (d : Document) :
    d.runAdd kind element = .ok (d.add kind element) := by
  rw [runAdd, Scope.push_eq]
  rfl

/-- So does filing a class. -/
lemma runAddClass_eq (c : Class) (d : Document) : d.runAddClass c = .ok (d.addClass c) := by
  rw [runAddClass, Scope.push_eq]
  rfl

/-- To change the first class of a name is to put another class in its place. -/
lemma modifyClassNamed_const {name : String} {d : Document} {c : Class}
    (h : d.classNamed? name = some c) (change : Class → Class) :
    d.modifyClassNamed name (fun _ => change c) = d.modifyClassNamed name change := by
  obtain ⟨index, hindex, hclass⟩ := classIndex?_of_classNamed? h
  have hscope : d.scope.modifyAt .classes index (Element.modifyClass fun _ => change c)
      = d.scope.modifyAt .classes index (Element.modifyClass change) :=
    Scope.modifyAt_congr hclass rfl
  rw [modifyClassNamed, modifyClassNamed, hindex]
  dsimp only
  rw [modifyClassAt, modifyClassAt, hscope]

/-- Filing a member in a class that is there goes well. -/
lemma runAddMember_eq {owner : String} {d : Document} (h : (d.classNamed? owner).isSome)
    (kind : Kind) (member : Element) :
    d.runAddMember owner kind member = .ok (d.modifyClassNamed owner (·.add kind member)) := by
  obtain ⟨c, hc⟩ := Option.isSome_iff_exists.1 h
  rw [runAddMember, hc]
  dsimp only
  rw [Class.runAdd_eq, ok_bind, modifyClassNamed_const hc]
  rfl

end Document

/-! ## Marks -/

namespace Draft

/-- Files an element in the innermost open class, or else at the top. -/
def runFile (kind : Kind) (element : Element) (d : Draft) : Run Draft :=
  match d.opened with
  | [] => return { d with document := ← d.document.runAdd kind element }
  | innermost :: outer => do
    let grown ← innermost.body.runAdd kind element
    return { d with opened := { innermost with body := grown } :: outer }

/-- Leaves the innermost open class. -/
def runLeave (d : Draft) : Run Draft :=
  match d.opened with
  | [] => return d
  | [innermost] =>
    if innermost.group = .classes then
      return { document := ← d.document.runAddClass innermost.body }
    else return { document := ← d.document.runAdd innermost.group (.ofClass innermost.body) }
  | innermost :: outer =>
    { d with opened := outer }.runFile innermost.group (.ofClass innermost.body)

/-- What a mark does. -/
def runMark (d : Draft) : Mark → Run Draft
  | .leaf kind name line => d.runFile kind (leafOf kind name line)
  | .atTop kind name line =>
    return { d with document := ← d.document.runAdd kind (leafOf kind name line) }
  | .once kind name line =>
    if d.document.contains kind name then return d
    else return { d with document := ← d.document.runAdd kind (leafOf kind name line) }
  | .enter header => return { d with opened := ⟨header.group, header.toClass⟩ :: d.opened }
  | .leave => d.runLeave
  | .forget => return { d with document := d.document.forgetLastClass }
  | .method owner name line => do
    let owned ←
      if (d.document.classNamed? owner).isSome then pure d.document
      else d.document.runAddClass (.empty { name := owner, line := line, kind := .classes })
    return { d with document := ← owned.runAddMember owner .methods (leafOf .methods name line) }
  | .qualified owner owned free name line =>
    if (d.document.classNamed? owner).isSome then
      return { d with document := ← d.document.runAddMember owner owned (leafOf owned name line) }
    else d.runFile free (leafOf free name line)

/-- What a list of marks does. -/
def runMarks (d : Draft) : List Mark → Run Draft
  | [] => return d
  | m :: list => do runMarks (← d.runMark m) list

/-- Filing an element in a draft goes well. -/
lemma runFile_eq (kind : Kind) (element : Element) (d : Draft) :
    d.runFile kind element = .ok (d.file kind element) := by
  rw [runFile, file]
  cases d.opened with
  | nil =>
    dsimp only
    rw [Document.runAdd_eq]
    rfl
  | cons innermost outer =>
    dsimp only
    rw [Class.runAdd_eq]
    rfl

/-- Leaving goes well. -/
lemma runLeave_eq (d : Draft) : d.runLeave = .ok d.leave := by
  rw [runLeave, leave]
  cases d.opened with
  | nil => rfl
  | cons innermost outer =>
    cases outer with
    | nil =>
      dsimp only
      rw [Document.runAddClass_eq, Document.runAdd_eq]
      split
      · rfl
      · rfl
    | cons next outer => exact runFile_eq _ _ _

/-- **Nothing goes wrong when a mark is taken.**

**Proof sketch.** Case by case, each mark takes the steps for which this was shown. A method that is
declared outside its class finds the class that was just added for it. -/
theorem runMark_eq (d : Draft) (m : Mark) : d.runMark m = .ok (d.mark m) := by
  cases m with
  | leaf kind name line => exact runFile_eq _ _ _
  | atTop kind name line =>
    rw [runMark, Document.runAdd_eq]
    rfl
  | once kind name line =>
    rw [runMark, mark, Document.runAdd_eq]
    split
    · rfl
    · rfl
  | enter header => rfl
  | leave => exact runLeave_eq d
  | forget => rfl
  | method owner name line =>
    rw [runMark, mark, Document.runAddClass_eq]
    dsimp only
    split
    · next hclass =>
      rw [pure_eq_ok, ok_bind, Document.runAddMember_eq hclass]
      rfl
    · have hclass := classNamed?_addClass
        (.empty { name := owner, line := line, kind := .classes }) d.document
      change (Document.classNamed? owner _).isSome = true at hclass
      rw [ok_bind, Document.runAddMember_eq hclass]
      rfl
  | qualified owner owned free name line =>
    rw [runMark, mark]
    split
    · next hclass =>
      rw [Document.runAddMember_eq hclass]
      rfl
    · exact runFile_eq _ _ _

/-- Nothing goes wrong when marks are taken one after the other. -/
lemma runMarks_eq (d : Draft) (list : List Mark) : d.runMarks list = .ok (d.marks list) := by
  induction list generalizing d with
  | nil => rfl
  | cons m list ih =>
    rw [runMarks, runMark_eq, ok_bind, ih]
    rfl

end Draft

namespace Document

/-- The document that the marks make. At the end all open classes are left. -/
def runMarks (legend : Legend) (list : List Mark) : Run Document := do
  let draft ← Draft.runMarks { document := .withLegend legend } list
  let closed ← draft.runMarks (List.replicate draft.opened.length .leave)
  return closed.document

/-- **Nothing goes wrong when a document is made of marks.** -/
theorem runMarks_eq (legend : Legend) (list : List Mark) :
    runMarks legend list = .ok (ofMarks legend list) := by
  rw [runMarks, Draft.runMarks_eq, ok_bind, Draft.runMarks_eq]
  rfl

end Document

end Outliner
