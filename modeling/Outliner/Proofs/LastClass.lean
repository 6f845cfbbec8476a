import Mathlib.Data.List.Induction
import Mathlib.Data.List.Nodup
import Mathlib.Tactic.Lemma
import Outliner.Edit
import Outliner.Proofs.Listing
import Outliner.Proofs.Occurrence

set_option autoImplicit false

/-!
# The last class

A document remembers the class that was added last by its place among the classes. Leaves and other
classes are filed there too, some of them under the same name, and classes are renamed and changed
in other ways. The place stands for the class all the same: what is filed is only ever appended, and
never moved.

To say which class it is, each element filed with the classes is given a stamp of its own, the
number of steps before the one that filed it. A ledger records by stamps what a history files and
which edits it makes; it knows of no places.

## Main definitions

* `Outliner.Document.Step`, `Outliner.Document.run` — the operations on a document, with any edits
  of the last class and of the first class of a name.
* `Outliner.Filing`, `Outliner.Ledger` — what a history files with the classes.
* `Outliner.Document.DiffersAt` — two documents differ in one class at most.

## Main results

* `Outliner.Document.Follows.step` — a step of a document is a step of the ledger.
* `Outliner.Document.lastClass?_run` — the last class is the class that was added last, with the
  edits made to it since, and an edit of it changes nothing else.
-/

namespace Outliner

/-! ## Histories -/

/-- An operation on a document. Other than by a `DocumentEdit`, a class that is handed out may be
changed in any way. -/
inductive Document.Step where
  /-- Adds a top-level element under a kind. -/
  | add (kind : Kind) (element : Element)
  /-- Adds a top-level function. -/
  | addFunction (tag : Tag)
  /-- Adds a top-level variable. -/
  | addVariable (tag : Tag)
  /-- Adds a class and remembers it. -/
  | addClass (c : Class)
  /-- Sets the description of a kind. -/
  | describe (kind : Kind) (description : String)
  /-- Sets the priority of a kind. -/
  | prioritise (kind : Kind) (priority : Int)
  /-- Forgets the last class. -/
  | forgetLastClass
  /-- Edits the last class. -/
  | modifyLastClass (change : Class → Class)
  /-- Edits the first class of a name. -/
  | modifyClassNamed (name : String) (change : Class → Class)

/-- The document after an operation. -/
def Document.Step.apply : Document.Step → Document → Document
  | add kind element, d => d.add kind element
  | addFunction tag, d => d.addFunction tag
  | addVariable tag, d => d.addVariable tag
  | addClass c, d => d.addClass c
  | describe kind description, d => d.describe kind description
  | prioritise kind priority, d => d.prioritise kind priority
  | forgetLastClass, d => d.forgetLastClass
  | modifyLastClass change, d => d.modifyLastClass change
  | modifyClassNamed name change, d => d.modifyClassNamed name change

/-- The document that operations make, beginning with the empty one. -/
def Document.run (steps : List Document.Step) : Document :=
  steps.foldl (fun d step => step.apply d) {}

/-- The edit of a document as an operation. -/
def DocumentEdit.step : DocumentEdit → Document.Step
  | add kind element => .add kind element
  | addClass c => .addClass c
  | describe kind description => .describe kind description
  | prioritise kind priority => .prioritise kind priority
  | forgetLastClass => .forgetLastClass
  | lastClass edit => .modifyLastClass edit.apply
  | classNamed name edit => .modifyClassNamed name edit.apply

/-- The operation of an edit does what the edit does. -/
lemma DocumentEdit.apply_step (edit : DocumentEdit) (d : Document) :
    edit.step.apply d = edit.apply d := by
  cases edit <;> rfl

/-- What edits make of a document, operations make of it. -/
theorem Document.ofHistory_eq_run (edits : List DocumentEdit) :
    Document.ofHistory edits = Document.run (edits.map DocumentEdit.step) := by
  simp only [ofHistory, run, List.foldl_map, DocumentEdit.apply_step]

/-! ## The ledger -/

/-- An element filed with the classes, as a history knows it. -/
structure Filing where
  /-- The number of steps before the one that filed the element. No other element has it. -/
  stamp : Nat
  /-- The element as it was filed. -/
  stored : Element
  /-- The edits made to it since, in order. -/
  edits : List (Class → Class) := []

/-- A class after edits in order. -/
def Class.edited (edits : List (Class → Class)) (c : Class) : Class :=
  edits.foldl (fun c change => change c) c

/-- The element as it is now. -/
def Filing.element (f : Filing) : Element :=
  f.edits.foldl (fun e change => e.modifyClass change) f.stored

/-- What a history has filed with the classes, and which class it remembers. -/
structure Ledger where
  /-- What was filed, in order. -/
  filings : List Filing := []
  /-- The stamp of the class added last, unless it was forgotten. -/
  last : Option Nat := none

namespace Ledger

/-- The stamps of what was filed, in order. -/
def stamps (l : Ledger) : List Nat := l.filings.map Filing.stamp

/-- An element is filed. -/
def file (stamp : Nat) (element : Element) (l : Ledger) : Ledger :=
  { l with filings := l.filings ++ [⟨stamp, element, []⟩] }

/-- The element of a stamp is edited, and no other. -/
def edit (stamp : Option Nat) (change : Class → Class) (l : Ledger) : Ledger :=
  { l with filings := l.filings.map fun f =>
      if stamp = some f.stamp then { f with edits := f.edits ++ [change] } else f }

/-- The stamp of the first class of a name. -/
def stampNamed? (name : String) (l : Ledger) : Option Nat :=
  (l.filings.find? fun f => Document.isClassNamed name f.element).map Filing.stamp

/-- The ledger after an operation, which is the step of the number `now`. -/
def record (l : Ledger) (now : Nat) : Document.Step → Ledger
  | .add kind element => if kind = .classes then l.file now element else l
  | .addFunction _ => l
  | .addVariable _ => l
  | .addClass c => { filings := (l.file now (.ofClass c)).filings, last := some now }
  | .describe _ _ => l
  | .prioritise _ _ => l
  | .forgetLastClass => { l with last := none }
  | .modifyLastClass change => l.edit l.last change
  | .modifyClassNamed name change => l.edit (l.stampNamed? name) change

/-- The ledger of a history. -/
def ofSteps (steps : List Document.Step) : Ledger :=
  steps.zipIdx.foldl (fun l step => l.record step.2 step.1) {}

end Ledger

/-! ## What is filed -/

namespace Filing

/-- An element that is edited once more is the edited element. -/
@[simp] lemma element_edit (f : Filing) (change : Class → Class) :
    Filing.element { f with edits := f.edits ++ [change] } = f.element.modifyClass change := by
  simp [element]

/-- A class that is filed stays a class under all edits. -/
lemma element_ofClass (stamp : Nat) (c : Class) (edits : List (Class → Class)) :
    Filing.element ⟨stamp, .ofClass c, edits⟩ = .ofClass (c.edited edits) := by
  show edits.foldl (fun (e : Element) change => e.modifyClass change) (Element.ofClass c) = _
  induction edits generalizing c with
  | nil => rfl
  | cons change edits ih => exact ih (change c)

end Filing

namespace Ledger

/-- An edit of no class changes nothing. -/
@[simp] lemma edit_none (change : Class → Class) (l : Ledger) : l.edit none change = l := by
  simp [edit]

/-- What is filed has its stamp at the end. -/
@[simp] lemma stamps_file (stamp : Nat) (e : Element) (l : Ledger) :
    (l.file stamp e).stamps = l.stamps ++ [stamp] := by
  simp [stamps, file]

/-- Edits keep the stamps. -/
@[simp] lemma stamps_edit (stamp : Option Nat) (change : Class → Class) (l : Ledger) :
    (l.edit stamp change).stamps = l.stamps := by
  simp only [stamps, edit, List.map_map]
  refine List.map_congr_left fun f _ => ?_
  by_cases hf : stamp = some f.stamp <;> simp [hf]

/-- The stamps tell what is filed apart, and the steps that are still to come have others. -/
structure Stamped (l : Ledger) (now : Nat) : Prop where
  /-- They are in order. -/
  order : l.stamps.Pairwise (· < ·)
  /-- They are the numbers of earlier steps. -/
  earlier : ∀ stamp ∈ l.stamps, stamp < now

variable {l : Ledger} {now : Nat}

/-- A step that files nothing may remember or forget what it likes. -/
lemma Stamped.later (h : l.Stamped now) (last : Option Nat) :
    Stamped { l with last := last } (now + 1) where
  order := h.order
  earlier := fun stamp hstamp => Nat.lt_succ_of_lt (h.earlier stamp hstamp)

/-- What is filed next has the greatest stamp. -/
lemma Stamped.file (h : l.Stamped now) (e : Element) : (l.file now e).Stamped (now + 1) where
  order := by
    rw [stamps_file]
    exact List.pairwise_append.2 ⟨h.order, List.pairwise_singleton _ _, fun stamp hstamp _ hnow =>
      List.mem_singleton.1 hnow ▸ h.earlier stamp hstamp⟩
  earlier := fun stamp hstamp => by
    rw [stamps_file] at hstamp
    rcases List.mem_append.1 hstamp with hold | hnew
    · exact Nat.lt_succ_of_lt (h.earlier stamp hold)
    · rw [List.mem_singleton.1 hnew]
      exact Nat.lt_succ_self now

/-- Edits keep the order of the stamps. -/
lemma Stamped.edit (h : l.Stamped now) (stamp : Option Nat) (change : Class → Class) :
    (l.edit stamp change).Stamped (now + 1) where
  order := by
    rw [stamps_edit]
    exact h.order
  earlier := fun stamp hstamp => by
    rw [stamps_edit] at hstamp
    exact Nat.lt_succ_of_lt (h.earlier stamp hstamp)

/-- What is filed is told by its stamp. -/
lemma Stamped.eq_of_stamp (h : l.Stamped now) {f g : Filing} (hf : f ∈ l.filings)
    (hg : g ∈ l.filings) (hstamp : f.stamp = g.stamp) : f = g :=
  List.inj_on_of_nodup_map (h.order.imp Nat.ne_of_lt) hf hg hstamp

/-- An edit of the element of a stamp is an edit at its place.

**Proof sketch.** Stamps are in order, so no other place has the stamp of the element. -/
lemma Stamped.edit_eq_modify (h : l.Stamped now) {i : Nat} {f : Filing}
    (hi : l.filings[i]? = some f) (change : Class → Class) :
    (l.edit (some f.stamp) change).filings
      = l.filings.modify i fun f => { f with edits := f.edits ++ [change] } := by
  refine List.ext_getElem? fun j => ?_
  rw [Ledger.edit, List.getElem?_map, List.getElem?_modify]
  cases hj : l.filings[j]? with
  | none => rfl
  | some g =>
    have hnodup : l.stamps.Nodup := h.order.imp Nat.ne_of_lt
    have hlength : i < l.stamps.length := by
      simpa [stamps] using (List.getElem?_eq_some_iff.1 hi).1
    have hstamp : f.stamp = g.stamp ↔ i = j := by
      rw [← List.getElem?_inj hlength hnodup]
      simp [stamps, hi, hj]
    simp [hstamp]

end Ledger

/-! ## A document follows its ledger -/

/-- A document after `now` steps holds the classes of the ledger, and the place that it remembers is
that of the class whose stamp the ledger remembers. -/
structure Document.Follows (d : Document) (l : Ledger) (now : Nat) : Prop where
  /-- What is filed with the classes is what the ledger says. -/
  items : d.scope.get .classes = l.filings.map Filing.element
  /-- The stamps tell it apart. -/
  stamped : l.Stamped now
  /-- They forget together. -/
  forgotten : d.lastClassIndex = none → l.last = none
  /-- They remember the same class. -/
  remembered : ∀ place, d.lastClassIndex = some place →
    ∃ stamp c edits, l.last = some stamp ∧ l.filings[place]? = some ⟨stamp, .ofClass c, edits⟩

namespace Document.Follows

variable {d d' : Document} {l : Ledger} {now : Nat}

/-- A step that files nothing with the classes and edits no class. -/
lemma of_same (h : d.Follows l now) (hitems : d'.get .classes = d.get .classes)
    (hlast : d'.lastClassIndex = d.lastClassIndex) : d'.Follows l (now + 1) where
  items := hitems.trans h.items
  stamped := h.stamped.later l.last
  forgotten := hlast ▸ h.forgotten
  remembered := hlast ▸ h.remembered

/-- A step that changes nothing. -/
lemma later (h : d.Follows l now) : d.Follows l (now + 1) := h.of_same rfl rfl

/-- An element is filed with the classes. What is filed already keeps its place. -/
lemma file (h : d.Follows l now) (e : Element) :
    (d.add .classes e).Follows (l.file now e) (now + 1) where
  items := by
    simp [add, Scope.get_add, h.items, Ledger.file, Filing.element]
  stamped := h.stamped.file e
  forgotten := h.forgotten
  remembered := fun place hplace => by
    obtain ⟨stamp, c, edits, hstamp, hfiling⟩ := h.remembered place hplace
    refine ⟨stamp, c, edits, hstamp, ?_⟩
    rw [Ledger.file, List.getElem?_append_left (List.getElem?_eq_some_iff.1 hfiling).1, hfiling]

/-- A class is filed and remembered. It stands behind all that was filed before. -/
lemma addClass (h : d.Follows l now) (c : Class) :
    (d.addClass c).Follows ⟨(l.file now (.ofClass c)).filings, some now⟩ (now + 1) where
  items := (h.file (.ofClass c)).items
  stamped := ⟨(h.file (.ofClass c)).stamped.order, (h.file (.ofClass c)).stamped.earlier⟩
  forgotten := fun hnone => by simp [Document.addClass] at hnone
  remembered := fun place hplace => by
    have hlength : place = l.filings.length := by
      simpa [Document.addClass, h.items, eq_comm] using hplace
    exact ⟨now, c, [], rfl, by simp [hlength, Ledger.file]⟩

/-- The class at a place is edited. All others stay what they are, and all keep their places. -/
lemma modifyClassAt (h : d.Follows l now) {place : Nat} {f : Filing}
    (hf : l.filings[place]? = some f) (change : Class → Class) :
    (d.modifyClassAt place change).Follows (l.edit (some f.stamp) change) (now + 1) where
  items := by
    rw [h.stamped.edit_eq_modify hf change]
    simp only [Document.modifyClassAt, Scope.get_modifyAt, if_true, h.items]
    refine List.ext_getElem? fun i => ?_
    by_cases hi : place = i <;> simp [hi, Function.comp_def]
  stamped := h.stamped.edit (some f.stamp) change
  forgotten := h.forgotten
  remembered := fun other hother => by
    obtain ⟨stamp, c, edits, hstamp, hfiling⟩ := h.remembered other hother
    by_cases hsame : f.stamp = stamp
    · exact ⟨stamp, c, edits ++ [change], hstamp, by simp [Ledger.edit, hfiling, hsame]⟩
    · exact ⟨stamp, c, edits, hstamp, by simp [Ledger.edit, hfiling, hsame]⟩

/-- The ledger knows by its stamp the class that the document finds at its place. -/
lemma classIndex? (h : d.Follows l now) (name : String) :
    l.stampNamed? name = (d.classIndex? name).bind fun place =>
      l.filings[place]?.map Filing.stamp := by
  rw [Ledger.stampNamed?, Document.classIndex?, h.items, List.findIdx?_map,
    List.find?_eq_bind_findIdx?_getElem?, Option.map_bind]
  rfl

/-- A step of the document is a step of its ledger.

**Proof sketch.** By the step. Filing with the classes files in the ledger, and filing elsewhere
changes neither. To edit a class is to edit the element at its place, which the ledger knows by its
stamp; where the document has no such class, the ledger has none either. -/
theorem step (h : d.Follows l now) (s : Document.Step) :
    (s.apply d).Follows (l.record now s) (now + 1) := by
  have hother (kind : Kind) (e : Element) (hkind : kind ≠ .classes) :
      (d.add kind e).Follows l (now + 1) :=
    h.of_same (by simp [get, Document.add, Scope.get_add, Ne.symm hkind]) rfl
  cases s with
  | add kind e =>
    by_cases hkind : kind = .classes
    · subst hkind
      simpa [Step.apply, Ledger.record] using h.file e
    · simpa [Step.apply, Ledger.record, hkind] using hother kind e hkind
  | addFunction tag => exact hother .functions (.leaf tag) (by decide)
  | addVariable tag => exact hother .vars (.leaf tag) (by decide)
  | addClass c => exact h.addClass c
  | describe kind description => exact h.of_same rfl rfl
  | prioritise kind priority => exact h.of_same rfl rfl
  | forgetLastClass =>
    exact
      { items := h.items
        stamped := h.stamped.later none
        forgotten := fun _ => rfl
        remembered := fun place hplace => by simp [Step.apply, Document.forgetLastClass] at hplace }
  | modifyLastClass change =>
    cases hlast : d.lastClassIndex with
    | none =>
      simpa [Step.apply, Document.modifyLastClass, hlast, Ledger.record, h.forgotten hlast]
        using h.later
    | some place =>
      obtain ⟨stamp, c, edits, hstamp, hfiling⟩ := h.remembered place hlast
      simpa [Step.apply, Document.modifyLastClass, hlast, Ledger.record, hstamp] using
        h.modifyClassAt hfiling change
  | modifyClassNamed name change =>
    cases hindex : d.classIndex? name with
    | none =>
      simpa [Step.apply, Document.modifyClassNamed, Ledger.record, h.classIndex? name, hindex]
        using h.later
    | some place =>
      have hplace : place < l.filings.length := by
        have hlength := (List.findIdx?_eq_some_iff_getElem.1 hindex).1
        rwa [h.items, List.length_map] at hlength
      have hfiling := List.getElem?_eq_getElem hplace
      simpa [Step.apply, Document.modifyClassNamed, Ledger.record, h.classIndex? name, hindex,
        hfiling] using h.modifyClassAt hfiling change

/-- The document and its ledger remember a class together, and it is the same one. -/
lemma lastClass?_cases (h : d.Follows l now) :
    (d.lastClassIndex = none ∧ d.lastClass? = none ∧ l.last = none)
    ∨ ∃ place stamp c edits, d.lastClassIndex = some place ∧ d.lastClass? = some (c.edited edits)
        ∧ l.last = some stamp ∧ l.filings[place]? = some ⟨stamp, .ofClass c, edits⟩ := by
  cases hlast : d.lastClassIndex with
  | none => exact .inl ⟨rfl, by simp [Document.lastClass?, hlast], h.forgotten hlast⟩
  | some place =>
    obtain ⟨stamp, c, edits, hstamp, hfiling⟩ := h.remembered place hlast
    have hfound : d.lastClass? = some (c.edited edits) := by
      simp [Document.lastClass?, hlast, h.items, hfiling, Filing.element_ofClass]
    exact .inr ⟨place, stamp, c, edits, rfl, hfound, hstamp, hfiling⟩

end Document.Follows

/-- One more step is one more record. -/
lemma Ledger.ofSteps_concat (steps : List Document.Step) (s : Document.Step) :
    Ledger.ofSteps (steps ++ [s]) = (Ledger.ofSteps steps).record steps.length s := by
  simp [Ledger.ofSteps, List.zipIdx_append]

/-- A history of the document is a history of its ledger. -/
theorem Document.follows_run (steps : List Document.Step) :
    (Document.run steps).Follows (Ledger.ofSteps steps) steps.length := by
  induction steps using List.reverseRecOn with
  | nil => exact ⟨rfl, ⟨List.Pairwise.nil, by simp [Ledger.ofSteps, Ledger.stamps]⟩,
      fun _ => rfl, by simp [run]⟩
  | append_singleton steps s ih =>
    rw [Ledger.ofSteps_concat, List.length_append, run, List.foldl_append]
    exact ih.step s

/-! ## What the ledger remembers -/

namespace Ledger

/-- Something was filed at the step of a number, and has been edited in some way since. -/
def Has (l : Ledger) (stamp : Nat) (e : Element) : Prop := ∃ edits, ⟨stamp, e, edits⟩ ∈ l.filings

/-- What was filed stays what it was, apart from its edits.

**Proof sketch.** By the step: it files something else, or it edits the element of some stamp, this
one or another, or it leaves the filings alone. -/
lemma Has.record {l : Ledger} {stamp : Nat} {e : Element} (h : l.Has stamp e) (now : Nat)
    (s : Document.Step) : (l.record now s).Has stamp e := by
  obtain ⟨edits, hmem⟩ := h
  have hfile (other : Element) : (l.file now other).Has stamp e :=
    ⟨edits, List.mem_append_left _ hmem⟩
  have hedit (target : Option Nat) (change : Class → Class) :
      (l.edit target change).Has stamp e := by
    by_cases htarget : target = some stamp
    · exact ⟨edits ++ [change], List.mem_map.2 ⟨_, hmem, by simp [htarget]⟩⟩
    · exact ⟨edits, List.mem_map.2 ⟨_, hmem, by simp [htarget]⟩⟩
  cases s with
  | add kind other =>
    by_cases hkind : kind = .classes
    · simpa [Ledger.record, hkind] using hfile other
    · simpa [Ledger.record, hkind] using ⟨edits, hmem⟩
  | addClass c => exact hfile (.ofClass c)
  | modifyLastClass change => exact hedit l.last change
  | modifyClassNamed name change => exact hedit (l.stampNamed? name) change
  | _ => exact ⟨edits, hmem⟩

/-- No step but the addition of another class and forgetting changes which class is remembered. -/
lemma last_record {s : Document.Step} (hadd : ∀ c, s ≠ .addClass c) (hforget : s ≠ .forgetLastClass)
    (l : Ledger) (now : Nat) : (l.record now s).last = l.last := by
  cases s with
  | add kind e =>
    by_cases hkind : kind = .classes <;> simp [record, hkind, file]
  | addClass c => exact absurd rfl (hadd c)
  | forgetLastClass => exact absurd rfl hforget
  | _ => rfl

/-- The class added last is remembered until it is forgotten. -/
lemma ofSteps_last (before : List Document.Step) (c : Class) (after : List Document.Step)
    (hadd : ∀ other, .addClass other ∉ after) (hforget : .forgetLastClass ∉ after) :
    (ofSteps (before ++ .addClass c :: after)).last = some before.length
      ∧ (ofSteps (before ++ .addClass c :: after)).Has before.length (.ofClass c) := by
  induction after using List.reverseRecOn with
  | nil =>
    rw [ofSteps_concat]
    exact ⟨rfl, [], by simp [record, file]⟩
  | append_singleton after s ih =>
    simp only [List.mem_append, List.mem_singleton, not_or] at hadd hforget
    obtain ⟨hlast, hhas⟩ := ih (fun other => (hadd other).1) hforget.1
    rw [← List.cons_append, ← List.append_assoc, ofSteps_concat]
    exact ⟨(last_record (fun other => Ne.symm (hadd other).2) (Ne.symm hforget.2) _ _).trans hlast,
      hhas.record _ s⟩

/-- A history ends in what comes after the addition of a class, or in that addition itself. -/
lemma concat_eq_append_addClass {steps before after : List Document.Step} {s : Document.Step}
    {c : Class} (h : steps ++ [s] = before ++ .addClass c :: after) :
    s = .addClass c ∨ ∃ rest, after = rest ++ [s] ∧ steps = before ++ .addClass c :: rest := by
  rcases List.eq_nil_or_concat after with rfl | ⟨rest, other, rfl⟩
  · exact .inl (List.singleton_inj.1 (List.append_inj_right' h rfl))
  · rw [List.concat_eq_append, ← List.cons_append, ← List.append_assoc] at h
    obtain ⟨hsteps, hlast⟩ := List.append_inj' h rfl
    obtain rfl := List.singleton_inj.1 hlast
    exact .inr ⟨rest, List.concat_eq_append, hsteps⟩

/-- A class is remembered if one was added after the last time that it was forgotten.

**Proof sketch.** Induction on the steps, the last one first. If it adds a class, that class is
remembered; if it forgets, none is. Any other step keeps what was remembered before. -/
lemma isSome_ofSteps_last (steps : List Document.Step) :
    (ofSteps steps).last.isSome
      ↔ ∃ before c after, steps = before ++ .addClass c :: after ∧ .forgetLastClass ∉ after := by
  induction steps using List.reverseRecOn with
  | nil => simp [ofSteps]
  | append_singleton steps s ih =>
    rw [ofSteps_concat]
    by_cases hadd : ∃ c, s = .addClass c
    · obtain ⟨c, rfl⟩ := hadd
      exact iff_of_true rfl ⟨steps, c, [], rfl, List.not_mem_nil⟩
    · have hsplit {before c after} (h : steps ++ [s] = before ++ .addClass c :: after) :
          ∃ rest, after = rest ++ [s] ∧ steps = before ++ .addClass c :: rest :=
        (concat_eq_append_addClass h).resolve_left fun hs => hadd ⟨c, hs⟩
      by_cases hforget : s = .forgetLastClass
      · subst hforget
        refine iff_of_false (by simp [record]) ?_
        rintro ⟨before, c, after, hsteps, hafter⟩
        obtain ⟨rest, rfl, -⟩ := hsplit hsteps
        simp at hafter
      · rw [last_record (fun c hs => hadd ⟨c, hs⟩) hforget, ih]
        constructor
        · rintro ⟨before, c, after, rfl, hafter⟩
          exact ⟨before, c, after ++ [s], by simp, by simp [hafter, Ne.symm hforget]⟩
        · rintro ⟨before, c, after, hsteps, hafter⟩
          obtain ⟨rest, rfl, rfl⟩ := hsplit hsteps
          exact ⟨before, c, rest, rfl, fun hmem => hafter (List.mem_append_left _ hmem)⟩

end Ledger

/-! ## The last class -/

/-- Two documents that differ in one class at most, which stands at a place among the classes. -/
structure Document.DiffersAt (place : Nat) (c c' : Class) (d d' : Document) : Prop where
  /-- The class as it was. -/
  before : (d.get .classes)[place]? = some (.ofClass c)
  /-- The class as it is. All that is filed beside it is the same. -/
  after : d'.get .classes = (d.get .classes).set place (.ofClass c')
  /-- What is filed under other kinds is the same. -/
  elsewhere : ∀ kind, kind ≠ .classes → d'.get kind = d.get kind
  /-- The kinds stand in the same order. -/
  kinds : d'.scope.kinds = d.scope.kinds
  /-- They have the same descriptions. -/
  descriptions : d'.scope.descriptions = d.scope.descriptions
  /-- They have the same priorities. -/
  priorities : d'.scope.priorities = d.scope.priorities
  /-- The same class is the last one. -/
  last : d'.lastClassIndex = d.lastClassIndex

/-- An edit of the class at a place changes that class and nothing else.

**Proof sketch.** Under the kind of classes the one element at the place is modified, and all other
kinds keep their elements. -/
lemma Document.differsAt_modifyClassAt {d : Document} {place : Nat} {c : Class}
    (hplace : (d.get .classes)[place]? = some (.ofClass c)) (change : Class → Class) :
    d.DiffersAt place c (change c) (d.modifyClassAt place change) where
  before := hplace
  after := by
    have hget : (d.modifyClassAt place change).get .classes
        = (d.get .classes).modify place (Element.modifyClass change) := by
      simp [get, modifyClassAt, Scope.get_modifyAt]
    rw [hget]
    refine List.ext_getElem? fun i => ?_
    rw [List.getElem?_modify, List.getElem?_set]
    by_cases hi : place = i
    · subst hi
      rw [hplace, if_pos rfl, if_pos (List.getElem?_eq_some_iff.1 hplace).1, Option.map_eq_map,
        Option.map_some, if_pos rfl]
      rfl
    · simp [hi]
  elsewhere := fun kind hkind => by simp [get, modifyClassAt, Scope.get_modifyAt, hkind]
  kinds := Scope.kinds_modify ..
  descriptions := rfl
  priorities := rfl
  last := rfl

/-- **The last class.** A history files elements with the classes, each at a step of its own, and
edits some of them.

There is a last class if a class was added after the last time that it was forgotten. It is the
class that the last addition has filed, with the edits made to that class and to no other, whatever
else was filed with the classes before or since, under whatever name. An edit of the last class
changes it and nothing else; where there is none, the edit changes nothing.

**Proof sketch.** The run follows its ledger (`follows_run`). The last class of the document is the
filing that the ledger remembers, if any (`lastClass?_cases`), which is the last one added and not
forgotten (`isSome_ofSteps_last`, `ofSteps_last`). To edit it is to modify the class at its place
(`differsAt_modifyClassAt`). -/
theorem Document.lastClass?_run (steps : List Document.Step) :
    ((run steps).get .classes = (Ledger.ofSteps steps).filings.map Filing.element
      ∧ (Ledger.ofSteps steps).stamps.Pairwise (· < ·))
    ∧ ((run steps).lastClass?.isSome
      ↔ ∃ before c after, steps = before ++ .addClass c :: after ∧ .forgetLastClass ∉ after)
    ∧ (∀ before c after, steps = before ++ .addClass c :: after →
        (∀ other, .addClass other ∉ after) → .forgetLastClass ∉ after →
        ∃ place edits,
          (Ledger.ofSteps steps).filings[place]? = some ⟨before.length, .ofClass c, edits⟩
          ∧ (run steps).lastClass? = some (c.edited edits)
          ∧ ∀ change, DiffersAt place (c.edited edits) (change (c.edited edits)) (run steps)
              ((run steps).modifyLastClass change))
    ∧ ((run steps).lastClass? = none →
        ∀ change, (run steps).modifyLastClass change = run steps) := by
  have hfollows := follows_run steps
  refine ⟨⟨hfollows.items, hfollows.stamped.order⟩, ?_, ?_, ?_⟩
  · rw [← Ledger.isSome_ofSteps_last]
    obtain ⟨-, hlast, hledger⟩ | ⟨place, stamp, c, edits, -, hlast, hledger, -⟩ :=
      hfollows.lastClass?_cases <;> simp [hlast, hledger]
  · rintro before c after rfl hadd hforget
    obtain ⟨hstamp, edits, hmem⟩ := Ledger.ofSteps_last before c after hadd hforget
    obtain ⟨-, -, hledger⟩ | ⟨place, stamp, c', edits', hindex, hlast, hledger, hfiling⟩ :=
      hfollows.lastClass?_cases
    · simp [hledger] at hstamp
    · obtain rfl : stamp = before.length := by simpa [hledger] using hstamp
      obtain ⟨-, hstored, rfl⟩ := Filing.mk.inj
        (hfollows.stamped.eq_of_stamp (List.mem_of_getElem? hfiling) hmem rfl)
      obtain rfl : c' = c := Option.some.inj (congrArg Element.class? hstored)
      refine ⟨place, edits', hfiling, hlast, fun change => ?_⟩
      have hplace : ((run (before ++ .addClass c' :: after)).get .classes)[place]?
          = some (.ofClass (c'.edited edits')) := by
        rw [get, hfollows.items, List.getElem?_map, hfiling, Option.map_some,
          Filing.element_ofClass]
      simpa only [modifyLastClass, hindex] using differsAt_modifyClassAt hplace change
  · intro hnone change
    obtain ⟨hindex, -, -⟩ | ⟨place, stamp, c, edits, -, hlast, -, -⟩ := hfollows.lastClass?_cases
    · simp [modifyLastClass, hindex]
    · simp [hlast] at hnone

/-- A class `B` that is renamed twice, among other elements of its names. -/
def Document.renames : List Document.Step :=
  [.addClass (.empty ⟨"A", 0, .classes, none⟩), .forgetLastClass,
    .addClass (.empty ⟨"B", 2, .classes, none⟩), .add .classes (.leaf ⟨"B", 3, .vars, none⟩),
    .modifyClassNamed "B" (Class.rename "A"),
    .add .classes (.ofClass (.empty ⟨"A", 5, .classes, none⟩)),
    .modifyClassNamed "A" (Class.rename "D"), .modifyLastClass (Class.rename "C")]

/-- It stays the last class: of the renames by name, the second one meets the class filed first. -/
theorem Document.lastClass?_run_renames :
    ((∃ (place : Nat) (edits : List (Class → Class)), (Ledger.ofSteps renames).filings[place]?
          = some ⟨2, .ofClass (.empty ⟨"B", 2, .classes, none⟩), edits⟩
        ∧ (run renames).lastClass?
          = some (Class.edited edits (.empty ⟨"B", 2, .classes, none⟩)))
      ∧ (run renames).lastClass?.map Class.tag = some ⟨"C", 2, .classes, none⟩)
    ∧ (run [.forgetLastClass]).modifyLastClass (Class.rename "C") = run [.forgetLastClass] := by
  refine ⟨⟨?_, by decide⟩, (lastClass?_run [.forgetLastClass]).2.2.2 rfl (Class.rename "C")⟩
  obtain ⟨place, edits, hfiling, hlast, -⟩ :=
    (lastClass?_run renames).2.2.1 (renames.take 2) (.empty ⟨"B", 2, .classes, none⟩)
      (renames.drop 3) rfl (by simp [renames]) (by simp [renames])
  exact ⟨place, edits, hfiling, hlast⟩

end Outliner
