import Mathlib.Tactic.Lemma
import Outliner.Proofs.Verilog.Attachment

set_option autoImplicit false

/-!
# Where routines declared outside their class are filed

A task or function that names its class in front of its own name is reported once, where its header
ends. It becomes a member of the first class of that name that is filed at the top. Where there is
none, it is filed like any other routine, in the innermost unit that is open.

A class that was closed in a unit that is still open is not filed at the top. So a routine becomes a
member of the first class of its owner's name that was closed where its header ends just if no unit
is open there.

## Main definitions

* `Outliner.Draft.closedNamed?` — the first class of a name that was closed where a draft stands.
* `Outliner.Draft.ownersOf` — what holds an element that names its owner.
* `Outliner.Verilog.Moment.EndsHeader` — the header of a routine that is directly qualified ends.

## Main results

* `Outliner.Draft.occurrences_mark_qualified` — an element that names its owner is filed once.
* `Outliner.Draft.ownersOf_eq_iff` — where it is filed in the class that was closed there.
* `Outliner.Language.scan_verilog_owner` — where a routine declared outside its class is filed.
-/

namespace Outliner

/-! ## Filing an element that names its owner -/

namespace Draft

/-- The first class of the name that was closed where the draft stands: in the innermost class that
is open, or at the top. -/
def closedNamed? (name : String) (d : Draft) : Option Class :=
  match d.opened with
  | [] => d.document.classNamed? name
  | innermost :: _ =>
    ((innermost.body.members.get .classes).filterMap Element.class?).find? (·.name == name)

/-- The tags of the classes that hold an element that names its owner: the first class of the name
at the top, or the open classes if there is none. -/
def ownersOf (owner : String) (d : Draft) : List Tag :=
  match d.document.classNamed? owner with
  | some first => [first.tag]
  | none => holdersOf d.opened

/-- An element that names its owner is filed once. -/
lemma occurrences_mark_qualified (d : Draft) (owner : String) (owned free : Kind) (name : String)
    (line : Nat) :
    let kind := if (d.document.classNamed? owner).isSome then owned else free
    (d.mark (.qualified owner owned free name line)).occurrences.Perm (d.occurrences
      ++ [Report.heldBy (d.ownersOf owner)
        ⟨kind, { name := name, line := line, kind := kind }⟩]) := by
  rw [mark, ownersOf]
  cases hfirst : d.document.classNamed? owner with
  | some first =>
    exact occurrences_of_document (Document.occurrences_modifyClassNamed_of_some hfirst owned _)
  | none => exact occurrences_file_leafOf free name line d

/-- **It is filed in the class that was closed where the draft stands just if nothing is open
there.**

**Proof sketch.** What holds it is one class at the top, or all that is open. A class in the
innermost open one has one holder more. -/
lemma ownersOf_eq_iff {d : Draft} {owner : String} {c : Class} (h : d.closedNamed? owner = some c) :
    d.ownersOf owner = c.tag :: holdersOf d.opened ↔ d.opened = [] := by
  rw [closedNamed?] at h
  rw [ownersOf]
  cases hopened : d.opened with
  | nil =>
    rw [hopened] at h
    simp [h, holdersOf]
  | cons innermost outer => cases d.document.classNamed? owner <;> simp [holdersOf]

/-- The first class of the owner's name at the top has the element as a member. -/
lemma classes_mark_qualified_first {d : Draft} {owner : String} {place : Nat} {first : Class}
    (hplace : d.document.classIndex? owner = some place)
    (hfirst : (d.document.get .classes)[place]? = some (.ofClass first)) (owned free : Kind)
    (name : String) (line : Nat) :
    ((d.mark (.qualified owner owned free name line)).document.get .classes)[place]?
      = some (.ofClass (first.add owned (leafOf owned name line))) := by
  have hsome : (d.document.classNamed? owner).isSome = true := by
    rw [Document.classNamed?_eq_bind, hplace, Option.bind_some,
      show (d.document.scope.get .classes)[place]? = some (.ofClass first) from hfirst]
    rfl
  have hdiffers :=
    Document.differsAt_modifyClassAt hfirst (·.add owned (leafOf owned name line))
  rw [mark, if_pos hsome]
  simp only [Document.modifyClassNamed, hplace, hdiffers.after]
  rw [List.getElem?_set_self (List.getElem?_eq_some_iff.1 hfirst).1]

end Draft

namespace Verilog

open Relation (ReflTransGen)

/-! ## Headers that end -/

/-- At the moment a sign comes next at which the header of a routine ends. The name of the routine
is directly qualified by its owner there, and the routine is not defined elsewhere. -/
structure Moment.EndsHeader (m : Moment) (a : Attachment) (c : Cursor) (ch : Char) : Prop where
  /-- The header is being read. -/
  heads : ∃ header isPrototype, m.Heads header a.routine a.tokens ∧ header.line = a.line
    ∧ header.declared = .routine a.routine isPrototype false
  /-- Its name is directly qualified. -/
  qualified : DirectlyQualified a.tokens a.owner a.name
  /-- The owner may be a name. -/
  owner : (Token.word a.owner).isName = true
  /-- So may the name. -/
  name : (Token.word a.name).isName = true
  /-- The sign stands at the cursor. -/
  cursor : m.cursor = some c
  /-- It is the next character. -/
  peek : c.peek? = some ch
  /-- The header ends there. -/
  sign : ∃ sign, tokensAt m.state c ch = [.sign sign]

section Moments

variable {lines : List (List Char)} {m m' : Moment} {a : Attachment} {c : Cursor} {ch : Char}

/-- Only a sign counts as a sign. -/
lemma eq_sign_of_counted {token : Token} {braces : Nat} {sign : Char}
    (h : token.counted braces = [.sign sign]) : token = .sign sign := by
  cases token with
  | word text =>
    rw [Token.counted] at h
    split at h <;> cases h
  | sign other =>
    cases h
    rfl
  | _ => cases h

/-- Where its header ends, a routine that is directly qualified is marked with its owner.

**Proof sketch.** The heading of the routine names its owner and the routine, so a sign that ends
the header makes a mark for both. No comment begins there, because a sign is read. -/
lemma Moment.EndsHeader.draft_step (h : m.EndsHeader a c ch) :
    ∃ free, (m.step c ch).draft
      = m.draft.mark (.qualified a.owner (a.routine.kind true) free a.name a.line) := by
  obtain ⟨header, isPrototype, hheads, hline, hdeclared⟩ := h.heads
  obtain ⟨sign, hsign⟩ := h.sign
  obtain ⟨words, hread⟩ := h.qualified.readHeading h.owner h.name
  obtain ⟨hwords, howner⟩ := Prod.mk.inj (hheads.read.trans hread)
  obtain ⟨-, -, hnone⟩ | ⟨-, hfound, hcounted, -⟩ := step_cases m.line m.state h.peek
  · cases hnone.symm.trans hsign
  have hact : (act m.line m.state (.sign sign)).2 = [.qualified a.owner (a.routine.kind true)
      (a.routine.kind (m.state.units.head? == some .classUnit)) a.name a.line] := by
    rw [act, endHeader, hheads.pending]
    simp only [hwords, hdeclared, howner, hline]
    rfl
  refine ⟨a.routine.kind (m.state.units.head? == some .classUnit), ?_⟩
  show Draft.marks _ (m.found ++ (Verilog.step m.line m.state c ch).found) = _
  rw [hfound, eq_sign_of_counted (hcounted.symm.trans hsign), hact, Draft.marks_append]
  rfl

/-- **Where its header ends, the routine is reported once**, held by the first class of its owner's
name at the top, or by what is open if there is none. -/
theorem Moment.EndsHeader.occurrences (h : m.EndsHeader a c ch) :
    ∃ kind, (m.step c ch).draft.occurrences.Perm (m.draft.occurrences
      ++ [Report.heldBy (m.draft.ownersOf a.owner)
        ⟨kind, { name := a.name, line := a.line, kind := kind }⟩]) := by
  obtain ⟨free, hdraft⟩ := h.draft_step
  rw [hdraft]
  exact ⟨_, Draft.occurrences_mark_qualified m.draft _ _ free a.name a.line⟩

/-- The first class of its owner's name at the top has the routine as a member. -/
lemma Moment.EndsHeader.classes (h : m.EndsHeader a c ch) {place : Nat} {first : Class}
    (hplace : m.draft.document.classIndex? a.owner = some place)
    (hfirst : (m.draft.document.get .classes)[place]? = some (.ofClass first)) :
    ((m.step c ch).draft.document.get .classes)[place]? = some (.ofClass (a.addTo first)) := by
  obtain ⟨free, hdraft⟩ := h.draft_step
  rw [hdraft]
  exact Draft.classes_mark_qualified_first hplace hfirst _ free a.name a.line

/-- What is filed at a moment stays in the document, whatever is read later on. -/
lemma Moment.exists_occurrences_later (h : ReflTransGen (Moment.Next lines) m m') :
    ∃ later, m'.draft.occurrences.Perm (m.draft.occurrences ++ later) := by
  obtain ⟨further, hfurther⟩ := (Moment.grows_of_later h).found
  obtain ⟨later, hlater, -⟩ := Draft.occurrences_marks m.draft further
  refine ⟨later, ?_⟩
  show (Draft.marks _ m'.found).occurrences.Perm _
  rw [← hfurther, Draft.marks_append]
  exact hlater

end Moments

end Verilog

namespace Language

open Verilog (Reached Attachment)

variable {language : Language} {lines : List (List Char)} {m : Verilog.Moment} {a : Attachment}
  {c : Cursor} {ch : Char}

/-- The document of a source is what the marks found at its end make. -/
lemma scan_verilog_of_atEnd (hlanguage : language = verilog ∨ language = systemVerilog)
    (h : Reached lines m) (hend : m.AtEnd lines) :
    (language.scan (lines.map String.ofList)).scope = m.draft.finish.scope := by
  have hfinish : m.draft.finish = Document.ofMarks Verilog.legend (Verilog.marks lines) := by
    rw [Verilog.Moment.draft, Reached.found_of_atEnd h hend]
    rfl
  rw [hfinish]
  obtain rfl | rfl := hlanguage <;>
    (rw [scan, map_toList_ofList]; rfl)

/-- **Where a routine declared outside its class is filed.** Let the header of a task or function
end that names a class directly in front of its own name, where the class was closed: at the top, or
in the innermost unit that is open. The routine is reported exactly once. It is a member of the
first class of that name at the top, and stays one, or it is filed in the open units if there is
none. So it is a member of the class that was closed there just if no unit is open.

**Proof sketch.** Where the header ends, the routine is found with its owner, and filed once
(`Verilog.Moment.EndsHeader.occurrences`). What is found later on takes nothing away, and only adds
further routines to the class (`Verilog.Reached.attached`). -/
theorem scan_verilog_owner (hlanguage : language = verilog ∨ language = systemVerilog)
    (h : Reached lines m) (hends : m.EndsHeader a c ch) {owner : Class}
    (hclosed : m.draft.closedNamed? a.owner = some owner) :
    ∃ o later, (language.scan (lines.map String.ofList)).occurrences.Perm
        (m.draft.occurrences ++ o :: later)
      ∧ o.tag.name = a.name ∧ o.tag.line = a.line ∧ o.holders = m.draft.ownersOf a.owner
      ∧ (o.holders = owner.tag :: holdersOf m.draft.opened ↔ m.draft.opened = [])
      ∧ ∀ place first, m.draft.document.classIndex? a.owner = some place →
        (m.draft.document.get .classes)[place]? = some (.ofClass first) →
        ∃ added : List Attachment, (∀ b ∈ added, b.Declared lines ∧ b.owner = first.name)
          ∧ ((language.scan (lines.map String.ofList)).get .classes)[place]?
            = some (.ofClass (added.foldl (fun c a => a.addTo c) (a.addTo first))) := by
  have hstep : Reached lines (m.step c ch) := h.tail (.step hends.cursor hends.peek)
  obtain ⟨last, hlater, hend⟩ := hstep.exists_end
  have hscan := scan_verilog_of_atEnd hlanguage (hstep.trans hlater) hend
  obtain ⟨kind, hreported⟩ := hends.occurrences
  obtain ⟨later, hafter⟩ := Verilog.Moment.exists_occurrences_later hlater
  refine ⟨Report.heldBy (m.draft.ownersOf a.owner)
      ⟨kind, { name := a.name, line := a.line, kind := kind }⟩, later, ?_,
    Tag.name_heldBy _ _, Tag.line_heldBy _ _, rfl, Draft.ownersOf_eq_iff hclosed, ?_⟩
  · have hfinish := last.draft.occurrences_finish
    rw [Document.occurrences, ← hscan] at hfinish
    refine hfinish.trans (hafter.trans ((hreported.append_right later).trans (List.Perm.of_eq ?_)))
    rw [List.append_assoc, List.singleton_append]
  · intro place first hplace hfirst
    obtain ⟨added, hadded, hlast⟩ := hstep.attached hlater (hends.classes hplace hfirst)
    refine ⟨added, hadded, ?_⟩
    rw [Document.get, hscan]
    exact getElem?_of_isPrefix (Draft.classes_finish_isPrefix last.draft) hlast

/-- A task is declared behind its class, and a class of the same name stands in a package.

**Proof sketch.** The last step of the header is the 33rd. The class on line 4 is closed there and
no class is open, so the task is held by that class alone. -/
theorem scan_verilog_owner_task :
    let lines := ["package p;", "class A;", "endclass", "endpackage", "class A;", "endclass",
      "task A::f();", "endtask"]
    ∃ (m : Verilog.Moment) (a : Attachment) (c : Cursor) (ch : Char) (owner : Class),
      Reached (lines.map String.toList) m ∧ m.EndsHeader a c ch
      ∧ m.draft.closedNamed? a.owner = some owner ∧ owner.tag.line = 4 ∧ m.draft.opened = []
      ∧ ∃ o later, (verilog.scan ((lines.map String.toList).map String.ofList)).occurrences.Perm
          (m.draft.occurrences ++ o :: later)
        ∧ o.tag.name = "f" ∧ o.holders = [owner.tag] := by
  intro lines
  have hm : Reached (lines.map String.toList)
      (Verilog.Moment.after (lines.map String.toList) 33 {}) := Reached.after .refl 33
  let a : Attachment := ⟨.task, "A", "f", 6, [.word "A", .colons, .word "f"]⟩
  have hends : (Verilog.Moment.after (lines.map String.toList) 33 {}).EndsHeader a
      ⟨"task A::f".toList.reverse, "();".toList⟩ '(' := by
    refine ⟨⟨⟨.routine .task false false, 6, ["f"], some "A"⟩, false,
        ⟨by decide +kernel, ⟨false, false, rfl⟩, ⟨[.word "package", .word "p", .sign ';',
          .word "class", .word "A", .sign ';', .word "endclass", .word "endpackage",
          .word "class", .word "A", .sign ';', .word "endclass"], "task", ?_, rfl⟩, by simp [a],
          rfl⟩, rfl, rfl⟩,
      ⟨[], [], rfl, by simp, rfl⟩, by decide, by decide, ?_, rfl, '(', ?_⟩ <;> decide +kernel
  have hclosed : ((Verilog.Moment.after (lines.map String.toList) 33 {}).draft.closedNamed?
      "A").any (·.tag.line == 4) = true := by decide +kernel
  obtain ⟨owner, howner, hline⟩ := (Option.any_eq_true _ _).1 hclosed
  have hopened : (Verilog.Moment.after (lines.map String.toList) 33 {}).draft.opened = [] :=
    List.isEmpty_iff.1 (by decide +kernel)
  obtain ⟨o, later, hperm, hname, -, -, hholders, -⟩ :=
    scan_verilog_owner (.inl rfl) hm hends howner
  refine ⟨_, a, _, _, owner, hm, hends, howner, eq_of_beq hline, hopened, o, later, hperm, hname,
    ?_⟩
  rw [hholders.2 hopened, hopened]
  rfl

/-- A function is declared behind its class in a package, and is taken for a function of the
package.

**Proof sketch.** The last step of the header is the 37th, and the class is among those that were
closed. The marks are looked through: nothing that is called like the function is held by the class.
-/
theorem scan_verilog_owner_package :
    let lines := ["package p;", "class Owner;", "  extern function void f();", "endclass",
      "function void Owner::f();", "endfunction", "endpackage"]
    ∃ (m : Verilog.Moment) (a : Attachment) (c : Cursor) (ch : Char) (owner : Class),
      Reached (lines.map String.toList) m ∧ m.EndsHeader a c ch
      ∧ m.draft.closedNamed? a.owner = some owner
      ∧ (∃ o ∈ (verilog.scan lines).occurrences, o.tag.name = a.name ∧ o.tag.line = a.line)
      ∧ ∀ o ∈ (verilog.scan lines).occurrences, o.tag.name = a.name → owner.tag ∉ o.holders := by
  intro lines
  have hm : Reached (lines.map String.toList)
      (Verilog.Moment.after (lines.map String.toList) 37 {}) := Reached.after .refl 37
  let a : Attachment :=
    ⟨.function, "Owner", "f", 4, [.word "void", .word "Owner", .colons, .word "f"]⟩
  have hends : (Verilog.Moment.after (lines.map String.toList) 37 {}).EndsHeader a
      ⟨"function void Owner::f".toList.reverse, "();".toList⟩ '(' := by
    refine ⟨⟨⟨.routine .function false false, 4, ["f"], some "Owner"⟩, false,
        ⟨by decide +kernel, ⟨false, false, rfl⟩, ⟨[.word "package", .word "p", .sign ';',
          .word "class", .word "Owner", .sign ';', .word "extern", .word "function",
          .word "void", .word "f", .sign '(', .other, .sign ';', .word "endclass"], "function",
          ?_, rfl⟩, by simp [a], rfl⟩, rfl, rfl⟩,
      ⟨[.word "void"], [], rfl, by simp, rfl⟩, by decide, by decide, ?_, rfl, '(', ?_⟩ <;>
      decide +kernel
  have hclosed : ((Verilog.Moment.after (lines.map String.toList) 37 {}).draft.closedNamed?
      "Owner").any (·.tag.name == "Owner") = true := by decide +kernel
  obtain ⟨owner, howner, hname⟩ := (Option.any_eq_true _ _).1 hclosed
  have hnone : ∀ o ∈ (verilog.scan lines).occurrences, o.tag.name = "f" →
      ∀ holder ∈ o.holders, holder.name ≠ "Owner" := by decide +kernel
  exact ⟨_, a, _, _, owner, hm, hends, howner, by decide +kernel, fun o ho hf hmem =>
    hnone o ho hf owner.tag hmem (eq_of_beq hname)⟩

end Language

end Outliner
