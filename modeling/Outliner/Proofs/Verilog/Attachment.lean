import Mathlib.Tactic.Lemma
import Outliner.Proofs.LastClass
import Outliner.Proofs.Verilog.Headings

set_option autoImplicit false

/-!
# Routines declared outside their class

A task or function may be declared outside the class that it belongs to, if it names the class in
front of its own name. A class that is filed already learns further members in this way alone. So
each member that it has at the end of a source and that it did not have when it was closed comes
from the header of a routine. The class and a pair of colons stand directly in front of its name
there, unless other tokens stray between them.

## Main definitions

* `Outliner.Mark.editsClasses` — whether a mark may change a class that is filed already.
* `Outliner.Verilog.Attachment`, `Outliner.Verilog.Attachment.Declared` — a routine that names its
  class, and that a source declares it.

## Main results

* `Outliner.Verilog.act_found` — where a token may edit a filed class.
* `Outliner.Verilog.Moment.Next.classes`, `Outliner.Verilog.Reached.attached` — what is added to a
  filed class next, and later on.
* `Outliner.Language.scan_verilog_attached` — where the members of a filed class come from.
-/

namespace Outliner

/-- What stands in a list stands at the same place in a list that begins with it. -/
lemma getElem?_of_isPrefix {α : Type} {a b : List α} {i : Nat} {x : α} (h : a <+: b)
    (hx : a[i]? = some x) : b[i]? = some x := by
  obtain ⟨rest, rfl⟩ := h
  rw [List.getElem?_append_left (List.getElem?_eq_some_iff.1 hx).1, hx]

/-! ## Classes that are filed already -/

/-- Whether the mark may change a class that is filed already. -/
def Mark.editsClasses : Mark → Bool
  | .method _ _ _ | .qualified _ _ _ _ _ => true
  | _ => false

namespace Draft

variable {d : Draft} {m : Mark} {list : List Mark}

/-- What is added at the top is added behind all others of its kind. -/
lemma get_add_isPrefix (kind other : Kind) (e : Element) (d : Document) :
    d.get other <+: (d.add kind e).get other := by
  rw [Document.get, Document.get, Document.add, Scope.get_add]
  split
  · next h => exact h ▸ List.prefix_append _ _
  · exact List.prefix_refl _

/-- Filing adds classes at the end only. -/
lemma classes_file_isPrefix (kind : Kind) (e : Element) (d : Draft) :
    d.document.get .classes <+: (d.file kind e).document.get .classes := by
  unfold file
  split
  · exact get_add_isPrefix kind .classes e d.document
  · exact List.prefix_refl _

/-- Leaving a class adds classes at the end only. -/
lemma classes_leave_isPrefix (d : Draft) :
    d.document.get .classes <+: d.leave.document.get .classes := by
  unfold leave
  split
  · exact List.prefix_refl _
  · dsimp only
    split
    · exact get_add_isPrefix .classes .classes _ d.document
    · exact get_add_isPrefix _ .classes _ d.document
  · next innermost outer _ _ =>
    exact classes_file_isPrefix innermost.group (.ofClass innermost.body) ⟨d.document, outer⟩

/-- **A mark that edits no class leaves the filed classes as they are.** -/
lemma classes_mark_isPrefix (d : Draft) (h : m.editsClasses = false) :
    d.document.get .classes <+: (d.mark m).document.get .classes := by
  cases m with
  | leaf kind name line => exact classes_file_isPrefix kind _ d
  | atTop kind name line => exact get_add_isPrefix kind .classes _ d.document
  | once kind name line =>
    rw [mark]
    split
    · exact List.prefix_refl _
    · exact get_add_isPrefix kind .classes _ d.document
  | enter header => exact List.prefix_refl _
  | leave => exact classes_leave_isPrefix d
  | forget => exact List.prefix_refl _
  | method owner name line => cases h
  | qualified owner owned free name line => cases h

/-- Marks that edit no filed class add classes at the end only. -/
lemma classes_marks_isPrefix (d : Draft) (h : ∀ m ∈ list, m.editsClasses = false) :
    d.document.get .classes <+: (d.marks list).document.get .classes := by
  induction list generalizing d with
  | nil => exact List.prefix_refl _
  | cons m list ih =>
    exact (classes_mark_isPrefix d (h m List.mem_cons_self)).trans
      (ih (d.mark m) fun m hm => h m (List.mem_cons_of_mem _ hm))

/-- At the end of a source the filed classes stay as they are. -/
lemma classes_finish_isPrefix (d : Draft) :
    d.document.get .classes <+: d.finish.get .classes :=
  classes_marks_isPrefix d fun m hm => by rw [List.eq_of_mem_replicate hm]; rfl

/-- **A qualified mark adds a member to the first class of the owner's name, or leaves the filed
classes as they are.**

**Proof sketch.** If a class of the owner's name is filed, the first one gets the member; it is the
class at the place, or that one stays. If none is filed, the leaf is filed, which adds classes at
the end only. -/
lemma classes_mark_qualified {place : Nat} {e : Element} (owner : String) (owned free : Kind)
    (name : String) (line : Nat) (h : (d.document.get .classes)[place]? = some e) :
    ((d.mark (.qualified owner owned free name line)).document.get .classes)[place]? = some e
      ∨ ∃ c : Class, e = .ofClass c ∧ c.name = owner
        ∧ ((d.mark (.qualified owner owned free name line)).document.get .classes)[place]?
          = some (.ofClass (c.add owned (leafOf owned name line))) := by
  rw [mark]
  split
  · cases hindex : d.document.classIndex? owner with
    | none =>
      simp only [Document.modifyClassNamed, hindex]
      exact .inl h
    | some index =>
      have hget : ((d.document.modifyClassAt index (·.add owned (leafOf owned name line))).get
          .classes)[place]?
          = if index = place then
              some (e.modifyClass (·.add owned (leafOf owned name line)))
            else some e := by
        rw [Document.get] at h ⊢
        rw [Document.modifyClassAt, Scope.get_modifyAt, if_pos rfl, List.getElem?_modify, h]
        split <;> rfl
      simp only [Document.modifyClassNamed, hindex, hget]
      split
      · next hplace =>
        subst hplace
        obtain ⟨hlt, hnamed, -⟩ := List.findIdx?_eq_some_iff_getElem.1 hindex
        obtain rfl : (d.document.scope.get .classes)[index] = e :=
          Option.some.inj ((List.getElem?_eq_getElem hlt).symm.trans h)
        refine .inr ?_
        cases hmember : (d.document.scope.get .classes)[index] with
        | leaf tag =>
          rw [hmember] at hnamed
          cases hnamed
        | branch tag members =>
          rw [hmember] at hnamed
          exact ⟨⟨tag, members⟩, rfl, eq_of_beq hnamed, rfl⟩
      · exact .inl rfl
  -- no class is called like the owner
  · exact .inl (getElem?_of_isPrefix (classes_file_isPrefix _ _ d) h)

end Draft

namespace Verilog

open Relation (ReflTransGen)

section Headers

variable {s : State} {line : Nat} {token : Token} {header : PartialHeader} {routine : Routine}

/-! ## What a token finds -/

/-- The end of the header of a routine with an owner, and the mark of the routine. -/
structure EndsQualified (s : State) (header : PartialHeader) (routine : Routine)
    (owner name : String) (found : List Mark) : Prop where
  /-- The header is being read. -/
  pending : s.header = some header
  /-- It is that of a routine. -/
  isOf : header.IsOf routine
  /-- Its last word is the name. -/
  named : header.words.head? = some name
  /-- It names its owner. -/
  owned : header.owner = some owner
  /-- The routine is found. -/
  reports : ∃ free, found = [.qualified owner (routine.kind true) free name header.line]

/-- Where no routine ends, no filed class is edited.

**Proof sketch.** By what the header declares: a substitution and a design unit are marked, and
neither edits a class. -/
lemma endHeader_found_other
    (h : ∀ header, s.header = some header → ∀ routine, ¬ header.IsOf routine) :
    ∀ mark ∈ (endHeader s).2, mark.editsClasses = false := by
  intro mark hmark
  unfold endHeader at hmark
  cases hheader : s.header with
  | none =>
    rw [hheader] at hmark
    cases hmark
  | some header =>
    rw [hheader] at hmark
    obtain ⟨declared, line, _ | ⟨name, words⟩, owner⟩ := header
    · cases hmark
    · cases declared with
      | definition => rw [List.mem_singleton.1 hmark]; rfl
      | designUnit kind => rw [List.mem_singleton.1 hmark]; rfl
      | routine kind isPrototype isExternal => exact absurd ⟨_, _, rfl⟩ (h _ hheader kind)

/-- Where a header ends, no filed class is edited, or it is that of a routine with an owner.

**Proof sketch.** By whether the header is that of a routine. If it has an owner and is not
external, its mark is a qualified one. -/
lemma endHeader_found (s : State) :
    (∀ mark ∈ (endHeader s).2, mark.editsClasses = false)
      ∨ ∃ header routine owner name, EndsQualified s header routine owner name (endHeader s).2 := by
  by_cases hroutine : ∃ header routine, s.header = some header ∧ header.IsOf routine
  · obtain ⟨⟨declared, line, words, owner⟩, routine, hheader, isPrototype, isExternal, rfl⟩ :=
      hroutine
    unfold endHeader
    rw [hheader]
    cases words with
    | nil => exact .inl (List.forall_mem_nil _)
    | cons name words =>
      cases isExternal with
      | true => exact .inl (List.forall_mem_nil _)
      | false =>
        cases owner with
        | none =>
          refine .inl fun mark hmark => ?_
          rw [List.mem_singleton.1 hmark]
          rfl
        | some owner =>
          exact .inr ⟨_, routine, owner, name, hheader, ⟨_, _, rfl⟩, rfl, rfl, _, rfl⟩
  · exact .inl (endHeader_found_other fun header hheader routine h =>
      hroutine ⟨header, routine, hheader, h⟩)

/-- A word of a header edits no filed class. -/
lemma headerWord_found (s : State) (header : PartialHeader) (text : String) :
    ∀ mark ∈ (headerWord s header text).2, mark.editsClasses = false := by
  obtain ⟨next, h, -⟩ | ⟨next, h, hdeclared, hother⟩ := headerWord_cases s header text
  · rw [h]
    exact List.forall_mem_nil _
  · rw [h]
    refine endHeader_found_other fun ending hending routine hroutine => ?_
    obtain rfl := Option.some.inj hending
    obtain ⟨isPrototype, isExternal, hof⟩ := hroutine
    exact hother routine isPrototype isExternal (hdeclared.symm.trans hof)

/-- A word outside headers and bodies edits no filed class. -/
lemma freeWord_found (s : State) (line : Nat) (text : String) :
    ∀ mark ∈ (freeWord s line text).2, mark.editsClasses = false := by
  obtain ⟨declared, h, -⟩ | ⟨outer, h⟩ | h := freeWord_cases s line text
  · rw [h]
    exact List.forall_mem_nil _
  · rw [h]
    exact List.forall_mem_singleton.2 rfl
  · rw [h]
    exact List.forall_mem_nil _

/-- A word edits no filed class. -/
lemma word_found (s : State) (line : Nat) (text : String) :
    ∀ mark ∈ (word s line text).2, mark.editsClasses = false := by
  unfold word
  split
  · exact List.forall_mem_nil _
  · split_ifs
    · exact List.forall_mem_nil _
    · split
      · exact headerWord_found s _ text
      · exact freeWord_found s line text

/-- **A token edits no filed class, or it ends the header of a routine with an owner.** -/
theorem act_found (line : Nat) (s : State) (token : Token) :
    (∀ mark ∈ (act line s token).2, mark.editsClasses = false)
      ∨ ∃ ch header routine owner name, token = .sign ch
        ∧ EndsQualified s header routine owner name (act line s token).2 := by
  cases token with
  | word text => exact .inl (word_found s line text)
  | sign ch =>
    obtain hother | ⟨header, routine, owner, name, h⟩ := endHeader_found s
    · exact .inl hother
    · exact .inr ⟨ch, header, routine, owner, name, rfl, h⟩
  | _ => exact .inl (List.forall_mem_nil _)

end Headers

/-! ## The headers of a source -/

/-- A routine that names the class it belongs to. -/
structure Attachment where
  /-- The kind of routine. -/
  routine : Routine
  /-- The name of the class. -/
  owner : String
  /-- The name of the routine. -/
  name : String
  /-- The line on which its header begins. -/
  line : Nat
  /-- The tokens of its header behind the keyword. -/
  tokens : List Token

/-- The class with the routine as a member. -/
def Attachment.addTo (a : Attachment) (c : Class) : Class :=
  c.add (a.routine.kind true) (Draft.leafOf (a.routine.kind true) a.name a.line)

/-- The source declares the routine: at some moment its header was read up to a sign that ends it,
and what was read off its tokens is its name and its owner. -/
def Attachment.Declared (lines : List (List Char)) (a : Attachment) : Prop :=
  ∃ m header c ch sign words, Reached lines m ∧ m.Heads header a.routine a.tokens
    ∧ header.line = a.line ∧ readHeading a.tokens = (a.name :: words, some a.owner)
    ∧ m.cursor = some c ∧ c.peek? = some ch ∧ tokensAt m.state c ch = [.sign sign]

section Moments

variable {lines : List (List Char)} {m m' : Moment} {header : PartialHeader} {routine : Routine}
  {tokens : List Token} {place : Nat}

/-! ## Where the members of a filed class come from -/

/-- The end of a line edits no filed class. -/
lemma endLine_found (s : State) : ∀ mark ∈ (endLine s).2, mark.editsClasses = false := by
  unfold endLine
  split
  · next hdefinition =>
    refine endHeader_found_other fun header hheader routine hroutine => ?_
    obtain ⟨isPrototype, isExternal, hdeclared⟩ := hroutine
    rw [hheader, Option.any_some, hdeclared] at hdefinition
    cases hdefinition
  · exact List.forall_mem_nil _

/-- **What comes next leaves each filed class as it is, or adds a routine to it** that the source
declares, and that names the class.

**Proof sketch.** The end of a line edits no class. A step edits one only if its token is a sign at
which the header of a routine with an owner ends, and then it adds the routine to the first class of
that name (`classes_mark_qualified`). What the header has read by then are the tokens behind its
keyword. -/
theorem Moment.Next.classes (hnext : m.Next lines m') (h : Reached lines m) {e : Element}
    (he : (m.draft.document.get .classes)[place]? = some e) :
    (m'.draft.document.get .classes)[place]? = some e
      ∨ ∃ (a : Attachment) (c : Class), a.Declared lines ∧ e = .ofClass c ∧ a.owner = c.name
        ∧ (m'.draft.document.get .classes)[place]? = some (.ofClass (a.addTo c)) := by
  cases hnext with
  | line hcursor htext => exact .inl he
  | @leave c hcursor hend =>
    have hdraft : m.leave.draft = m.draft.marks (endLine m.state).2 := Draft.marks_append ..
    rw [hdraft]
    exact .inl (getElem?_of_isPrefix
      (Draft.classes_marks_isPrefix m.draft (endLine_found m.state)) he)
  | @step c ch hcursor hch =>
    have hdraft : (m.step c ch).draft = m.draft.marks (Verilog.step m.line m.state c ch).found :=
      Draft.marks_append ..
    rw [hdraft]
    obtain ⟨-, hfound, -⟩ | ⟨-, hfound, hcounted, -⟩ := step_cases m.line m.state hch
    · rw [hfound]
      exact .inl he
    rw [hfound]
    obtain hother | ⟨sign, header, routine, owner, name, hsign, hends⟩ :=
      act_found m.line m.state (tokenAt c ch)
    · exact .inl (getElem?_of_isPrefix (Draft.classes_marks_isPrefix m.draft hother) he)
    -- the header of a routine with an owner is at its end
    obtain ⟨free, hreports⟩ := hends.reports
    rw [hreports]
    obtain hsame | ⟨body, rfl, hname, hadded⟩ := Draft.classes_mark_qualified owner
      (routine.kind true) free name header.line he
    · exact .inl hsame
    obtain ⟨tokens, hheads⟩ := h.heads hends.pending hends.isOf
    obtain ⟨words, hwords⟩ := List.head?_eq_some_iff.1 hends.named
    have hread : readHeading tokens = (name :: words, some owner) := by
      rw [← hheads.read, hwords, hends.owned]
    have hcountedSign : tokensAt m.state c ch = [.sign sign] := by
      rw [hcounted, hsign]
      rfl
    exact .inr ⟨⟨routine, owner, name, header.line, tokens⟩, body,
      ⟨m, header, c, ch, sign, words, h, hheads, rfl, hread, hcursor, hch, hcountedSign⟩, rfl,
      hname.symm, hadded⟩

/-- The name of a routine with an owner is directly qualified unless tokens stray. -/
lemma Attachment.Declared.directlyQualified_iff {a : Attachment} (h : a.Declared lines) :
    DirectlyQualified a.tokens a.owner a.name ↔ ¬ Stray a.tokens := by
  obtain ⟨_, _, _, _, _, words, _, _, _, hread, _⟩ := h
  exact Verilog.directlyQualified_iff hread

/-- A class keeps its name when routines are added. -/
lemma name_foldl_addTo (added : List Attachment) (c : Class) :
    (added.foldl (fun c a => a.addTo c) c).name = c.name := by
  induction added generalizing c with
  | nil => rfl
  | cons a added ih => exact ih (a.addTo c)

/-- **What is added to a filed class later on.**

**Proof sketch.** Induction on what comes next. Each time the class stays as it is or one routine is
added to it, and it keeps its name. -/
theorem Reached.attached (h : Reached lines m) (hlater : ReflTransGen (Moment.Next lines) m m')
    {c : Class} (hc : (m.draft.document.get .classes)[place]? = some (.ofClass c)) :
    ∃ added : List Attachment, (∀ a ∈ added, a.Declared lines ∧ a.owner = c.name)
      ∧ (m'.draft.document.get .classes)[place]?
        = some (.ofClass (added.foldl (fun c a => a.addTo c) c)) := by
  induction hlater with
  | refl => exact ⟨[], List.forall_mem_nil _, hc⟩
  | @tail m₁ m₂ hlater hnext ih =>
    obtain ⟨added, hadded, hclass⟩ := ih
    obtain hsame | ⟨a, body, hdeclared, hbody, howner, hnow⟩ :=
      hnext.classes (h.trans hlater) hclass
    · exact ⟨added, hadded, hsame⟩
    obtain rfl : added.foldl (fun c a => a.addTo c) c = body :=
      Option.some.inj (congrArg Element.class? hbody)
    rw [name_foldl_addTo] at howner
    refine ⟨added ++ [a], fun b hb => ?_, ?_⟩
    · rcases List.mem_append.1 hb with hb | hb
      · exact hadded b hb
      · rw [List.mem_singleton.1 hb]
        exact ⟨hdeclared, howner⟩
    · rw [List.foldl_append]
      exact hnow

end Moments

end Verilog

namespace Language

open Verilog (Reached Attachment DirectlyQualified Stray)

/-- **Where the members of a filed class come from.** Let a class be closed and filed at some moment
of reading a source. What it has in the document of the source beside the members that it had then
are tasks and functions that the source declares and whose headers name the class: the class is the
last word in front of the last pair of colons, and the name is the last word of the header. The two
tokens directly in front of the name are the class and the pair of colons, unless other tokens stray
between the class and the colons or between the colons and the name.

**Proof sketch.** A filed class changes only where the header of a routine ends (`act_found`). What
is known of a header was read off its tokens (`Verilog.Reached.heads`), and from these it is told
whether the name is directly qualified (`Verilog.directlyQualified_iff`). By induction on what comes
next (`Verilog.Reached.attached`), this is so up to the end of the source, which leaves filed
classes as they are. -/
theorem scan_verilog_attached {language : Language}
    (hlanguage : language = verilog ∨ language = systemVerilog) {lines : List (List Char)}
    {m : Verilog.Moment} {place : Nat} {c : Class} (h : Reached lines m)
    (hclass : (m.draft.document.get .classes)[place]? = some (.ofClass c)) :
    ∃ added : List Attachment,
      ((language.scan (lines.map String.ofList)).get .classes)[place]?
        = some (.ofClass (added.foldl (fun c a => a.addTo c) c))
      ∧ ∀ a ∈ added, a.Declared lines ∧ a.owner = c.name
        ∧ (DirectlyQualified a.tokens c.name a.name ↔ ¬ Stray a.tokens) := by
  obtain ⟨last, hlater, hend⟩ := h.exists_end
  obtain ⟨added, hadded, hlast⟩ := h.attached hlater hclass
  have hlines : (lines.map String.ofList).map String.toList = lines := by
    simp [Function.comp_def]
  have hfinish : last.draft.finish = Document.ofMarks Verilog.legend (Verilog.marks lines) := by
    rw [Verilog.Moment.draft, Reached.found_of_atEnd (h.trans hlater) hend]
    rfl
  have hscan : (language.scan (lines.map String.ofList)).get .classes
      = last.draft.finish.get .classes := by
    rw [hfinish]
    obtain rfl | rfl := hlanguage <;>
      (rw [scan, hlines]; rfl)
  refine ⟨added, ?_, fun a ha => ?_⟩
  · rw [hscan]
    exact getElem?_of_isPrefix (Draft.classes_finish_isPrefix last.draft) hlast
  · obtain ⟨hdeclared, howner⟩ := hadded a ha
    rw [← howner]
    exact ⟨hdeclared, rfl, hdeclared.directlyQualified_iff⟩

/-- A function is declared behind its class.

**Proof sketch.** The class is filed at the moment behind its end, which is computed, and the
general theorem applies to it. -/
theorem scan_verilog_attached_function :
    let lines := ["class A;", "endclass", "function A::f();", "endfunction"]
    ∃ m c, Reached (lines.map String.toList) m
      ∧ (m.draft.document.get .classes)[0]? = some (.ofClass c)
      ∧ ∃ added : List Attachment,
        ((systemVerilog.scan ((lines.map String.toList).map String.ofList)).get .classes)[0]?
          = some (.ofClass (added.foldl (fun c a => a.addTo c) c))
        ∧ ∀ a ∈ added, a.Declared (lines.map String.toList) ∧ a.owner = c.name
          ∧ (DirectlyQualified a.tokens c.name a.name ↔ ¬ Stray a.tokens) := by
  intro lines
  have hm : Reached (lines.map String.toList)
      (Verilog.Moment.after (lines.map String.toList) 9 {}) := Reached.after .refl 9
  have hfiled : (((Verilog.Moment.after (lines.map String.toList) 9 {}).draft.document.get
      .classes)[0]?.bind Element.class?).isSome = true := by decide +kernel
  obtain ⟨c, hc⟩ := Option.isSome_iff_exists.1 hfiled
  obtain ⟨e, he, hclass⟩ := Option.bind_eq_some_iff.1 hc
  obtain rfl : e = .ofClass c := Element.eq_ofClass hclass
  exact ⟨_, c, hm, he, scan_verilog_attached (.inr rfl) hm he⟩

/-- A function whose type belongs to a class is taken for a member of the class.

**Proof sketch.** The moment at the parenthesis is computed, and so are the tokens of the header.
They are stray, because another name stands behind the colons. -/
theorem scan_verilog_qualified_type :
    let lines := ["class Owner;", "endclass", "function Owner::some_type name(int x);",
      "endfunction"]
    ∃ a : Attachment, a.Declared (lines.map String.toList) ∧ a.owner = "Owner" ∧ a.name = "name"
      ∧ ¬ DirectlyQualified a.tokens a.owner a.name
      ∧ ∃ o ∈ (verilog.scan lines).occurrences, o.tag.name = a.name ∧ o.tag.line = a.line
        ∧ o.tag.scope = some a.owner := by
  intro lines
  have hm : Reached (lines.map String.toList)
      (Verilog.Moment.after (lines.map String.toList) 17 {}) := Reached.after .refl 17
  have hstray : Stray [.word "Owner", .colons, .word "some_type", .word "name"] :=
    ⟨[.word "Owner"], [.word "some_type", .word "name"], rfl, by decide, by decide⟩
  let header : Verilog.PartialHeader :=
    { declared := .routine .function false false, line := 2, words := ["name", "some_type"],
      owner := some "Owner" }
  let a : Attachment :=
    ⟨.function, "Owner", "name", 2,
      [.word "Owner", .colons, .word "some_type", .word "name"]⟩
  have hheads : (Verilog.Moment.after (lines.map String.toList) 17 {}).Heads header a.routine
      a.tokens := by
    refine ⟨by decide +kernel, ⟨false, false, rfl⟩,
      ⟨[.word "class", .word "Owner", .sign ';', .word "endclass"], "function", ?_, rfl⟩,
      by simp [a], rfl⟩
    decide +kernel
  have hdeclared : a.Declared (lines.map String.toList) := by
    refine ⟨_, header, ⟨"function Owner::some_type name".toList.reverse, "(int x);".toList⟩, '(',
      '(', ["some_type"], hm, hheads, rfl, rfl, ?_, rfl, ?_⟩
    · decide +kernel
    · decide +kernel
  exact ⟨a, hdeclared, rfl, rfl, fun h => hdeclared.directlyQualified_iff.1 h hstray,
    by decide +kernel⟩

end Language

end Outliner
