import Outliner.Proofs.Filing
import Outliner.Proofs.Order

set_option autoImplicit false

/-!
# Marks that come in the right order

A class is filed when it is left, after all that was met within it. It stands in its group in the
order of the lines all the same, if the marks come in the right order: among the elements reported
under one kind the lines do not decrease, nothing that is reported after the beginning of a class
begins before it, and nothing is filed past an open class under its kind.

## Main definitions

* `Outliner.Mark.Fits`, `Outliner.Mark.Precedes` — the kinds and the lines with which marks come in
  the right order.
* `Outliner.Draft.InOrder` — what is filed and what is open is in order.

## Main results

* `Outliner.Draft.mark_inOrder`, `Outliner.Draft.marks_inOrder` — a mark, and a list of marks in the
  right order, keeps a draft in order.
* `Outliner.Document.ofMarks_inOrder` — such a list makes a document that is in order.
-/

namespace Outliner

/-! ## Marks -/

/-- The kinds under which open classes are to be filed, where no class is ever open. -/
def enteredNever : Kind → Prop := fun _ => False

/-- The kinds that the mark concerns are as they should be, where open classes are to be filed under
the kinds `entered`: only classes are filed under them, and no class is filed past an open one. -/
def Mark.Fits (entered : Kind → Prop) : Mark → Prop
  | .leaf _ _ _ => True
  | .atTop kind _ _ => ¬entered kind
  | .once kind _ _ => ¬entered kind
  | .enter header => entered header.group
  | .leave => True
  | .forget => True
  | .method _ _ _ => ¬entered .classes
  | .qualified _ _ _ _ _ => True

/-- Whether what is reported under the kind may have members. -/
def Holds (entered : Kind → Prop) (kind : Kind) : Prop := entered kind ∨ kind = .classes

/-- What the first mark reports begins no later than what the second one reports under the same
kind, and no later than all that the second one reports if it may have members. -/
def Mark.Precedes (entered : Kind → Prop) (m m' : Mark) : Prop :=
  ∀ r ∈ m.reports, ∀ r' ∈ m'.reports, r.group = r'.group ∨ Holds entered r.group →
    r.tag.line ≤ r'.tag.line

/-! ## Drafts -/

/-- The scope in which a class is filed when it is left, where `outer` are the classes around it. -/
def scopeAround (document : Document) : List OpenClass → Scope Element
  | [] => document.scope
  | holder :: _ => holder.body.members

/-- An open class is in order, and may be filed as it stands. -/
structure OpenClass.InOrder (entered : Kind → Prop) (document : Document) (outer : List OpenClass)
    (o : OpenClass) : Prop where
  /-- It is filed under one of the kinds. -/
  group : entered o.group
  /-- Its members are in order. -/
  body : (Element.ofClass o.body).Throughout Scope.InOrder
  /-- The classes filed before it begin no later. -/
  after : ∀ e ∈ (scopeAround document outer).get o.group, e.tag.line ≤ o.body.tag.line
  /-- The class around it begins no later. -/
  within : ∀ holder ∈ outer.head?, holder.body.tag.line ≤ o.body.tag.line

/-- The open classes are in order. -/
def OpenInOrder (entered : Kind → Prop) (document : Document) : List OpenClass → Prop
  | [] => True
  | o :: outer => o.InOrder entered document outer ∧ OpenInOrder entered document outer

/-- What is filed and what is open is in order. -/
structure Draft.InOrder (entered : Kind → Prop) (d : Draft) : Prop where
  /-- The groups at the top ascend. -/
  ascends : d.document.scope.Ascends
  /-- The classes that are filed are in order. -/
  below : d.document.Throughout Scope.InOrder
  /-- The classes that are open are in order. -/
  opened : OpenInOrder entered d.document d.opened

/-- What stands in a draft begins no later than what a mark reports under the same kind, and no
later than all that it reports if it may have members. -/
def Draft.Before (entered : Kind → Prop) (d : Draft) (m : Mark) : Prop :=
  ∀ o ∈ d.occurrences, ∀ r ∈ m.reports, o.group = r.group ∨ Holds entered o.group →
    o.tag.line ≤ r.tag.line

/-! ## Occurrences of what is filed -/

/-- An element of a group occurs under its kind. -/
lemma Scope.exists_occurrence {s : Scope Element} {kind : Kind} {e : Element}
    (h : e ∈ s.get kind) (holders : List Tag) :
    ∃ o ∈ s.occurrences holders, o.group = kind ∧ o.tag = e.tag := by
  obtain ⟨g, hg, rfl, he⟩ := mem_get h
  refine ⟨⟨e.tag, g.kind, holders⟩, List.mem_flatMap.2 ⟨g, hg, List.mem_flatMap.2 ⟨e, he, ?_⟩⟩, rfl,
    rfl⟩
  cases e with
  | leaf tag => rw [Element.occurrences_leaf]; exact List.mem_singleton.2 rfl
  | branch tag members => rw [Element.occurrences_branch]; exact List.mem_cons_self

/-- A member of a class occurs under its kind. -/
lemma Scope.exists_occurrence_member {s : Scope Element} {kind kind' : Kind} {c : Class}
    {e : Element}
    (hc : Element.ofClass c ∈ s.get kind) (he : e ∈ c.members.get kind') (holders : List Tag) :
    ∃ o ∈ s.occurrences holders, o.group = kind' ∧ o.tag = e.tag := by
  obtain ⟨g, hg, rfl, hclass⟩ := mem_get hc
  obtain ⟨o, ho, hgroup, htag⟩ := exists_occurrence he (c.tag :: holders)
  refine ⟨o, List.mem_flatMap.2 ⟨g, hg, List.mem_flatMap.2 ⟨_, hclass, ?_⟩⟩, hgroup, htag⟩
  rw [Element.ofClass, Element.occurrences_branch]
  exact List.mem_cons_of_mem _ ho

namespace Draft

variable {entered : Kind → Prop} {d : Draft}

/-- An element of the innermost scope is an occurrence of the draft. -/
lemma exists_occurrence_around {kind : Kind} {e : Element}
    (h : e ∈ (scopeAround d.document d.opened).get kind) :
    ∃ o ∈ d.occurrences, o.group = kind ∧ o.tag = e.tag := by
  obtain ⟨document, opened⟩ := d
  cases opened with
  | nil =>
    obtain ⟨o, ho, hof⟩ := Scope.exists_occurrence h []
    exact ⟨o, List.mem_append_left _ ho, hof⟩
  | cons innermost outer =>
    obtain ⟨o, ho, hof⟩ := Scope.exists_occurrence h
      (innermost.body.tag.heldBy (holdersOf outer) :: holdersOf outer)
    refine ⟨o, List.mem_append_right _ ?_, hof⟩
    rw [openOccurrences, occurrences_heldBy_ofClass]
    exact List.mem_append_right _ (List.mem_cons_of_mem _ ho)

/-- The innermost open class is an occurrence of the draft. -/
lemma exists_occurrence_innermost {innermost : OpenClass} (h : innermost ∈ d.opened.head?) :
    ∃ o ∈ d.occurrences, o.group = innermost.group ∧ o.tag.line = innermost.body.tag.line := by
  obtain ⟨document, opened⟩ := d
  cases opened with
  | nil => exact absurd h (by simp)
  | cons first outer =>
    obtain rfl : first = innermost := by simpa using h
    refine ⟨⟨first.body.tag.heldBy (holdersOf outer), first.group, holdersOf outer⟩,
      List.mem_append_right _ ?_, rfl, ?_⟩
    · rw [openOccurrences, occurrences_heldBy_ofClass]
      exact List.mem_append_right _ List.mem_cons_self
    · cases holdersOf outer <;> rfl

/-! ## Keeping the order -/

/-- Whatever is asked of members holds throughout a leaf. -/
lemma throughout_leafOf {P : Nat → Scope Element → Prop} (kind : Kind) (name : String)
    (line : Nat) :
    (leafOf kind name line).Throughout P := .leaf _

/-- The open classes stay in order where the lines at the top stay as they are, as far as classes
are filed there.

**Proof sketch.** Induction on the open classes. Only the outermost one is compared with what stands
at the top. -/
lemma openInOrder_of_lines {document document' : Document} {opened : List OpenClass}
    (h : OpenInOrder entered document opened)
    (hlines : ∀ kind, entered kind → ∀ e ∈ document'.scope.get kind,
      ∃ e' ∈ document.scope.get kind, e.tag.line = e'.tag.line) :
    OpenInOrder entered document' opened := by
  induction opened with
  | nil => trivial
  | cons o outer ih =>
    obtain ⟨ho, houter⟩ := h
    refine ⟨⟨ho.group, ho.body, fun e he => ?_, ho.within⟩, ih houter⟩
    cases outer with
    | nil =>
      obtain ⟨e', he', hline⟩ := hlines o.group ho.group e he
      rw [hline]
      exact ho.after e' he'
    | cons holder outer => exact ho.after e he

/-- An element filed in the innermost scope keeps the order, where it begins no earlier than the
class that is open there and than all that is filed under its kind. -/
lemma InOrder.file (hd : d.InOrder entered) {kind : Kind} {e : Element}
    (he : e.Throughout Scope.InOrder)
    (hlast : ∀ x ∈ (scopeAround d.document d.opened).get kind, x.tag.line ≤ e.tag.line)
    (hholder : ∀ o ∈ d.opened.head?, o.body.tag.line ≤ e.tag.line) :
    (d.file kind e).InOrder entered := by
  obtain ⟨document, opened⟩ := d
  cases opened with
  | nil => exact ⟨hd.ascends.add hlast, Scope.Each.add hd.below he, trivial⟩
  | cons innermost outer =>
    obtain ⟨ho, houter⟩ := hd.opened
    have hbody := Class.inOrder_add ho.body he (hholder innermost rfl) hlast
    exact ⟨hd.ascends, hd.below, ⟨ho.group, hbody, ho.after, ho.within⟩, houter⟩

/-- An element filed at the top keeps the order, where it begins no earlier than all that is filed
under its kind and no open class is to be filed there. -/
lemma InOrder.atTop (hd : d.InOrder entered) {kind : Kind} {e : Element}
    (he : e.Throughout Scope.InOrder) (hkind : ¬entered kind)
    (hlast : ∀ x ∈ d.document.scope.get kind, x.tag.line ≤ e.tag.line) {document : Document}
    (hscope : document.scope = d.document.scope.add kind e) :
    ({ d with document := document } : Draft).InOrder entered := by
  refine ⟨?_, ?_, openInOrder_of_lines hd.opened fun kind' hentered x hx => ⟨x, ?_, rfl⟩⟩
  · rw [hscope]
    exact hd.ascends.add hlast
  · rw [Document.Throughout, hscope]
    exact Scope.Each.add hd.below he
  · have hother : kind' ≠ kind := by
      rintro rfl
      exact hkind hentered
    rwa [hscope, Scope.get_add, if_neg hother] at hx

/-- A leaf filed in the first class of a name keeps the order, where it begins no earlier than the
classes and than their members of its kind.

**Proof sketch.** The change of one class keeps the lines of all elements at the top, so these stay
in order and the open classes stay behind them. In the changed class the leaf comes last of its
kind. -/
lemma InOrder.modifyClassNamed (hd : d.InOrder entered) {kind : Kind} {name : String} {line : Nat}
    (owner : String)
    (hclass : ∀ c, Element.ofClass c ∈ d.document.scope.get .classes →
      c.tag.line ≤ line ∧ ∀ x ∈ c.members.get kind, x.tag.line ≤ line) :
    ({ d with document := d.document.modifyClassNamed owner (·.add kind (leafOf kind name line)) } :
      Draft).InOrder entered := by
  rw [Document.modifyClassNamed]
  cases d.document.classIndex? owner with
  | none => exact hd
  | some index =>
    have hmap := Scope.map_line_modifyAt
      (Element.line_modifyClass_add kind (leafOf kind name line)) .classes index d.document.scope
    refine ⟨Scope.ascends_of_map hmap hd.ascends, ?_, ?_⟩
    · refine Scope.Each.modifyAt hd.below (fun x hx => ?_) index
      cases x with
      | leaf tag => exact .leaf tag
      | branch tag members =>
        have hx' : (Element.ofClass ⟨tag, members⟩).Throughout Scope.InOrder :=
          Scope.Each.get hd.below hx
        obtain ⟨hline, hmembers⟩ := hclass ⟨tag, members⟩ hx
        exact Class.inOrder_add hx' (throughout_leafOf kind name line) hline hmembers
    · refine openInOrder_of_lines hd.opened fun kind' _ x hx => ?_
      have hget := congrArg (Scope.get kind') hmap
      rw [Scope.get_map, Scope.get_map] at hget
      have hline : x.tag.line ∈ (d.document.scope.get kind').map fun e => e.tag.line := by
        rw [← hget]
        exact List.mem_map_of_mem hx
      obtain ⟨e, he, heq⟩ := List.mem_map.1 hline
      exact ⟨e, he, heq.symm⟩

/-- A class that is left keeps the order: it may be filed as it stands.

**Proof sketch.** The outermost class becomes the last element of its group at the top. Any other
class becomes the last member of the next one. -/
lemma InOrder.leave (hd : d.InOrder entered) : d.leave.InOrder entered := by
  obtain ⟨document, opened⟩ := d
  match opened with
  | [] => exact hd
  | [innermost] =>
    obtain ⟨ho, -⟩ := hd.opened
    have hscope : (Draft.leave ⟨document, [innermost]⟩).document.scope
        = document.scope.add innermost.group (.ofClass innermost.body) := by
      simp only [Draft.leave]
      split
      · next hgroup => rw [hgroup]; rfl
      · rfl
    refine ⟨?_, ?_, trivial⟩
    · rw [hscope]
      exact hd.ascends.add ho.after
    · rw [Document.Throughout, hscope]
      exact Scope.Each.add hd.below ho.body
  | innermost :: next :: outer =>
    obtain ⟨ho, houter⟩ := hd.opened
    have hleft : (⟨document, next :: outer⟩ : Draft).InOrder entered :=
      ⟨hd.ascends, hd.below, houter⟩
    exact hleft.file ho.body ho.after ho.within

/-! ## One mark -/

/-- What a mark reports comes after all that is filed under the same kind in the innermost scope. -/
lemma Before.around {m : Mark} (h : d.Before entered m) {r : Report} (hr : r ∈ m.reports) :
    ∀ x ∈ (scopeAround d.document d.opened).get r.group, x.tag.line ≤ r.tag.line := by
  intro x hx
  obtain ⟨o, ho, hgroup, htag⟩ := exists_occurrence_around hx
  rw [← htag]
  exact h o ho r hr (.inl hgroup)

/-- What a mark reports comes after all that is filed under the same kind at the top. -/
lemma Before.top {m : Mark} (h : d.Before entered m) {r : Report} (hr : r ∈ m.reports) :
    ∀ x ∈ d.document.scope.get r.group, x.tag.line ≤ r.tag.line := by
  intro x hx
  obtain ⟨o, ho, hgroup, htag⟩ := Scope.exists_occurrence hx []
  rw [← htag]
  exact h o (List.mem_append_left _ ho) r hr (.inl hgroup)

/-- What a mark reports comes after the beginning of each class that is filed at the top, and after
the members of the same kind there. -/
lemma Before.classes {m : Mark} (h : d.Before entered m) {r : Report} (hr : r ∈ m.reports) :
    ∀ c, Element.ofClass c ∈ d.document.scope.get .classes →
      c.tag.line ≤ r.tag.line ∧ ∀ x ∈ c.members.get r.group, x.tag.line ≤ r.tag.line := by
  intro c hc
  constructor
  · obtain ⟨o, ho, hgroup, htag⟩ := Scope.exists_occurrence hc []
    have hline := h o (List.mem_append_left _ ho) r hr (.inr (.inr hgroup))
    rwa [htag] at hline
  · intro x hx
    obtain ⟨o, ho, hgroup, htag⟩ := Scope.exists_occurrence_member hc hx []
    rw [← htag]
    exact h o (List.mem_append_left _ ho) r hr (.inl hgroup)

/-- What a mark reports comes after the beginning of the class that is open. -/
lemma Before.holder (hd : d.InOrder entered) {m : Mark} (h : d.Before entered m) {r : Report}
    (hr : r ∈ m.reports) : ∀ o ∈ d.opened.head?, o.body.tag.line ≤ r.tag.line := by
  intro innermost hinnermost
  have hgroup : entered innermost.group := by
    obtain ⟨document, opened⟩ := d
    cases opened with
    | nil => exact absurd hinnermost (by simp)
    | cons first outer =>
      obtain rfl : first = innermost := by simpa using hinnermost
      exact hd.opened.1.group
  obtain ⟨o, ho, hog, hline⟩ := exists_occurrence_innermost hinnermost
  rw [← hline]
  exact h o ho r hr (.inr (.inl (hog ▸ hgroup)))

/-- A class that is entered has no members. -/
lemma groups_toClass (header : Header) : header.toClass.members.groups = [] := by
  suffices h : ∀ (labels : List (Kind × String)) (c : Class), c.members.groups = [] →
      (labels.foldl (fun c label => c.modifyMembers (·.describe label.1 label.2)) c).members.groups
        = [] from h header.labels _ rfl
  intro labels
  induction labels with
  | nil => exact fun c hc => hc
  | cons label labels ih => exact fun c hc => ih _ hc

/-- So it is in order throughout. -/
lemma throughout_toClass (header : Header) :
    (Element.ofClass header.toClass).Throughout Scope.InOrder := by
  refine Element.Throughout.ofClass_iff.2 ⟨⟨?_, ?_⟩, ?_⟩
  all_goals
    intro g hg
    rw [groups_toClass] at hg
    exact absurd hg List.not_mem_nil

/-- A method keeps the order, and so does its class where it begins with the method.

**Proof sketch.** If the class is there, the method is filed in it behind its other methods. If not,
the class is filed with the line of the method, behind all others, and has no methods yet. -/
lemma InOrder.method (hd : d.InOrder entered) {owner name : String} {line : Nat}
    (hm : d.Before entered (.method owner name line)) (hclasses : ¬entered .classes) :
    (d.mark (.method owner name line)).InOrder entered := by
  have hclass : (⟨.classes, { name := owner, line := line, kind := .classes }⟩ : Report)
      ∈ (Mark.method owner name line).reports := List.mem_cons_self
  have hmethod : (⟨.methods, { name := name, line := line, kind := .methods }⟩ : Report)
      ∈ (Mark.method owner name line).reports := List.mem_cons_of_mem _ List.mem_cons_self
  rw [mark]
  split
  · exact hd.modifyClassNamed owner (hm.classes hmethod)
  · let new : Class := .empty { name := owner, line := line, kind := .classes }
    have hnew : (Element.ofClass new).Throughout Scope.InOrder := by
      refine Element.Throughout.ofClass_iff.2 ⟨⟨?_, ?_⟩, ?_⟩
      all_goals exact fun g hg => absurd hg List.not_mem_nil
    have hadded : ({ d with document := d.document.addClass new } : Draft).InOrder entered :=
      hd.atTop hnew hclasses (hm.top hclass) rfl
    refine hadded.modifyClassNamed owner fun c hc => ?_
    rw [Document.addClass, Scope.get_add, if_pos rfl] at hc
    rcases List.mem_append.1 hc with hc | hc
    · exact hm.classes hmethod c hc
    · have hc : c = new := Option.some.inj (congrArg Element.class? (List.mem_singleton.1 hc))
      subst hc
      exact ⟨le_rfl, fun x hx => absurd hx List.not_mem_nil⟩

/-- **A mark that comes after all that stands in a draft keeps the draft in order.**

**Proof sketch.** The element that the mark reports is filed in the innermost scope, at the top or
in a class at the top, and begins no earlier than all that is filed there under its kind. A class
that begins is filed later; that the classes filed before it begin no later is known from here
on. -/
theorem mark_inOrder {m : Mark} (hd : d.InOrder entered) (hm : d.Before entered m)
    (hfits : m.Fits entered) : (d.mark m).InOrder entered := by
  cases m with
  | leaf kind name line =>
    have hr : (⟨kind, { name := name, line := line, kind := kind }⟩ : Report)
        ∈ (Mark.leaf kind name line).reports := List.mem_singleton.2 rfl
    exact hd.file (throughout_leafOf kind name line) (hm.around hr) (hm.holder hd hr)
  | atTop kind name line =>
    have hr : (⟨kind, { name := name, line := line, kind := kind }⟩ : Report)
        ∈ (Mark.atTop kind name line).reports := List.mem_singleton.2 rfl
    exact hd.atTop (throughout_leafOf kind name line) hfits (hm.top hr) rfl
  | once kind name line =>
    have hr : (⟨kind, { name := name, line := line, kind := kind }⟩ : Report)
        ∈ (Mark.once kind name line).reports := List.mem_singleton.2 rfl
    rw [mark]
    split
    · exact hd
    · exact hd.atTop (throughout_leafOf kind name line) hfits (hm.top hr) rfl
  | enter header =>
    have hr : (⟨header.group, header.tag⟩ : Report) ∈ (Mark.enter header).reports :=
      List.mem_singleton.2 rfl
    have hline : header.toClass.tag.line = header.tag.line :=
      congrArg Tag.line (toClass_eq header).1
    refine ⟨hd.ascends, hd.below, ⟨hfits, throughout_toClass header, fun e he => ?_, fun o ho => ?_⟩,
      hd.opened⟩
    · rw [hline]
      exact hm.around hr e he
    · rw [hline]
      exact hm.holder hd hr o ho
  | leave => exact hd.leave
  | forget =>
    exact ⟨hd.ascends, hd.below, openInOrder_of_lines hd.opened fun _ _ x hx => ⟨x, hx, rfl⟩⟩
  | method owner name line => exact hd.method hm hfits
  | qualified owner owned free name line =>
    have howned : (⟨owned, { name := name, line := line, kind := owned }⟩ : Report)
        ∈ (Mark.qualified owner owned free name line).reports := List.mem_cons_self
    have hfree : (⟨free, { name := name, line := line, kind := free }⟩ : Report)
        ∈ (Mark.qualified owner owned free name line).reports :=
      List.mem_cons_of_mem _ List.mem_cons_self
    rw [mark]
    split
    · exact hd.modifyClassNamed owner (hm.classes howned)
    · exact hd.file (throughout_leafOf free name line) (hm.around hfree) (hm.holder hd hfree)

/-! ## All marks -/

/-- What comes after a mark and after all that stood in a draft comes after all that stands in it
when the mark is taken. -/
lemma Before.mark {m m' : Mark} (hd : d.Before entered m') (hm : m.Precedes entered m') :
    (d.mark m).Before entered m' := by
  obtain ⟨new, hperm, hnew⟩ := d.occurrences_mark m
  intro o ho r hr hgroup
  rcases List.mem_append.1 (hperm.mem_iff.1 ho) with ho | ho
  · exact hd o ho r hr hgroup
  · obtain ⟨r', hr', hof⟩ := hnew o ho
    have hline : o.tag.line = r'.tag.line := by
      rw [hof.tag]
      cases o.holders <;> rfl
    rw [hline]
    refine hm r' hr' r hr ?_
    rwa [← hof.group]

/-- **Marks that come in the right order keep a draft in order.**

**Proof sketch.** Induction on the marks, with `mark_inOrder` for the first one: each of the others
comes after it. -/
theorem marks_inOrder {list : List Mark} (hd : d.InOrder entered)
    (hbefore : ∀ m ∈ list, d.Before entered m) (hfits : ∀ m ∈ list, m.Fits entered)
    (horder : list.Pairwise (Mark.Precedes entered)) : (d.marks list).InOrder entered := by
  induction list generalizing d with
  | nil => exact hd
  | cons m list ih =>
    obtain ⟨hfirst, hrest⟩ := List.pairwise_cons.1 horder
    have hmarked : (d.mark m).InOrder entered :=
      mark_inOrder hd (hbefore m List.mem_cons_self) (hfits m List.mem_cons_self)
    refine ih hmarked (fun m' hm' => ?_) (fun m' hm' => hfits m' (List.mem_cons_of_mem _ hm')) hrest
    exact Before.mark (hbefore m' (List.mem_cons_of_mem _ hm')) (hfirst m' hm')

end Draft

/-- A document that has only a legend has no groups. -/
lemma Document.groups_withLegend (legend : Legend) : (withLegend legend).scope.groups = [] := by
  suffices h : ∀ d : Document, d.scope.groups = [] →
      (legend.foldl (fun d entry =>
        (d.describe entry.kind entry.description).prioritise entry.kind entry.priority)
          d).scope.groups = [] from h {} rfl
  induction legend with
  | nil => exact fun d hd => hd
  | cons entry legend ih => exact fun d hd => ih _ hd

/-- What holds of all groups of a scope holds of those of a document to which nothing is added
yet. -/
lemma Document.forall_groups_withLegend (legend : Legend) (Q : Group Element → Prop) :
    ∀ g ∈ (withLegend legend).scope.groups, Q g := by
  rw [groups_withLegend]
  exact List.forall_mem_nil Q

/-- **Marks that come in the right order make a document that is in order.**

**Proof sketch.** An empty document is in order, and each mark keeps it so (`Draft.marks_inOrder`).
What is still open at the end is left like by marks that say so. -/
theorem Document.ofMarks_inOrder {entered : Kind → Prop} {list : List Mark} (legend : Legend)
    (hfits : ∀ m ∈ list, m.Fits entered) (horder : list.Pairwise (Mark.Precedes entered)) :
    (ofMarks legend list).scope.Ascends ∧ (ofMarks legend list).Throughout Scope.InOrder := by
  have hstart : ({ document := withLegend legend } : Draft).InOrder entered :=
    ⟨forall_groups_withLegend legend _, forall_groups_withLegend legend _, trivial⟩
  have hempty : ({ document := withLegend legend } : Draft).occurrences = [] := by
    rw [Draft.occurrences, occurrences_withLegend]
    rfl
  have hmarked := Draft.marks_inOrder hstart
    (fun m _ o ho => absurd (hempty ▸ ho) List.not_mem_nil) hfits horder
  -- The classes still open are left; this reports nothing, so nothing has to come before it.
  have hleave : ∀ m ∈ List.replicate
      (Draft.marks { document := withLegend legend } list).opened.length Mark.leave, m = .leave :=
    fun m hm => List.eq_of_mem_replicate hm
  have hfinished := Draft.marks_inOrder hmarked
    (fun m hm o _ r hr => absurd (hleave m hm ▸ hr) List.not_mem_nil)
    (fun m hm => hleave m hm ▸ trivial)
    (List.pairwise_replicate.2 (.inr fun r hr => absurd hr List.not_mem_nil))
  exact ⟨hfinished.ascends, hfinished.below⟩

end Outliner
