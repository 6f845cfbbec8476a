import Outliner.Scan
import Outliner.Proofs.Once
import Outliner.Proofs.Order.Scan

set_option autoImplicit false

/-!
# What the languages report once

Functions of a shell script, jump targets of a batch file, the names in a style sheet, the macros of
a document and the name spaces of C and C++ are reported once. Each of these readers says on its own
which names it recognises on which lines; nothing in it knows what was reported before.

## Main definitions

* `Outliner.Language.onceKinds` — the kinds under which a language reports each name once.
* `Outliner.Language.recognisedOn` — the lines on which a name is recognised.

## Main results

* `Outliner.Language.scan_once` — each name is reported once, on the first of these lines; and each
  class of a Lua source is reported once, on the line of its first method.
-/

namespace Outliner

variable {kind : Kind} {lines : List (List Char)}

/-! ## What is recognised -/

namespace Language

/-- The kinds under which a language reports each name once. -/
def onceKinds : Language → List Kind
  | shell => [.functions]
  | batch => [.labels]
  | css => [.tags, .styles, .ids]
  | ess => [.styles]
  | latex => [.macros]
  | c | cpp => [.namespaces]
  | _ => []

/-- The lines on which a name is recognised that is to be reported under the kind. -/
def recognisedOn (language : Language) (kind : Kind) (lines : List (List Char)) (name : String) :
    Set Nat :=
  match language with
  | shell => {line | ∃ text, lines[line]? = some text ∧ Shell.functionName? text = some name.toList}
  | batch => {line | ∃ text, lines[line]? = some text ∧ Batch.label? text = some name.toList}
  | css => {line | ∃ s ∈ StyleSheet.selectors lines,
      (kind, name.toList) ∈ StyleSheet.names s.text ∧ s.line = line}
  | ess => {line | ⟨name.toList, line⟩ ∈ StyleSheet.selectors lines}
  | latex => {line | ∃ text, lines[line]? = some text ∧
      .once .macros name line ∈ Latex.lineMarks line text}
  | c | cpp => {line | ∃ d ∈ Definition.all (Masking.mask (joinLines lines)), d.isNameSpace ∧
      d.name = name.toList ∧ Place.line (Masking.mask (joinLines lines)) d.place = line}
  | _ => ∅

end Language

/-! ## Marks -/

/-- A mark that reports something once does so under each kind. -/
lemma Mark.onceUnder_once (kind' : Kind) (name : String) (line : Nat) :
    (Mark.once kind' name line).OnceUnder kind := by
  by_cases hkind : kind' = kind
  · exact .inr ⟨name, line, by rw [hkind]⟩
  · exact .inl (Mark.all_once.2 hkind)

/-- Where each line is asked for a name, its answer is reported once. -/
lemma onceUnder_eachLine {read : List Char → Option (List Char)} :
    ∀ m ∈ eachLine (fun line text =>
      ((read text).map fun name => Mark.once kind (.ofList name) line).toList) lines,
      m.OnceUnder kind := by
  intro m hm
  obtain ⟨line, text, -, hm⟩ := mem_eachLine hm
  obtain ⟨name, -, rfl⟩ := Option.map_eq_some_iff.1 (Option.mem_toList.1 hm)
  exact Mark.onceUnder_once ..

/-- A name is met on the lines that answer with it. -/
lemma metOn_eachLine {read : List Char → Option (List Char)} (name : String) :
    metOn kind (eachLine (fun line text =>
      ((read text).map fun name => Mark.once kind (.ofList name) line).toList) lines) name
      = {line | ∃ text, lines[line]? = some text ∧ read text = some name.toList} := by
  ext line
  constructor
  · intro hm
    obtain ⟨i, text, htext, hm⟩ := mem_eachLine hm
    obtain ⟨found, hfound, heq⟩ := Option.map_eq_some_iff.1 (Option.mem_toList.1 hm)
    obtain ⟨-, hname, rfl⟩ := Mark.once.inj heq
    exact ⟨text, htext, hfound.trans (congrArg some (String.ofList_eq.1 hname))⟩
  · rintro ⟨text, htext, hname⟩
    refine mem_eachLine_of_mem htext ?_
    simp [hname]

namespace StyleSheet

/-- Each of the names a selector holds is reported once. -/
lemma onceUnder_marks : ∀ m ∈ marks lines, m.OnceUnder kind := by
  intro m hm
  obtain ⟨_, -, hm⟩ := List.mem_flatMap.1 hm
  obtain ⟨_, -, rfl⟩ := List.mem_map.1 hm
  exact Mark.onceUnder_once ..

/-- Each selector is reported once as a style. -/
lemma onceUnder_styleMarks : ∀ m ∈ styleMarks lines, m.OnceUnder kind := by
  intro m hm
  obtain ⟨_, -, rfl⟩ := List.mem_map.1 hm
  exact Mark.onceUnder_once ..

/-- A name is met on the lines of the selectors that hold it. -/
lemma metOn_marks (name : String) : metOn kind (marks lines) name
    = {line | ∃ s ∈ selectors lines, (kind, name.toList) ∈ names s.text ∧ s.line = line} := by
  ext line
  simp only [metOn, marks, List.mem_flatMap, List.mem_map, Mark.once.injEq, String.ofList_eq,
    Set.mem_ofPred_eq, Prod.exists]
  constructor
  · rintro ⟨s, hs, _, _, hname, rfl, rfl, rfl⟩
    exact ⟨s, hs, hname, rfl⟩
  · rintro ⟨s, hs, hname, rfl⟩
    exact ⟨s, hs, kind, name.toList, hname, rfl, rfl, rfl⟩

/-- A style is met on the lines of the selectors that read as it does. -/
lemma metOn_styleMarks (name : String) : metOn .styles (styleMarks lines) name
    = {line | ⟨name.toList, line⟩ ∈ selectors lines} := by
  ext line
  simp only [metOn, styleMarks, List.mem_map, Mark.once.injEq, String.ofList_eq, Set.mem_ofPred_eq,
    true_and]
  constructor
  · rintro ⟨s, hs, htext, rfl⟩
    exact htext ▸ hs
  · exact fun hs => ⟨_, hs, rfl, rfl⟩

end StyleSheet

namespace Latex

/-- Macros are reported once. -/
lemma onceUnder_marks : ∀ m ∈ marks lines, m.OnceUnder .macros :=
  forall_marks (fun _ hkind _ _ => .inl (Mark.all_leaf.2 hkind)) fun _ _ => Mark.onceUnder_once ..

/-- A macro is met on the lines that define it. -/
lemma metOn_marks (name : String) : metOn .macros (marks lines) name
    = {line | ∃ text, lines[line]? = some text
        ∧ .once .macros name line ∈ lineMarks line text} := by
  ext line
  constructor
  · intro hm
    obtain ⟨i, text, htext, hm⟩ := mem_eachLine hm
    have hline := Mark.onLine_of_renumber (lineMarks_renumber (fun _ => i) i text) _ hm
    obtain rfl : line = i := Mark.all_once.1 hline
    exact ⟨text, htext, hm⟩
  · rintro ⟨text, htext, hm⟩
    exact mem_eachLine_of_mem htext hm

end Latex

namespace CFamily

/-- The marks of all but the name spaces. -/
def Reading.otherMarks (r : Reading) : List Mark :=
  r.functionsOf .functions none
    ++ (r.bodies.mapIdx fun index body =>
        Mark.enter body.header :: (r.functionsOf .methods (some index) ++ [.leave])).flatten
    ++ r.macros.map fun m => .leaf .macros (.ofList m.1) m.2

/-- The marks of a text are those of its namespaces, and all others. -/
lemma Reading.marks_eq_append (r : Reading) :
    r.marks = r.nameSpaces.map (fun n => .once .namespaces (.ofList n.1) n.2) ++ r.otherMarks := by
  rw [marks, otherMarks, List.append_assoc, List.append_assoc, List.append_assoc]

/-- No other mark reports a namespace.

**Proof sketch.** The others are marks of functions, classes with their methods, and macros. -/
lemma Reading.otherMarks_spare (r : Reading) :
    ∀ m ∈ r.otherMarks, m.All fun report => report.group ≠ .namespaces := by
  have hof : ∀ kind owner, kind ≠ .namespaces →
      ∀ m ∈ r.functionsOf kind owner, m.All fun report => report.group ≠ .namespaces := by
    intro kind owner hkind m hm
    obtain ⟨f, -, rfl⟩ := List.mem_map.1 hm
    exact Mark.all_leaf.2 hkind
  intro m hm
  simp only [otherMarks, List.mem_append] at hm
  rcases hm with (hm | hm) | hm
  · exact hof .functions none (by decide) m hm
  · obtain ⟨block, hblock, hm⟩ := List.mem_flatten.1 hm
    obtain ⟨i, hi, rfl⟩ := List.mem_mapIdx.1 hblock
    rcases List.mem_cons.1 hm with rfl | hm
    · exact Mark.all_enter.2 (show Kind.classes ≠ .namespaces by decide)
    · rcases List.mem_append.1 hm with hm | hm
      · exact hof .methods (some i) (by decide) m hm
      · obtain rfl := List.mem_singleton.1 hm
        exact Mark.all_leave
  · obtain ⟨n, -, rfl⟩ := List.mem_map.1 hm
    exact Mark.all_leaf.2 (show Kind.macros ≠ .namespaces by decide)

/-- The other marks report no name space. -/
lemma Reading.once_not_mem_otherMarks (r : Reading) (name : String) (line : Nat) :
    Mark.once .namespaces name line ∉ r.otherMarks :=
  fun hm => Mark.all_once.1 (r.otherMarks_spare _ hm) rfl

/-- Namespaces are reported once. -/
lemma onceUnder_marks : ∀ m ∈ marks lines, m.OnceUnder .namespaces := by
  intro m hm
  rw [marks, Reading.marks_eq_append] at hm
  rcases List.mem_append.1 hm with hm | hm
  · obtain ⟨n, -, rfl⟩ := List.mem_map.1 hm
    exact Mark.onceUnder_once ..
  · exact .inl (Reading.otherMarks_spare _ m hm)

/-- A namespace is not reported before one that it precedes. -/
lemma onceBefore_marks : (marks lines).Pairwise (Mark.OnceBefore .namespaces) := by
  have hother := Reading.once_not_mem_otherMarks (.ofText (Masking.mask (joinLines lines)))
  rw [marks, Reading.marks_eq_append]
  refine List.pairwise_append.2 ⟨?_, List.pairwise_of_forall_mem_list ?_, ?_⟩
  · refine List.pairwise_map.2 ((Reading.ordered_ofText _).nameSpaces.imp fun hle => ?_)
    rintro _ _ _ _ heq heq'
    obtain ⟨-, -, rfl⟩ := Mark.once.inj heq
    obtain ⟨-, -, rfl⟩ := Mark.once.inj heq'
    exact hle
  · rintro m hm _ _ name line _ _ rfl
    exact absurd hm (hother name line)
  · rintro _ _ m hm _ _ name line _ rfl
    exact absurd hm (hother name line)

/-- A namespace is met on the lines on which it is defined. -/
lemma metOn_marks (name : String) : metOn .namespaces (marks lines) name
    = {line | ∃ d ∈ Definition.all (Masking.mask (joinLines lines)), d.isNameSpace ∧
      d.name = name.toList ∧ Place.line (Masking.mask (joinLines lines)) d.place = line} := by
  ext line
  rw [metOn, marks, Reading.marks_eq_append, Set.mem_ofPred_eq, List.mem_append,
    or_iff_left (Reading.once_not_mem_otherMarks _ _ _)]
  simp only [Reading.ofText, List.map_map, List.mem_map, List.mem_filter, Function.comp_apply,
    Mark.once.injEq, String.ofList_eq, true_and, and_assoc, Set.mem_ofPred_eq]

end CFamily

/-- Classes of a Lua source are made by methods. -/
lemma Lua.byMethod_marks : ∀ m ∈ marks lines, m.ByMethod :=
  forall_marks (fun _ _ => show Kind.functions ≠ .classes by decide) fun _ _ _ => trivial

/-! ## Sources -/

namespace Language

/-- Under each of the kinds a document has what the reader recognises, each name once.

**Proof sketch.** Language by language: the marks of the kind report each name once, they come in
the order of their lines, and they are met where the reader recognises the name. -/
lemma firstLeaves_ofMarks {language : Language} (hkind : kind ∈ language.onceKinds) :
    FirstLeaves kind (language.recognisedOn kind lines)
      ((Document.ofMarks language.legend (language.marks lines)).get kind) := by
  have hmet : ∀ {list : List Mark} {met : String → Set Nat}, kind ≠ .classes →
      (∀ m ∈ list, m.OnceUnder kind) → list.Pairwise (Mark.OnceBefore kind) →
      (∀ name, metOn kind list name = met name) →
      FirstLeaves kind met ((Document.ofMarks language.legend list).get kind) :=
    fun hclass honce hbefore hname =>
      funext hname ▸ Document.firstLeaves_ofMarks language.legend hclass honce hbefore
  have hnever {list : List Mark} (h : list.Pairwise (Mark.Precedes enteredNever)) :
      list.Pairwise (Mark.OnceBefore kind) := onceBefore_of_precedes h
  cases language with
  | shell =>
    obtain rfl := List.mem_singleton.1 hkind
    exact hmet (by decide) onceUnder_eachLine (hnever Shell.marks_precedes) metOn_eachLine
  | batch =>
    obtain rfl := List.mem_singleton.1 hkind
    exact hmet (by decide) onceUnder_eachLine (hnever Batch.marks_precedes) metOn_eachLine
  | css =>
    have hclass : kind ≠ .classes := by
      rintro rfl
      exact absurd hkind (by decide)
    exact hmet hclass StyleSheet.onceUnder_marks (hnever StyleSheet.marks_precedes)
      StyleSheet.metOn_marks
  | ess =>
    obtain rfl := List.mem_singleton.1 hkind
    exact hmet (by decide) StyleSheet.onceUnder_styleMarks (hnever StyleSheet.styleMarks_precedes)
      StyleSheet.metOn_styleMarks
  | latex =>
    obtain rfl := List.mem_singleton.1 hkind
    exact hmet (by decide) Latex.onceUnder_marks (hnever Latex.marks_precedes) Latex.metOn_marks
  | c | cpp =>
    obtain rfl := List.mem_singleton.1 hkind
    exact hmet (by decide) CFamily.onceUnder_marks CFamily.onceBefore_marks CFamily.metOn_marks
  | _ => exact absurd hkind List.not_mem_nil

/-- **Names that are reported once.** Under each of these kinds no name is reported twice, and what
is reported are the names that the reader recognises, each on the first of the lines on which it
recognises it.

In a Lua source no class is reported twice. There is one for each owner of a method, it holds a
method, and it begins on the line of the first one.

**Proof sketch.** What is met first is reported, for each of the kinds (`firstLeaves_ofMarks`). In a
Lua source a class is made by the first method of its owner, and later methods stand further down,
as the document is in order. -/
theorem scan_once (lines : List String) :
    (∀ language : Language, ∀ kind ∈ language.onceKinds,
      (((language.scan lines).get kind).map Element.name).Nodup
      ∧ ∀ e, e ∈ (language.scan lines).get kind ↔ ∃ name line, e = Draft.leafOf kind name line
        ∧ IsLeast (language.recognisedOn kind (lines.map String.toList) name) line)
    ∧ (((lua.scan lines).get .classes).map Element.name).Nodup
    ∧ (∀ owner line, (∃ e ∈ (lua.scan lines).get .classes, e.name = owner ∧ e.tag.line = line)
      ↔ IsLeast (methodOn (Lua.marks (lines.map String.toList)) owner) line)
    ∧ ∀ e ∈ (lua.scan lines).get .classes, ∃ c m further, e = .ofClass c
      ∧ c.members.get .methods = m :: further ∧ m.tag.line = c.tag.line
      ∧ ∀ other ∈ further, c.tag.line ≤ other.tag.line := by
  have hget : ∀ (language : Language) (kind : Kind), (language.scan lines).get kind
      = (Document.ofMarks language.legend (language.marks (lines.map String.toList))).get kind :=
    fun language kind => congrArg (Scope.get kind) (scope_scan language lines)
  refine ⟨fun language kind hkind => ?_, ?_⟩
  · rw [hget]
    exact ⟨(firstLeaves_ofMarks hkind).entries.nodup_names, (firstLeaves_ofMarks hkind).mem_iff⟩
  · have hmarks : ∀ m ∈ lua.marks (lines.map String.toList), m.ByMethod := Lua.byMethod_marks
    have hbefore : (lua.marks (lines.map String.toList)).Pairwise (Mark.Precedes enteredNever) :=
      Lua.marks_precedes
    have hfirst := Document.firstMethods_ofMarks lua.legend hmarks hbefore
    have horder : (Document.ofMarks lua.legend (lua.marks (lines.map String.toList))).Throughout
        Scope.InOrder := (ofMarks_inOrder (by decide) (by decide) _).2
    rw [hget]
    refine ⟨hfirst.entries.nodup_names, fun owner line => ?_, fun e he => ?_⟩
    · refine Iff.trans ?_ (hfirst.entries.mem_iff owner line)
      simp [Element.entry]
    · obtain ⟨c, m, further, rfl, hmethods, hline⟩ := hfirst.methods e he
      refine ⟨c, m, further, rfl, hmethods, hline, fun other hother => ?_⟩
      have hmembers := (Element.Throughout.ofClass_iff.1 (Scope.Each.get horder he)).1
      exact hmembers.beginsFrom.get (hmethods ▸ List.mem_cons_of_mem m hother)

/-- A script that declares a function twice, after a comment that looks like a declaration. -/
def redeclared : List String := ["# foo()", "function foo", "bar()", "foo ()"]

/-- A source with two methods of one class. -/
def methodsOfOne : List String := ["local M", "function M.new()", "function M:update()"]

/-- The first declaration counts, and the first method.

**Proof sketch.** The functions of the script are computed, and the method of the class stands on
the line on which the class begins. -/
theorem scan_once_redeclared :
    (((shell.scan redeclared).get .functions).map Element.name).Nodup
    ∧ IsLeast (shell.recognisedOn .functions (redeclared.map String.toList) "foo") 1
    ∧ IsLeast (methodOn (Lua.marks (methodsOfOne.map String.toList)) "M") 1
    ∧ ∃ c m further, Element.ofClass c ∈ (lua.scan methodsOfOne).get .classes ∧ c.tag.line = 1
      ∧ c.members.get .methods = m :: further ∧ m.tag.line = c.tag.line := by
  obtain ⟨hnodup, hmem⟩ := (scan_once redeclared).1 shell .functions (by decide)
  have hget : (shell.scan redeclared).get .functions
      = [Draft.leafOf .functions "foo" 1, Draft.leafOf .functions "bar" 2] := by rfl
  obtain ⟨name, line, heq, hfoo⟩ := (hmem (Draft.leafOf .functions "foo" 1)).1 (by simp [hget])
  obtain ⟨rfl, rfl⟩ : "foo" = name ∧ 1 = line := by simpa [Draft.leafOf] using heq
  obtain ⟨-, hleast, hfirst⟩ := (scan_once methodsOfOne).2
  have htag : ⟨"M", 1, .classes, none⟩
      ∈ ((lua.scan methodsOfOne).get .classes).map Element.tag := by decide +kernel
  obtain ⟨e, he, htag⟩ := List.mem_map.1 htag
  have hline : e.tag.line = 1 := by rw [htag]
  obtain ⟨c, m, further, rfl, hmethods, hbegin, -⟩ := hfirst e he
  refine ⟨hnodup, hfoo, (hleast "M" 1).1 ⟨_, he, ?_, hline⟩, c, m, further, he, hline, hmethods,
    hbegin⟩
  rw [Element.name, htag]

end Language

end Outliner
