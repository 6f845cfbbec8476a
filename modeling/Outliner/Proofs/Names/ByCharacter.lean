import Outliner.ByCharacter.Lua
import Outliner.ByCharacter.Php
import Outliner.ByCharacter.Python
import Outliner.ByCharacter.StyleSheet
import Outliner.ByCharacter.Verilog
import Outliner.Proofs.Names

set_option autoImplicit false

/-!
# Names in sources read character by character

A name that waits, for a brace or for the end of a header or a selector list, was looked at when it
was read, so it has some characters when it is reported.

## Main definitions

* `Outliner.Php.State.NamesSome`, `Outliner.Verilog.State.NamesSome`,
  `Outliner.StyleSheet.State.NamesSome` — what waits has a name.

## Main results

* `Outliner.Python.marks_hasName` and its like — what is reported of a source has a name.
-/

namespace Outliner

variable {lines : List (List Char)}

/-! ## Python sources -/

namespace Python

/-- The name behind a keyword has some characters. -/
lemma declaredName?_ne_nil {text name : List Char} (h : declaredName? text = some name) :
    name ≠ [] :=
  isIdentifier_ne_nil (Option.filter_eq_some_iff.1 h).2

/-- The name that a statement declares is not empty. -/
def Statement.NamesSome : Statement → Prop
  | .classOf name => ∀ n, name = some n → n ≠ []
  | .function name => ∀ n, name = some n → n ≠ []
  | .variable name => name ≠ []
  | .other => True

/-- What a statement declares has a name of some characters. -/
lemma statement_namesSome (text : List Char) (target : Option (List Char)) :
    (statement text target).NamesSome := by
  unfold statement
  split
  · exact fun name hname => declaredName?_ne_nil hname
  · split
    · exact fun name hname => declaredName?_ne_nil hname
    · split
      · trivial
      · dsimp only
        split
        · next hname => exact isIdentifier_ne_nil (Bool.and_eq_true_iff.1 hname).1
        · trivial

/-- The mark of a statement has a name.

**Proof sketch.** Statement by statement: the mark takes the name of the statement, which has some
characters. -/
lemma declare_hasName {indent i : Nat} {state : State} {s : Statement} (hs : s.NamesSome) :
    ∀ m ∈ (declare indent i state s).2, m.All Report.HasName := by
  intro m hm
  unfold declare at hm
  split at hm
  · exact absurd hm List.not_mem_nil
  · next name =>
    obtain rfl := List.mem_singleton.1 hm
    exact Mark.all_enter.2 (Report.hasName_ofList (hs name rfl))
  · next found =>
    obtain ⟨name, rfl, rfl⟩ := Option.map_eq_some_iff.1 (Option.mem_toList.1 hm)
    exact Mark.all_leaf.2 (Report.hasName_ofList (hs name rfl))
  · next name =>
    obtain rfl := List.mem_singleton.1 hm
    exact Mark.all_leaf.2 (Report.hasName_ofList hs)
  · exact absurd hm List.not_mem_nil

/-- Closing the open classes that a line ends reports nothing. -/
lemma settle_hasName (indent : Nat) (state : State) :
    ∀ m ∈ (settle indent state).2, m.All Report.HasName := by
  intro m hm
  obtain rfl := List.eq_of_mem_replicate hm
  exact Mark.all_leave

/-- What a line reports has a name. -/
lemma readLine_hasName (state : State) (i : Nat) (text : List Char) :
    ∀ m ∈ (readLine state i text).2, m.All Report.HasName := by
  simp only [readLine]
  split
  · simp
  · split
    · exact settle_hasName _ _
    · intro m hm
      rcases List.mem_append.1 hm with hm | hm
      · exact settle_hasName _ _ m hm
      · exact declare_hasName (statement_namesSome _ _) m hm

/-- What is reported of a Python source has a name. -/
theorem marks_hasName : ∀ m ∈ marks lines, m.All Report.HasName :=
  readLines_found (fun s i text _ => readLine_hasName s i text) _

end Python

/-! ## Lua sources -/

namespace Lua

/-- A function is marked by names of some characters.

**Proof sketch.** A method is marked only if neither its owner nor its own name is empty, and a
function that has no owner only if its name is an identifier. -/
lemma functionMarks_hasName (name : List Char) (i : Nat) :
    ∀ m ∈ functionMarks name i, m.All Report.HasName := by
  intro m hm
  simp only [functionMarks] at hm
  split at hm
  · split at hm
    · exact absurd hm List.not_mem_nil
    · next hparts =>
      obtain ⟨howner, hmember⟩ := not_or.1 (mt Bool.or_eq_true_iff.2 hparts)
      obtain rfl := List.mem_singleton.1 hm
      exact Mark.all_method.2 ⟨Report.hasName_ofList (ne_nil_of_isEmpty howner),
        Report.hasName_ofList (isIdentifier_ne_nil (by simpa using hmember))⟩
  · split at hm
    · next hname =>
      obtain rfl := List.mem_singleton.1 hm
      exact Mark.all_leaf.2 (Report.hasName_ofList (isIdentifier_ne_nil hname))
    · exact absurd hm List.not_mem_nil

/-- What is marked where a name is due has a name. -/
lemma nameStep_hasName (i : Nat) (c : Cursor) :
    ∀ m ∈ (nameStep i c).found, m.All Report.HasName := by
  simp only [nameStep]
  split
  · exact functionMarks_hasName _ i
  · split
    · exact functionMarks_hasName _ i
    · simp

/-- What a step marks has a name. -/
lemma step_hasName (i : Nat) (state : Option Nat) (c : Cursor) (ch : Char) :
    (step i state c ch).Keeps (fun _ => True) (Mark.All Report.HasName) := by
  unfold step
  split
  · exact .silent trivial
  · split
    · split
      · exact .silent trivial
      · exact .silent trivial
    · refine .ite (fun _ => .silent trivial) fun _ => ?_
      refine .ite (fun _ => ?_) fun _ => ?_
      · split
        · exact .silent trivial
        · exact .silent trivial
      · exact .ite (fun _ => ⟨trivial, nameStep_hasName i c⟩) fun _ => .silent trivial

/-- What is reported of a Lua source has a name. -/
theorem marks_hasName : ∀ m ∈ marks lines, m.All Report.HasName :=
  readLines_found (fun s i _ _ =>
    (Cursor.walk_keeps (fun s c ch _ => step_hasName i s c ch) (s := s) trivial _).found) _

end Lua

/-! ## PHP sources -/

namespace Php

/-- The header that waits for its brace has a name. -/
def State.NamesSome (s : State) : Prop := ∀ name line, s.pending = some (name, line) → name ≠ []

/-- Where no header waits, nothing is asked for. -/
lemma State.namesSome_of_none {s : State} (h : s.pending = none) : s.NamesSome := by
  intro name line hpending
  rw [h] at hpending
  exact absurd hpending (by simp)

/-- A name that is read at the cursor has some characters. -/
lemma identifierAt_ne_nil {c rest : Cursor} {name : List Char}
    (h : identifierAt c = (some name, rest)) : name ≠ [] := by
  obtain ⟨hname, -⟩ := Prod.mk.inj h
  split at hname
  · next hidentifier =>
    obtain rfl := Option.some.inj hname
    exact isIdentifier_ne_nil hidentifier
  · exact absurd hname (by simp)

/-- The name of a property has some characters. -/
lemma propertyName?_ne_nil {line name : List Char} (h : propertyName? line = some name) :
    name ≠ [] := by
  simp only [propertyName?] at h
  split at h
  · exact absurd h (by simp)
  · split at h
    · exact absurd h (by simp)
    · split at h
      · next hidentifier =>
        obtain rfl := Option.some.inj h
        exact isIdentifier_ne_nil hidentifier
      · exact absurd h (by simp)

/-- A function is marked by its name. -/
lemma functionMarks_hasName {s : State} {name : List Char} {i : Nat} (hname : name ≠ []) :
    ∀ m ∈ functionMarks s name i, m.All Report.HasName := by
  intro m hm
  unfold functionMarks at hm
  split_ifs at hm
  · obtain rfl := List.mem_singleton.1 hm
    exact Mark.all_leaf.2 (Report.hasName_ofList hname)
  · exact absurd hm List.not_mem_nil
  · obtain rfl := List.mem_singleton.1 hm
    exact Mark.all_leaf.2 (Report.hasName_ofList hname)

/-- A word may begin a header, whose name is an identifier, and names what it declares.

**Proof sketch.** Behind `class` and its like the name waits, and behind `function` it is marked at
once; both are identifiers. A namespace is marked only if its name is not empty. -/
lemma wordStep_hasName {s : State} (i : Nat) (c : Cursor) (hs : s.NamesSome) :
    (wordStep i s c).Keeps State.NamesSome (Mark.All Report.HasName) := by
  simp only [wordStep]
  refine .ite (fun _ => .silent hs) fun _ => ?_
  refine .ite (fun _ => ?_) fun _ => ?_
  · split
    · next name rest h =>
      refine .silent fun waiting line hpending => ?_
      obtain ⟨rfl, -⟩ := Prod.mk.inj (Option.some.inj hpending)
      exact identifierAt_ne_nil h
    · exact .silent hs
  · refine .ite (fun _ => ?_) fun _ => ?_
    · split
      · next name rest h => exact ⟨hs, functionMarks_hasName (identifierAt_ne_nil h)⟩
      · exact .silent hs
    · refine .ite (fun _ => ⟨hs, fun m hm => ?_⟩) fun _ => .silent hs
      dsimp only at hm
      split at hm
      · exact absurd hm List.not_mem_nil
      · next hname =>
        obtain rfl := List.mem_singleton.1 hm
        exact Mark.all_leaf.2 (Report.hasName_ofList (ne_nil_of_isEmpty hname))

/-- A class that begins has the name that waited. -/
lemma openBrace_hasName {s : State} (hs : s.NamesSome) :
    Keeps State.NamesSome (Mark.All Report.HasName) (openBrace s) := by
  unfold openBrace
  split
  · next name line hpending _ =>
    exact .single (State.namesSome_of_none rfl)
      (Mark.all_enter.2 (Report.hasName_ofList (hs name line hpending)))
  · exact .silent (State.namesSome_of_none rfl)

/-- A closing brace reports nothing. -/
lemma closeBrace_hasName {s : State} (hs : s.NamesSome) :
    Keeps State.NamesSome (Mark.All Report.HasName) (closeBrace s) := by
  unfold closeBrace
  refine .ite (fun _ => ⟨hs, fun m hm => ?_⟩) fun _ => .silent hs
  simp only [List.mem_cons, List.not_mem_nil, or_false] at hm
  rcases hm with rfl | rfl
  · exact Mark.all_leave
  · exact Mark.all_forget

/-- A step in code keeps the name that waits, and what it marks has a name. -/
lemma codeStep_hasName {s : State} (i : Nat) (c : Cursor) (ch : Char) (hs : s.NamesSome) :
    (codeStep i s c ch).Keeps State.NamesSome (Mark.All Report.HasName) := by
  unfold codeStep
  refine .ite (fun _ => .silent hs) fun _ => ?_
  refine .ite (fun _ => .silent hs) fun _ => ?_
  refine .ite (fun _ => .silent hs) fun _ => ?_
  refine .ite (fun _ => .silent hs) fun _ => ?_
  refine .ite (fun _ => .silent hs) fun _ => ?_
  refine .ite (fun _ => openBrace_hasName hs) fun _ => ?_
  refine .ite (fun _ => closeBrace_hasName hs) fun _ => ?_
  refine .ite (fun _ => .silent (State.namesSome_of_none rfl)) fun _ => ?_
  exact .ite (fun _ => wordStep_hasName i c hs) fun _ => .silent hs

/-- A step keeps the name that waits, and what it marks has a name. -/
lemma step_hasName {s : State} (i : Nat) (c : Cursor) (ch : Char) (hs : s.NamesSome) :
    (step i s c ch).Keeps State.NamesSome (Mark.All Report.HasName) := by
  have hcode : ({ s with mode := .code } : State).NamesSome := hs
  unfold step
  split
  · exact .ite (fun _ => .silent hs) fun _ => .silent hs
  · exact .silent (iteInduction (fun _ => hcode) fun _ => hs)
  · exact .silent (iteInduction (fun _ => hcode) fun _ => hs)
  · exact codeStep_hasName i c ch hs

/-- Properties are marked by their names. -/
lemma propertyMarks_hasName (s : State) (i : Nat) (text : List Char) :
    ∀ m ∈ propertyMarks s i text, m.All Report.HasName := by
  intro m hm
  unfold propertyMarks at hm
  split at hm
  · obtain ⟨name, hname, rfl⟩ := Option.map_eq_some_iff.1 (Option.mem_toList.1 hm)
    exact Mark.all_leaf.2 (Report.hasName_ofList (propertyName?_ne_nil hname))
  · exact absurd hm List.not_mem_nil

/-- What is reported of a PHP source has a name. -/
theorem marks_hasName : ∀ m ∈ marks lines, m.All Report.HasName := by
  refine (readLines_keeps (I := State.NamesSome) (fun s i text _ hs => ?_)
    (State.namesSome_of_none rfl)).found
  have hproperty : Keeps State.NamesSome (Mark.All Report.HasName) (s, propertyMarks s i text) :=
    ⟨hs, propertyMarks_hasName s i text⟩
  exact hproperty.append (Cursor.walk_keeps (fun s c ch hs => step_hasName i c ch hs) hs _)

end Php

/-! ## Verilog sources -/

namespace Verilog

/-- The words of the header that is being read are not empty. -/
def State.NamesSome (s : State) : Prop :=
  ∀ header, s.header = some header → ∀ word ∈ header.words, word ≠ ""

/-- Where no header is being read, nothing is asked for. -/
lemma State.namesSome_of_none {s : State} (h : s.header = none) : s.NamesSome := by
  intro header hheader
  rw [h] at hheader
  exact absurd hheader (by simp)

/-- A header with words of some characters waits. -/
lemma State.namesSome_of_some {s : State} {header : PartialHeader} (h : s.header = some header)
    (hwords : ∀ word ∈ header.words, word ≠ "") : s.NamesSome := by
  intro other hother
  rw [h] at hother
  obtain rfl := Option.some.inj hother
  exact hwords

/-- A routine is marked by its name. -/
lemma routineMark_hasName (routine : Routine) (owner : Option String) (units : List DesignUnit)
    {name : String} (i : Nat) (hname : name ≠ "") :
    (routineMark routine owner units name i).All Report.HasName := by
  unfold routineMark
  dsimp only
  split
  · exact Mark.all_qualified.2 ⟨hname, hname⟩
  · exact Mark.all_leaf.2 hname

/-- A declaration is called by a word of its header.

**Proof sketch.** By what the header declares. The name is in each branch the first of the words of
the header, and no header is left. -/
lemma endHeader_hasName {s : State} (hs : s.NamesSome) :
    Keeps State.NamesSome (Mark.All Report.HasName) (endHeader s) := by
  unfold endHeader
  split
  · exact .silent hs
  · next header hheader =>
    have hwords : ∀ name further, header.words = name :: further → name ≠ "" := by
      intro name further h
      refine hs header hheader name ?_
      rw [h]
      exact List.mem_cons_self
    dsimp only
    split
    · exact .silent (State.namesSome_of_none rfl)
    · next name further h _ =>
      exact .single (State.namesSome_of_none rfl) (Mark.all_atTop.2 (hwords name further h))
    · next name further kind h _ =>
      exact .single (State.namesSome_of_none rfl) (Mark.all_enter.2 (hwords name further h))
    · next name further kind isPrototype isExternal h _ =>
      refine ⟨State.namesSome_of_none rfl, fun m hm => ?_⟩
      split at hm
      · exact absurd hm List.not_mem_nil
      · obtain rfl := List.mem_singleton.1 hm
        exact routineMark_hasName _ _ _ _ (hwords name further h)

/-- A word inside a header is one more of its words, or ends it.

**Proof sketch.** The words that the header has then are its words and perhaps the one that is read,
so all have some characters. The branches that end the header are those of `endHeader_hasName`. -/
lemma headerWord_hasName {s : State} {header : PartialHeader} {w : String}
    (hwords : ∀ word ∈ header.words, word ≠ "") (hw : w ≠ "") :
    Keeps State.NamesSome (Mark.All Report.HasName) (headerWord s header w) := by
  have hboth : ∀ word ∈ w :: header.words, word ≠ "" := by
    intro word hword
    rcases List.mem_cons.1 hword with rfl | hword
    · exact hw
    · exact hwords word hword
  have hnext : ∀ word ∈ (if typeWords.contains w then header.words else w :: header.words),
      word ≠ "" := by
    split
    · exact hwords
    · exact hboth
  unfold headerWord
  split
  · exact endHeader_hasName (State.namesSome_of_some rfl hboth)
  · refine .ite (fun _ => .silent (State.namesSome_of_some rfl hwords)) fun _ => ?_
    refine .ite (fun _ => .silent (State.namesSome_of_some rfl hnext)) fun _ => ?_
    exact endHeader_hasName (State.namesSome_of_some rfl hnext)
  · exact .silent (State.namesSome_of_some rfl hnext)

/-- A word outside headers begins a header without words, or leaves a design unit. -/
lemma freeWord_hasName {s : State} (i : Nat) (w : String) (hs : s.NamesSome) :
    Keeps State.NamesSome (Mark.All Report.HasName) (freeWord s i w) := by
  have hnone : ∀ word ∈ ([] : List String), word ≠ "" := List.forall_mem_nil _
  unfold freeWord
  dsimp only
  split
  · exact .ite (fun _ => .silent hs) fun _ => .silent (State.namesSome_of_some rfl hnone)
  · exact .silent (State.namesSome_of_some rfl hnone)
  · split
    · exact .ite (fun _ => .single hs Mark.all_leave) fun _ => .silent hs
    · exact .silent hs

/-- A word keeps the words of the header that is being read. -/
lemma word_hasName {s : State} (i : Nat) {w : String} (hs : s.NamesSome) (hw : w ≠ "") :
    Keeps State.NamesSome (Mark.All Report.HasName) (word s i w) := by
  unfold word
  split
  · exact .silent (iteInduction (fun _ => hs) fun _ => hs)
  · refine .ite (fun _ => .silent hs) fun _ => ?_
    split
    · next header hheader => exact headerWord_hasName (hs header hheader) hw
    · exact freeWord_hasName i w hs

/-- The double colon keeps the words of the header that is being read. -/
lemma qualify_namesSome {s : State} (hs : s.NamesSome) : (qualify s).NamesSome := by
  intro header hheader word hword
  obtain ⟨before, hbefore, rfl⟩ := Option.map_eq_some_iff.1 hheader
  exact hs before hbefore word (List.mem_of_mem_tail hword)

/-- A directive begins a header without words, or nothing. -/
lemma directiveStep_hasName {s : State} (i : Nat) (c : Cursor) (hs : s.NamesSome) :
    (directiveStep i s c).Keeps State.NamesSome (Mark.All Report.HasName) := by
  unfold directiveStep
  split
  · exact .ite (fun _ => .silent (State.namesSome_of_some rfl (List.forall_mem_nil _)))
      fun _ => .silent hs
  · exact .silent hs

/-- A character that begins a word stands in it. -/
lemma isNameChar_of_beginsWord {c : Char} (h : beginsWord c = true) : isNameChar c = true := by
  simp only [beginsWord, isNameChar, isIdentifierChar, isAlphanumeric, Bool.or_eq_true] at h ⊢
  tauto

/-- A step outside comments and strings keeps the words of the header that is being read. -/
lemma codeStep_hasName {s : State} (i : Nat) {c : Cursor} {ch : Char} (hch : c.peek? = some ch)
    (hs : s.NamesSome) : (codeStep i s c ch).Keeps State.NamesSome (Mark.All Report.HasName) := by
  unfold codeStep
  refine .ite (fun _ => .silent hs) fun _ => ?_
  refine .ite (fun _ => .silent hs) fun _ => ?_
  refine .ite (fun _ => .silent hs) fun _ => ?_
  refine .ite (fun _ => directiveStep_hasName i c hs) fun _ => ?_
  refine .ite (fun _ => ?_) fun _ => ?_
  · have hended := endHeader_hasName hs
    exact ⟨iteInduction (fun _ => hended.state) fun _ => hended.state, hended.found⟩
  · refine .ite (fun _ => .silent (qualify_namesSome hs)) fun _ => ?_
    refine .ite (fun hword => ?_) fun _ => ?_
    · have hletter := isNameChar_of_beginsWord (Bool.and_eq_true_iff.1 hword).1
      exact word_hasName i hs (ofList_ne_empty (Cursor.span_ne_nil hch hletter))
    · exact .ite (fun _ => .silent hs) fun _ => .silent hs

/-- A step keeps the words of the header that is being read. -/
lemma step_hasName {s : State} (i : Nat) {c : Cursor} {ch : Char} (hch : c.peek? = some ch)
    (hs : s.NamesSome) : (step i s c ch).Keeps State.NamesSome (Mark.All Report.HasName) := by
  unfold step
  refine .ite (fun _ => .silent hs) fun _ => ?_
  refine .ite (fun _ => .silent hs) fun _ => ?_
  exact .ite (fun _ => .silent hs) fun _ => codeStep_hasName i hch hs

/-- What the end of a line reports has a name. -/
lemma endLine_hasName {s : State} (hs : s.NamesSome) :
    Keeps State.NamesSome (Mark.All Report.HasName) (endLine s) := by
  unfold endLine
  exact .ite (fun _ => endHeader_hasName hs) fun _ => .silent hs

/-- What is reported of a hardware description has a name. -/
theorem marks_hasName : ∀ m ∈ marks lines, m.All Report.HasName := by
  refine (readLines_keeps (I := State.NamesSome) (fun s i text _ hs => ?_)
    (State.namesSome_of_none rfl)).found
  have hwalked := Cursor.walk_keeps_at (fun s c ch hch hs => step_hasName i hch hs) hs (.start text)
  exact hwalked.append (endLine_hasName hwalked.state)

end Verilog

/-! ## Style sheets -/

namespace StyleSheet

/-- The finished selectors that wait for their block are not empty. -/
def State.NamesSome (s : State) : Prop := ∀ selector ∈ s.list, selector.text ≠ []

/-- Selectors that are ended have some characters. -/
lemma State.NamesSome.endSelector {s : State} (hs : s.NamesSome) : s.endSelector.NamesSome := by
  intro selector hselector
  rcases List.mem_append.1 hselector with hselector | hselector
  · exact hs selector hselector
  · obtain ⟨piece, -, hmade⟩ := Option.bind_eq_some_iff.1 (Option.mem_toList.1 hselector)
    simp only [Piece.selector?] at hmade
    split at hmade
    · exact absurd hmade (by simp)
    · next hempty =>
      obtain rfl := Option.some.inj hmade
      exact ne_nil_of_isEmpty hempty

/-- A step inside a block finds nothing. -/
lemma blockStep_namesSome {s : State} (c : Cursor) (ch : Char) (hs : s.NamesSome) :
    (blockStep s c ch).Keeps State.NamesSome (·.text ≠ []) := by
  unfold blockStep
  refine .ite (fun _ => .silent hs) fun _ => ?_
  refine .ite (fun _ => .silent hs) fun _ => ?_
  exact .ite (fun _ => .silent hs) fun _ => .silent hs

/-- A step inside an at-rule finds nothing. -/
lemma atRuleStep_namesSome {s : State} (nests : Bool) (c : Cursor) (ch : Char) (hs : s.NamesSome) :
    (atRuleStep nests s c ch).Keeps State.NamesSome (·.text ≠ []) := by
  unfold atRuleStep
  refine .ite (fun _ => .silent hs) fun _ => ?_
  refine .ite (fun _ => .silent hs) fun _ => ?_
  exact .ite (fun _ => .silent hs) fun _ => .silent hs

/-- A step among the selectors of a rule finds selectors of some characters. -/
lemma ruleStep_namesSome {s : State} (i : Nat) (c : Cursor) (ch : Char) (hs : s.NamesSome) :
    (ruleStep i s c ch).Keeps State.NamesSome (·.text ≠ []) := by
  have hended : s.endSelector.NamesSome := hs.endSelector
  have hdropped : s.dropSelectors.NamesSome := List.forall_mem_nil _
  unfold ruleStep
  refine .ite (fun _ => .silent hs) fun _ => ?_
  refine .ite (fun _ => ⟨List.forall_mem_nil _, hended⟩) fun _ => ?_
  refine .ite (fun _ => .silent hdropped) fun _ => ?_
  refine .ite (fun _ => .silent hdropped) fun _ => ?_
  refine .ite (fun _ => .silent hended) fun _ => ?_
  refine .ite (fun _ => .silent hs) fun _ => ?_
  exact .ite (fun _ => .silent hs) fun _ => .silent hs

/-- A step finds selectors of some characters. -/
lemma step_namesSome {s : State} (i : Nat) (c : Cursor) (ch : Char) (hs : s.NamesSome) :
    (step i s c ch).Keeps State.NamesSome (·.text ≠ []) := by
  unfold step
  refine .ite (fun _ => .silent hs) fun _ => ?_
  refine .ite (fun _ => .silent hs) fun _ => ?_
  split
  · exact atRuleStep_namesSome _ c ch hs
  · exact ruleStep_namesSome i c ch hs
  · exact blockStep_namesSome c ch hs

/-- The selectors of a style sheet have some characters. -/
lemma selectors_ne_nil : ∀ selector ∈ selectors lines, selector.text ≠ [] := by
  have hstart : State.NamesSome {} := List.forall_mem_nil _
  refine (readLines_keeps (fun s i text _ hs => ?_) hstart).found
  have hwalked := Cursor.walk_keeps (fun s c ch hs => step_namesSome i c ch hs) hs (.start text)
  exact ⟨hwalked.state, hwalked.found⟩

/-- A step along a selector finds names of some characters.

**Proof sketch.** A class and an identifier are found only where a name follows their sign, and they
keep the sign. A tag is found where a letter or an underscore stands, which is a character of the
name. -/
lemma nameStep_ne_nil {c : Cursor} {ch : Char} (hch : c.peek? = some ch) :
    ∀ found ∈ (nameStep () c ch).found, found.2 ≠ [] := by
  intro found hfound
  simp only [nameStep] at hfound
  split at hfound
  · split at hfound
    · exact absurd hfound List.not_mem_nil
    · obtain rfl := List.mem_singleton.1 hfound
      exact List.cons_ne_nil _ _
  · split at hfound
    · exact absurd hfound List.not_mem_nil
    · split at hfound
      · exact absurd hfound List.not_mem_nil
      · split at hfound
        · next hletter =>
          obtain rfl := List.mem_singleton.1 hfound
          refine Cursor.span_ne_nil hch ?_
          simp only [isNameChar, isAlphanumeric, Bool.or_eq_true] at hletter ⊢
          tauto
        · exact absurd hfound List.not_mem_nil

/-- The names of a selector have some characters. -/
lemma names_ne_nil (selector : List Char) : ∀ found ∈ names selector, found.2 ≠ [] :=
  (Cursor.walk_keeps_at (I := fun _ => True)
    (fun _ _ _ hch _ => ⟨trivial, nameStep_ne_nil hch⟩) trivial (.start selector)).found

/-- What is reported of a style sheet has a name. -/
theorem marks_hasName : ∀ m ∈ marks lines, m.All Report.HasName := by
  intro m hm
  obtain ⟨selector, -, hm⟩ := List.mem_flatMap.1 hm
  obtain ⟨⟨kind, name⟩, hname, rfl⟩ := List.mem_map.1 hm
  exact Mark.all_once.2 (Report.hasName_ofList (names_ne_nil _ _ hname))

/-- Read as a style, each selector has a name. -/
theorem styleMarks_hasName : ∀ m ∈ styleMarks lines, m.All Report.HasName := by
  intro m hm
  obtain ⟨selector, hselector, rfl⟩ := List.mem_map.1 hm
  exact Mark.all_once.2 (Report.hasName_ofList (selectors_ne_nil selector hselector))

end StyleSheet

end Outliner
