import Outliner.ByLine.Batch
import Outliner.ByLine.Ini
import Outliner.ByLine.Latex
import Outliner.ByLine.Nsis
import Outliner.ByLine.Perl
import Outliner.ByLine.Shell
import Outliner.ByLine.Tcl
import Outliner.Proofs.Names

set_option autoImplicit false

/-!
# Names in sources read line by line

A name that is empty declares nothing: each of these readers passes it over.

## Main results

* `Outliner.Batch.marks_hasName` and its like — what is reported of a source has a name.
-/

namespace Outliner

variable {lines : List (List Char)}

/-! ## Batch files and shell scripts -/

namespace Batch

/-- A label has some characters. -/
lemma label?_ne_nil {line name : List Char} (h : label? line = some name) : name ≠ [] := by
  unfold label? at h
  split at h
  · dsimp only at h
    split at h
    · exact absurd h (by simp)
    · next hname =>
      obtain rfl := Option.some.inj h
      exact ne_nil_of_isEmpty hname
  · exact absurd h (by simp)

/-- What is reported of a batch file has a name. -/
theorem marks_hasName : ∀ m ∈ marks lines, m.All Report.HasName := by
  intro m hm
  obtain ⟨i, text, -, hm⟩ := mem_eachLine hm
  obtain ⟨name, hname, rfl⟩ := Option.map_eq_some_iff.1 (Option.mem_toList.1 hm)
  exact Mark.all_once.2 (Report.hasName_ofList (label?_ne_nil hname))

end Batch

namespace Shell

/-- The name of a function has some characters. -/
lemma functionName?_ne_nil {line name : List Char} (h : functionName? line = some name) :
    name ≠ [] := by
  simp only [functionName?] at h
  split at h
  · exact absurd h (by simp)
  · split at h
    · exact absurd h (by simp)
    · next hname =>
      obtain rfl := Option.some.inj h
      intro hempty
      rw [hempty] at hname
      exact hname rfl

/-- What is reported of a shell script has a name. -/
theorem marks_hasName : ∀ m ∈ marks lines, m.All Report.HasName := by
  intro m hm
  obtain ⟨i, text, -, hm⟩ := mem_eachLine hm
  obtain ⟨name, hname, rfl⟩ := Option.map_eq_some_iff.1 (Option.mem_toList.1 hm)
  exact Mark.all_once.2 (Report.hasName_ofList (functionName?_ne_nil hname))

end Shell

/-! ## Configuration files -/

namespace Ini

/-- The name of a section has some characters. -/
lemma headerName?_ne_nil {text name : List Char} (h : headerName? text = some name) :
    name ≠ [] := by
  simp only [headerName?] at h
  split at h
  · split at h
    · exact absurd h (by simp)
    · next hname =>
      obtain rfl := Option.some.inj h
      exact ne_nil_of_isEmpty hname
  · exact absurd h (by simp)

/-- The name of a key has some characters. -/
lemma keyName?_ne_nil {text name : List Char} (h : keyName? text = some name) : name ≠ [] := by
  simp only [keyName?] at h
  split at h
  · split at h
    · exact absurd h (by simp)
    · next hname =>
      obtain rfl := Option.some.inj h
      exact ne_nil_of_isEmpty hname
  · exact absurd h (by simp)

/-- What a line of a configuration file declares has a name of some characters.

**Proof sketch.** Behind a bracket a section is declared, whose name has some characters, and on any
other line a key is. -/
lemma entry?_ne_nil {line : List Char} :
    (∀ name, entry? line = some (.header name) → name ≠ [])
      ∧ ∀ name, entry? line = some (.key name) → name ≠ [] := by
  unfold entry?
  dsimp only
  split
  · simp
  · split
    · next header _ =>
      constructor
      · intro name h
        obtain ⟨found, hfound, heq⟩ := Option.map_eq_some_iff.1 h
        obtain rfl := Entry.header.inj heq
        exact headerName?_ne_nil hfound
      · intro name h
        obtain ⟨found, -, heq⟩ := Option.map_eq_some_iff.1 h
        exact absurd heq (by simp)
    · constructor
      · intro name h
        obtain ⟨found, -, heq⟩ := Option.map_eq_some_iff.1 h
        exact absurd heq (by simp)
      · intro name h
        obtain ⟨found, hfound, heq⟩ := Option.map_eq_some_iff.1 h
        obtain rfl := Entry.key.inj heq
        exact keyName?_ne_nil hfound

/-- What is reported of a configuration file has a name. -/
theorem marks_hasName : ∀ m ∈ marks lines, m.All Report.HasName := by
  intro m hm
  obtain ⟨i, text, -, hm⟩ := mem_eachLine hm
  unfold lineMarks at hm
  split at hm
  · exact absurd hm List.not_mem_nil
  · next name hentry =>
    simp only [List.mem_cons, List.not_mem_nil, or_false] at hm
    rcases hm with rfl | rfl
    · exact Mark.all_leave
    · exact Mark.all_enter.2 (Report.hasName_ofList (entry?_ne_nil.1 name hentry))
  · next name hentry =>
    obtain rfl := List.mem_singleton.1 hm
    exact Mark.all_leaf.2 (Report.hasName_ofList (entry?_ne_nil.2 name hentry))

end Ini

/-! ## Installer scripts -/

namespace Nsis

/-- An argument has some characters. -/
lemma mem_arguments_ne_nil {text argument : List Char} (h : argument ∈ arguments text) :
    argument ≠ [] := by
  fun_induction arguments text with
  | case1 => exact absurd h List.not_mem_nil
  | case2 c text _ ih => exact ih h
  | case3 => exact absurd h List.not_mem_nil
  | case4 c text _ _ _ _ others _ ih => exact ih h
  | case5 c text _ _ _ quoted others hquoted ih =>
    rcases List.mem_cons.1 h with rfl | h
    · exact ne_nil_of_isEmpty hquoted
    · exact ih h
  | case6 c text _ _ _ ih =>
    rcases List.mem_cons.1 h with rfl | h
    · exact List.cons_ne_nil _ _
    · exact ih h

/-- What a line of an installer script declares has a name of some characters.

**Proof sketch.** By the keyword. In each case the name is one of the arguments behind it, and these
have some characters. -/
lemma declaration?_ne_nil {code name : List Char} {kind : Kind}
    (h : declaration? code = some (kind, name)) : name ≠ [] := by
  unfold declaration? at h
  split at h
  · obtain ⟨argument, hhead, heq⟩ := Option.map_eq_some_iff.1 h
    obtain ⟨-, rfl⟩ := Prod.mk.inj heq
    exact mem_arguments_ne_nil (List.mem_of_mem_head? hhead)
  · split at h
    · obtain ⟨argument, hfound, heq⟩ := Option.map_eq_some_iff.1 h
      obtain ⟨-, rfl⟩ := Prod.mk.inj heq
      exact mem_arguments_ne_nil (List.mem_of_find?_eq_some hfound)
    · split at h
      · obtain ⟨argument, hhead, heq⟩ := Option.map_eq_some_iff.1 h
        obtain ⟨-, rfl⟩ := Prod.mk.inj heq
        exact mem_arguments_ne_nil (List.mem_of_mem_head? hhead)
      · exact absurd h (by simp)

/-- What a line reports has a name. -/
lemma readLine_hasName (inComment : Bool) (i : Nat) (text : List Char) :
    ∀ m ∈ (readLine inComment i text).2, m.All Report.HasName := by
  unfold readLine
  split
  · simp
  · split
    · simp
    · intro m hm
      obtain ⟨⟨kind, name⟩, hname, rfl⟩ := Option.map_eq_some_iff.1 (Option.mem_toList.1 hm)
      exact Mark.all_leaf.2 (Report.hasName_ofList (declaration?_ne_nil hname))

/-- What is reported of an installer script has a name. -/
theorem marks_hasName : ∀ m ∈ marks lines, m.All Report.HasName :=
  readLines_found (fun s i text _ => readLine_hasName s i text) _

end Nsis

/-! ## Perl sources -/

namespace Perl

/-- The variables of a list have names of some characters. -/
lemma mem_listedVariables_ne_nil {text name : List Char} (h : name ∈ listedVariables text) :
    name ≠ [] := by
  rintro rfl
  exact absurd (List.mem_filter.1 h).2 (by decide)

/-- The variables that a statement declares have names. -/
lemma statement_vars_ne_nil {text : List Char} {names : List (List Char)}
    (h : statement text = .vars names) : ∀ name ∈ names, name ≠ [] := by
  unfold statement at h
  split at h
  · exact absurd h (by simp)
  · split at h
    · exact absurd h (by simp)
    · split at h
      · obtain rfl := Statement.vars.inj h
        exact fun name hname => mem_listedVariables_ne_nil hname
      · exact absurd h (by simp)

/-- A statement is marked by its names.

**Proof sketch.** Statement by statement. Packages and subroutines are marked only if their names
are not empty; those of variables are not. -/
lemma declare_hasName {state : State} {i : Nat} {s : Statement}
    (hvars : ∀ names, s = .vars names → ∀ name ∈ names, name ≠ []) :
    ∀ m ∈ (declare state i s).2, m.All Report.HasName := by
  intro m hm
  cases s with
  | package name =>
    simp only [declare] at hm
    split at hm
    · simp only [List.mem_cons, List.not_mem_nil, or_false] at hm
      rcases hm with rfl | rfl
      · exact Mark.all_leave
      · exact Mark.all_forget
    · split at hm
      · exact absurd hm List.not_mem_nil
      · next hname =>
        simp only [List.mem_cons, List.not_mem_nil, or_false] at hm
        rcases hm with rfl | rfl
        · exact Mark.all_leave
        · exact Mark.all_enter.2 (Report.hasName_ofList (ne_nil_of_isEmpty hname))
  | subroutine name =>
    simp only [declare] at hm
    split at hm
    · exact absurd hm List.not_mem_nil
    · next hname =>
      obtain rfl := List.mem_singleton.1 hm
      exact Mark.all_leaf.2 (Report.hasName_ofList (ne_nil_of_isEmpty hname))
  | vars names =>
    obtain ⟨name, hmem, rfl⟩ := List.mem_map.1 hm
    exact Mark.all_leaf.2 (Report.hasName_ofList (hvars names rfl name hmem))
  | other => exact absurd hm List.not_mem_nil

/-- What a line reports has a name. -/
lemma readLine_hasName (state : State) (i : Nat) (text : List Char) :
    ∀ m ∈ (readLine state i text).2, m.All Report.HasName := by
  unfold readLine
  split
  · simp
  · simp
  · split
    · simp
    · dsimp only
      split
      · simp
      · split
        · simp
        · exact declare_hasName fun names hnames => statement_vars_ne_nil hnames

/-- What is reported of a Perl source has a name. -/
theorem marks_hasName : ∀ m ∈ marks lines, m.All Report.HasName :=
  readLines_found (fun s i text _ => readLine_hasName s i text) _

end Perl

/-! ## Tcl scripts -/

namespace Tcl

/-- The word after two keywords has some characters. -/
lemma wordAfter?_ne_nil {first second : String} {text word : List Char}
    (h : wordAfter? first second text = some word) : word ≠ [] := by
  obtain ⟨rest, -, hword⟩ := Option.bind_eq_some_iff.1 h
  dsimp only at hword
  split at hword
  · exact absurd hword (by simp)
  · next hempty =>
    obtain rfl := Option.some.inj hword
    exact ne_nil_of_isEmpty hempty

/-- The name spaces and classes that a script declares have names.

**Proof sketch.** Namespaces and classes are declared by the word after two keywords, which has some
characters. All other commands declare neither. -/
lemma command_ne_nil {text : List Char} :
    (∀ name, command text = .nameSpace name → name ≠ [])
      ∧ ∀ name, command text = .classOf name → name ≠ [] := by
  unfold command
  split
  · simp
  · split
    · simp
    · split
      · next word hword =>
        constructor
        · intro name h
          obtain rfl := Command.nameSpace.inj h
          exact wordAfter?_ne_nil hword
        · simp
      · split
        · next word hword =>
          constructor
          · simp
          · intro name h
            obtain rfl := Command.classOf.inj h
            exact wordAfter?_ne_nil hword
        · simp

/-- A command is marked by its name.

**Proof sketch.** Command by command. Procedures and methods are marked only if their names are not
empty; those of namespaces and classes are not. -/
lemma declare_hasName {state : State} {i : Nat} {c : Command}
    (hnameSpace : ∀ name, c = .nameSpace name → name ≠ [])
    (hclass : ∀ name, c = .classOf name → name ≠ []) :
    ∀ m ∈ (declare state i c).2, m.All Report.HasName := by
  intro m hm
  cases c with
  | procedure name =>
    simp only [declare] at hm
    split at hm
    · exact absurd hm List.not_mem_nil
    · next hname =>
      obtain rfl := List.mem_singleton.1 hm
      exact Mark.all_leaf.2 (Report.hasName_ofList (ne_nil_of_isEmpty hname))
  | method name =>
    simp only [declare] at hm
    split at hm
    · next hname =>
      obtain rfl := List.mem_singleton.1 hm
      refine Mark.all_leaf.2 (Report.hasName_ofList ?_)
      rintro rfl
      exact absurd hname (by simp)
    · exact absurd hm List.not_mem_nil
  | nameSpace name =>
    obtain rfl := List.mem_singleton.1 hm
    exact Mark.all_enter.2 (Report.hasName_ofList (hnameSpace name rfl))
  | classOf name =>
    obtain rfl := List.mem_singleton.1 hm
    exact Mark.all_enter.2 (Report.hasName_ofList (hclass name rfl))
  | other => exact absurd hm List.not_mem_nil

/-- What a line reports has a name. -/
lemma readLine_hasName (state : State) (i : Nat) (text : List Char) :
    ∀ m ∈ (readLine state i text).2, m.All Report.HasName := by
  unfold readLine
  dsimp only
  split
  · simp
  · intro m hm
    rcases List.mem_append.1 hm with hm | hm
    · exact declare_hasName command_ne_nil.1 command_ne_nil.2 m hm
    · obtain rfl := List.eq_of_mem_replicate hm
      exact Mark.all_leave

/-- What is reported of a Tcl source has a name. -/
theorem marks_hasName : ∀ m ∈ marks lines, m.All Report.HasName :=
  readLines_found (fun s i text _ => readLine_hasName s i text) _

end Tcl

/-! ## LaTeX documents -/

namespace Latex

/-- An element that is named by its argument has a name. -/
lemma named_hasName (kind : Kind) (i : Nat) (c : Cursor) :
    ∀ m ∈ (named kind i c).found, m.All Report.HasName := by
  unfold named
  split
  · simp
  · dsimp only
    split
    · simp
    · next hname =>
      intro m hm
      obtain rfl := List.mem_singleton.1 hm
      exact Mark.all_leaf.2 (Report.hasName_ofList (ne_nil_of_isEmpty hname))

/-- The macro that is defined has a name. -/
lemma definition_hasName (i : Nat) (c : Cursor) :
    ∀ m ∈ (definition i c).found, m.All Report.HasName := by
  simp only [definition]
  split
  · simp
  · dsimp only
    split
    · simp
    · next hname =>
      intro m hm
      obtain rfl := List.mem_singleton.1 hm
      exact Mark.all_once.2 (Report.hasName_ofList (ne_nil_of_isEmpty hname))

/-- What a step marks has a name. -/
lemma step_hasName (i : Nat) (u : Unit) (c : Cursor) (ch : Char) :
    ∀ m ∈ (step i u c ch).found, m.All Report.HasName := by
  unfold step
  split
  · simp
  · dsimp only
    split
    · simp
    · split
      · exact named_hasName _ i _
      · split
        · exact definition_hasName i _
        · split
          · exact named_hasName _ i _
          · simp

/-- What is reported of a LaTeX document has a name. -/
theorem marks_hasName : ∀ m ∈ marks lines, m.All Report.HasName := by
  intro m hm
  obtain ⟨i, text, -, hm⟩ := mem_eachLine hm
  exact (Cursor.walk_keeps (I := fun _ => True)
    (fun u c ch _ => ⟨trivial, step_hasName i u c ch⟩) trivial _).found m hm

end Latex

end Outliner
