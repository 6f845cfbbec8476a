import Outliner.ByLine.Batch
import Outliner.ByLine.Ini
import Outliner.ByLine.Latex
import Outliner.ByLine.Nsis
import Outliner.ByLine.Perl
import Outliner.ByLine.Shell
import Outliner.ByLine.Tcl
import Outliner.Proofs.Reading

set_option autoImplicit false

/-!
# What line-based readers report

Where a source is read line by line, a mark is read off one line and names the number of this line.
In all of these languages but one the name that it reports stands on the line as it is; in a LaTeX
document the blanks within a name are made single spaces.

## Main results

* `Outliner.Batch.marks_named`, `Outliner.Ini.marks_named`, `Outliner.Nsis.marks_named`,
  `Outliner.Perl.marks_named`, `Outliner.Shell.marks_named`, `Outliner.Tcl.marks_named` — what these
  report stands by its name on its line.
* `Outliner.Latex.marks_placed` — what is reported of a document stands on one of its lines.
-/

namespace Outliner

variable {lines : List (List Char)}

/-! ## Batch files -/

namespace Batch

/-- A label is an excerpt of its line.

**Proof sketch.** Behind the colon the label is a beginning of what follows, which is a suffix of
the line without its leading blanks. -/
lemma label?_isInfix {line name : List Char} (h : label? line = some name) : name <:+: line := by
  unfold label? at h
  split at h
  · next text htrim =>
    have hname : text.takeWhile (fun c => !isBlank c && c != ':') = name := by
      dsimp only at h
      split at h
      · exact absurd h (by simp)
      · exact Option.some.inj h
    have htext : text <:+: line := by
      refine (List.suffix_cons ':' text).isInfix.trans ?_
      rw [← htrim]
      exact (trimStart_suffix line).isInfix
    rw [← hname]
    exact (List.takeWhile_prefix _).isInfix.trans htext
  · exact absurd h (by simp)

/-- The targets of a batch file stand on their lines. -/
theorem marks_named : ∀ m ∈ marks lines, m.All (Report.Named id lines) := by
  intro m hm
  obtain ⟨i, text, hline, hm⟩ := mem_eachLine hm
  obtain ⟨name, hname, rfl⟩ : ∃ name, label? text = some name
      ∧ Mark.once .labels (.ofList name) i = m := by
    simpa [lineMarks] using hm
  exact Mark.all_once.2 (Report.named_leaf rfl hline (label?_isInfix hname))

end Batch

/-! ## Configuration files -/

namespace Ini

/-- The name of a section is an excerpt of its header. -/
lemma headerName?_isInfix {text name : List Char} (h : headerName? text = some name) :
    name <:+: text := by
  simp only [headerName?] at h
  split at h
  · split at h
    · exact absurd h (by simp)
    · obtain rfl := Option.some.inj h
      exact (trim_isInfix _).trans (List.takeWhile_prefix _).isInfix
  · exact absurd h (by simp)

/-- The name of a key is an excerpt of its line. -/
lemma keyName?_isInfix {text name : List Char} (h : keyName? text = some name) : name <:+: text := by
  simp only [keyName?] at h
  split at h
  · split at h
    · exact absurd h (by simp)
    · obtain rfl := Option.some.inj h
      exact (trim_isInfix _).trans (List.takeWhile_prefix _).isInfix
  · exact absurd h (by simp)

/-- The name of what a line declares. -/
def Entry.name : Entry → List Char
  | header name => name
  | key name => name

/-- The name that a line of a configuration file declares is an excerpt of it. -/
lemma entryName_isInfix {line : List Char} {entry : Entry} (h : entry? line = some entry) :
    entry.name <:+: line := by
  unfold entry? at h
  dsimp only at h
  split at h
  · exact absurd h (by simp)
  · split at h
    · next header htext =>
      obtain ⟨name, hname, rfl⟩ := Option.map_eq_some_iff.1 h
      have hheader : header <:+: trim line := by
        rw [htext]
        exact (List.suffix_cons '[' header).isInfix
      exact (headerName?_isInfix hname).trans (hheader.trans (trim_isInfix line))
    · obtain ⟨name, hname, rfl⟩ := Option.map_eq_some_iff.1 h
      exact (keyName?_isInfix hname).trans (trim_isInfix line)

/-- The sections and keys of a configuration file stand on their lines.

**Proof sketch.** A header leaves the section before it and enters its own, and a key is a leaf;
each mark names an excerpt of the line (`entryName_isInfix`). -/
theorem marks_named : ∀ m ∈ marks lines, m.All (Report.Named id lines) := by
  intro m hm
  obtain ⟨i, text, hline, hm⟩ := mem_eachLine hm
  unfold lineMarks at hm
  split at hm
  · exact absurd hm List.not_mem_nil
  · next name hentry =>
    have hname : name <:+: text := entryName_isInfix hentry
    simp only [List.mem_cons, List.not_mem_nil, or_false] at hm
    rcases hm with rfl | rfl
    · exact Mark.all_leave
    · exact Mark.all_enter.2 (Report.named_leaf rfl hline hname)
  · next name hentry =>
    have hname : name <:+: text := entryName_isInfix hentry
    obtain rfl := List.mem_singleton.1 hm
    exact Mark.all_leaf.2 (Report.named_leaf rfl hline hname)

end Ini

/-! ## Shell scripts -/

namespace Shell

/-- The name of a function is an excerpt of the text. -/
lemma declaredName_isInfix (text : List Char) : declaredName text <:+: text := by
  unfold declaredName
  split
  · next rest hrest =>
    exact (List.takeWhile_prefix _).isInfix.trans (afterKeyword?_suffix hrest).isInfix
  · split
    · exact (List.takeWhile_prefix _).isInfix
    · exact List.nil_infix

/-- The name of a function is an excerpt of its line. -/
lemma functionName?_isInfix {line name : List Char} (h : functionName? line = some name) :
    name <:+: line := by
  simp only [functionName?] at h
  split at h
  · exact absurd h (by simp)
  · split at h
    · exact absurd h (by simp)
    · obtain rfl := Option.some.inj h
      exact (declaredName_isInfix _).trans (trimStart_suffix line).isInfix

/-- The functions of a script stand on their lines. -/
theorem marks_named : ∀ m ∈ marks lines, m.All (Report.Named id lines) := by
  intro m hm
  obtain ⟨i, text, hline, hm⟩ := mem_eachLine hm
  obtain ⟨name, hname, rfl⟩ : ∃ name, functionName? text = some name
      ∧ Mark.once .functions (.ofList name) i = m := by
    simpa [lineMarks] using hm
  exact Mark.all_once.2 (Report.named_leaf rfl hline (functionName?_isInfix hname))

end Shell

/-! ## Installer scripts -/

namespace Nsis

/-- What follows a comment is a suffix of the text. -/
lemma afterComment?_suffix {text rest : List Char} (h : afterComment? text = some rest) :
    rest <:+ text := by
  obtain ⟨after, hafter, rfl⟩ := Option.map_eq_some_iff.1 h
  exact (trimStart_suffix after).trans (afterFirst?_suffix hafter)

/-- The code of a line is the end of it. -/
lemma uncomment_suffix {inComment : Bool} {line code : List Char}
    (h : uncomment inComment line = some code) : code <:+ line := by
  obtain ⟨opened, hopened, hcode⟩ := Option.bind_eq_some_iff.1 h
  have hline : opened <:+ line := by
    split at hopened
    · exact (afterComment?_suffix hopened).trans (trimStart_suffix line)
    · obtain rfl := Option.some.inj hopened
      exact trimStart_suffix line
  split at hcode
  · exact (afterComment?_suffix hcode).trans hline
  · obtain rfl := Option.some.inj hcode
    exact hline

/-- An argument is an excerpt of the text, without the quotes around it.

**Proof sketch.** Induction on the text, as its arguments are read. The first argument is a
beginning of what is left, within its quotes where it has any, and the others are arguments of a
suffix. -/
lemma mem_arguments_isInfix {text argument : List Char} (h : argument ∈ arguments text) :
    argument <:+: text := by
  fun_induction arguments text with
  | case1 => exact absurd h List.not_mem_nil
  | case2 c text _ ih => exact (ih h).trans (List.suffix_cons c text).isInfix
  | case3 => exact absurd h List.not_mem_nil
  | case4 c text _ _ _ _ others _ ih =>
    have hrest : (text.dropWhile (· != c)).drop 1 <:+ c :: text :=
      (List.drop_suffix _ _).trans ((List.dropWhile_suffix _).trans (List.suffix_cons c text))
    exact (ih h).trans hrest.isInfix
  | case5 c text _ _ _ quoted others _ ih =>
    have hrest : (text.dropWhile (· != c)).drop 1 <:+ c :: text :=
      (List.drop_suffix _ _).trans ((List.dropWhile_suffix _).trans (List.suffix_cons c text))
    rcases List.mem_cons.1 h with rfl | h
    · exact (List.takeWhile_prefix _).isInfix.trans (List.suffix_cons c text).isInfix
    · exact (ih h).trans hrest.isInfix
  | case6 c text _ _ _ ih =>
    rcases List.mem_cons.1 h with rfl | h
    · exact (List.cons_prefix_cons.2 ⟨rfl, List.takeWhile_prefix _⟩).isInfix
    · exact (ih h).trans
        ((List.dropWhile_suffix _).trans (List.suffix_cons c text)).isInfix

/-- What follows a keyword is a suffix of the text. -/
lemma afterKeywordAnyCase?_suffix {keyword : String} {text rest : List Char}
    (h : afterKeywordAnyCase? keyword text = some rest) : rest <:+ text := by
  obtain ⟨lowered, -, rfl⟩ := Option.map_eq_some_iff.1 h
  exact List.drop_suffix _ text

/-- The name that a line of an installer script declares is an excerpt of it.

**Proof sketch.** By the keyword. In each case the name is an argument of a suffix of the line. -/
lemma declaration?_isInfix {code name : List Char} {kind : Kind}
    (h : declaration? code = some (kind, name)) : name <:+: code := by
  have hargument : ∀ {rest : List Char}, rest <:+ code → name ∈ arguments rest → name <:+: code :=
    fun hrest hname => (mem_arguments_isInfix hname).trans hrest.isInfix
  unfold declaration? at h
  split at h
  · next rest hrest =>
    obtain ⟨argument, hhead, heq⟩ := Option.map_eq_some_iff.1 h
    obtain ⟨rfl, rfl⟩ := Prod.mk.inj heq
    exact hargument (afterKeywordAnyCase?_suffix hrest) (List.mem_of_mem_head? hhead)
  · split at h
    · next rest hrest =>
      obtain ⟨argument, hfound, heq⟩ := Option.map_eq_some_iff.1 h
      obtain ⟨rfl, rfl⟩ := Prod.mk.inj heq
      have hsuffix : rest <:+ code := by
        rcases Option.or_eq_some_iff.1 hrest with hrest | ⟨-, hrest⟩
        · exact afterKeywordAnyCase?_suffix hrest
        · exact afterKeywordAnyCase?_suffix hrest
      exact hargument hsuffix (List.mem_of_find?_eq_some hfound)
    · split at h
      · next rest hrest =>
        obtain ⟨argument, hhead, heq⟩ := Option.map_eq_some_iff.1 h
        obtain ⟨rfl, rfl⟩ := Prod.mk.inj heq
        exact hargument (afterKeywordAnyCase?_suffix hrest) (List.mem_of_mem_head? hhead)
      · exact absurd h (by simp)

/-- What a line reports stands on it.

**Proof sketch.** The code of the line is a suffix of it, and what the code declares is an excerpt
of the code. -/
lemma readLine_named {inComment : Bool} {i : Nat} {text : List Char}
    (hline : lines[i]? = some text) :
    ∀ m ∈ (readLine inComment i text).2, m.All (Report.Named id lines) := by
  unfold readLine
  split
  · simp
  · next code hcode =>
    split
    · simp
    · intro m hm
      obtain ⟨kind, name, hname, rfl⟩ : ∃ kind name, declaration? code = some (kind, name)
          ∧ Mark.leaf kind (.ofList name) i = m := by
        simpa using hm
      have hexcerpt : name <:+: text :=
        (declaration?_isInfix hname).trans (uncomment_suffix hcode).isInfix
      exact Mark.all_leaf.2 (Report.named_leaf rfl hline hexcerpt)

/-- The functions, sections and macros of a script stand on their lines. -/
theorem marks_named : ∀ m ∈ marks lines, m.All (Report.Named id lines) :=
  readLines_found (fun _ _ _ hline => readLine_named hline) _

end Nsis

/-! ## Perl sources -/

namespace Perl

/-- The kind of what is filed under a kind. Packages are filed with the classes. -/
def kindUnder (group : Kind) : Kind := if group = .classes then .packages else group

/-- A qualified name at the front is a beginning of the text. -/
lemma leadingQualifiedName_isPrefix (text : List Char) : leadingQualifiedName text <+: text :=
  (reverse_dropWhile_reverse_isPrefix isJoint _).trans (List.takeWhile_prefix _)

/-- The variables of a list are excerpts of it. -/
lemma mem_listedVariables_isInfix {text name : List Char} (h : name ∈ listedVariables text) :
    name <:+: text :=
  (mem_pieces_isInfix (List.mem_filter.1 h).1).trans (List.takeWhile_prefix _).isInfix

/-- The names that a statement declares. -/
def Statement.names : Statement → List (List Char)
  | package name => [name]
  | subroutine name => [name]
  | vars names => names
  | other => []

/-- The names that a statement declares are excerpts of it. -/
lemma statement_isInfix (text : List Char) : ∀ name ∈ (statement text).names, name <:+: text := by
  intro name hname
  unfold statement at hname
  split at hname
  · next rest hrest =>
    obtain rfl := List.mem_singleton.1 hname
    exact (leadingQualifiedName_isPrefix rest).isInfix.trans (afterKeyword?_suffix hrest).isInfix
  · split at hname
    · next rest hrest =>
      obtain rfl := List.mem_singleton.1 hname
      exact (leadingQualifiedName_isPrefix rest).isInfix.trans (afterKeyword?_suffix hrest).isInfix
    · split at hname
      · next rest hrest =>
        exact (mem_listedVariables_isInfix hname).trans (afterKeyword?_suffix hrest).isInfix
      · exact absurd hname List.not_mem_nil

/-- The marks of a statement name the names that it declares.

**Proof sketch.** Statement by statement: each name of the statement is an excerpt of the line. A
package also leaves the one before it. -/
lemma declare_named {state : State} {i : Nat} {text : List Char} {s : Statement}
    (hline : lines[i]? = some text) (hnames : ∀ name ∈ s.names, name <:+: text) :
    ∀ m ∈ (declare state i s).2, m.All (Report.Named kindUnder lines) := by
  intro m hm
  cases s with
  | package name =>
    simp only [declare] at hm
    split at hm
    · simp only [List.mem_cons, List.not_mem_nil, or_false] at hm
      rcases hm with rfl | rfl
      · exact Mark.all_leave
      · exact Mark.all_forget
    · split at hm
      · exact absurd hm List.not_mem_nil
      · simp only [List.mem_cons, List.not_mem_nil, or_false] at hm
        rcases hm with rfl | rfl
        · exact Mark.all_leave
        · refine Mark.all_enter.2 ⟨⟨rfl, rfl⟩, text, hline, ?_⟩
          simpa [packageHeader] using hnames name List.mem_cons_self
  | subroutine name =>
    have hname : name <:+: text := hnames name List.mem_cons_self
    simp only [declare] at hm
    split at hm
    · exact absurd hm List.not_mem_nil
    · obtain rfl := List.mem_singleton.1 hm
      refine Mark.all_leaf.2 (Report.named_leaf ?_ hline hname)
      split <;> rfl
  | vars names =>
    obtain ⟨name, hmem, rfl⟩ := List.mem_map.1 hm
    exact Mark.all_leaf.2 (Report.named_leaf rfl hline (hnames name hmem))
  | other => exact absurd hm List.not_mem_nil

/-- What a line reports stands on it.

**Proof sketch.** Only a line of code declares anything, and what it declares is an excerpt of the
line without its leading blanks. -/
lemma readLine_named {state : State} {i : Nat} {text : List Char}
    (hline : lines[i]? = some text) :
    ∀ m ∈ (readLine state i text).2, m.All (Report.Named kindUnder lines) := by
  unfold readLine
  split
  · simp
  · simp
  · split
    · simp
    · dsimp only
      split
      · simp
      · split
        · simp
        · refine declare_named hline fun name hname => ?_
          exact (statement_isInfix _ name hname).trans (trimStart_suffix text).isInfix

/-- The packages, subroutines and variables of a source stand on their lines. -/
theorem marks_named : ∀ m ∈ marks lines, m.All (Report.Named kindUnder lines) :=
  readLines_found (fun _ _ _ hline => readLine_named hline) _

end Perl

/-! ## Tcl scripts -/

namespace Tcl

/-- The word at the front is a beginning of the text. -/
lemma leadingWord_isPrefix (text : List Char) : leadingWord text <+: text :=
  List.takeWhile_prefix _

/-- The word after two keywords is an excerpt of the text. -/
lemma wordAfter?_isInfix {first second : String} {text word : List Char}
    (h : wordAfter? first second text = some word) : word <:+: text := by
  obtain ⟨rest, hrest, hword⟩ := Option.bind_eq_some_iff.1 h
  obtain ⟨middle, hmiddle, hrest⟩ := Option.bind_eq_some_iff.1 hrest
  dsimp only at hword
  split at hword
  · exact absurd hword (by simp)
  · obtain rfl := Option.some.inj hword
    exact (leadingWord_isPrefix rest).isInfix.trans
      ((afterKeyword?_suffix hrest).trans (afterKeyword?_suffix hmiddle)).isInfix

/-- The name that a command declares. -/
def Command.name? : Command → Option (List Char)
  | procedure name => some name
  | method name => some name
  | nameSpace name => some name
  | classOf name => some name
  | other => none

/-- The name that a command declares is an excerpt of it.

**Proof sketch.** By the keyword. In each case the name is a beginning of what follows the keyword
or the two keywords, which is a suffix of the text. -/
lemma command_isInfix {text name : List Char} (h : (command text).name? = some name) :
    name <:+: text := by
  unfold command at h
  split at h
  · next rest hrest =>
    obtain rfl := Option.some.inj h
    exact (leadingWord_isPrefix rest).isInfix.trans (afterKeyword?_suffix hrest).isInfix
  · split at h
    · next rest hrest =>
      obtain rfl := Option.some.inj h
      exact (leadingWord_isPrefix rest).isInfix.trans (afterKeyword?_suffix hrest).isInfix
    · split at h
      · next word hword =>
        obtain rfl := Option.some.inj h
        exact wordAfter?_isInfix hword
      · split at h
        · next word hword =>
          obtain rfl := Option.some.inj h
          exact wordAfter?_isInfix hword
        · exact absurd h (by simp [Command.name?])

/-- The mark of a command names the name that it declares.

**Proof sketch.** Command by command: the mark takes the name of the command, which is an excerpt of
the line. -/
lemma declare_named {state : State} {i : Nat} {text : List Char} {c : Command}
    (hline : lines[i]? = some text) (hname : ∀ name, c.name? = some name → name <:+: text) :
    ∀ m ∈ (declare state i c).2, m.All (Report.Named id lines) := by
  intro m hm
  cases c with
  | procedure name =>
    simp only [declare] at hm
    split at hm
    · exact absurd hm List.not_mem_nil
    · obtain rfl := List.mem_singleton.1 hm
      exact Mark.all_leaf.2 (Report.named_leaf rfl hline (hname name rfl))
  | method name =>
    simp only [declare] at hm
    split at hm
    · obtain rfl := List.mem_singleton.1 hm
      exact Mark.all_leaf.2 (Report.named_leaf rfl hline (hname name rfl))
    · exact absurd hm List.not_mem_nil
  | nameSpace name =>
    obtain rfl := List.mem_singleton.1 hm
    exact Mark.all_enter.2 (Report.named_leaf rfl hline (hname name rfl))
  | classOf name =>
    obtain rfl := List.mem_singleton.1 hm
    exact Mark.all_enter.2 (Report.named_leaf rfl hline (hname name rfl))
  | other => exact absurd hm List.not_mem_nil

/-- What a line reports stands on it. -/
lemma readLine_named {state : State} {i : Nat} {text : List Char}
    (hline : lines[i]? = some text) :
    ∀ m ∈ (readLine state i text).2, m.All (Report.Named id lines) := by
  unfold readLine
  dsimp only
  split
  · simp
  · intro m hm
    rcases List.mem_append.1 hm with hm | hm
    · refine declare_named hline (fun name hname => ?_) m hm
      exact (command_isInfix hname).trans (trimStart_suffix text).isInfix
    · obtain rfl := List.eq_of_mem_replicate hm
      exact Mark.all_leave

/-- The name spaces, classes, procedures and methods of a script stand on their lines. -/
theorem marks_named : ∀ m ∈ marks lines, m.All (Report.Named id lines) :=
  readLines_found (fun _ _ _ hline => readLine_named hline) _

end Tcl

/-! ## LaTeX documents -/

namespace Latex

/-- A step along a line marks only what is on the line. -/
lemma named_placed {kind : Kind} {i : Nat} (c : Cursor) (hline : i < lines.length) :
    ∀ m ∈ (named kind i c).found, m.All (Report.Placed id lines) := by
  unfold named
  split
  · simp
  · dsimp only
    split
    · simp
    · intro m hm
      obtain rfl := List.mem_singleton.1 hm
      exact Mark.all_leaf.2 (Report.placed_leaf rfl _ hline)

/-- The definition of a macro is reported on its line. -/
lemma definition_placed {i : Nat} (c : Cursor) (hline : i < lines.length) :
    ∀ m ∈ (definition i c).found, m.All (Report.Placed id lines) := by
  simp only [definition]
  split
  · simp
  · dsimp only
    split
    · simp
    · intro m hm
      obtain rfl := List.mem_singleton.1 hm
      exact Mark.all_once.2 (Report.placed_leaf rfl _ hline)

/-- What a step reports is on the line that is read. -/
lemma step_placed {i : Nat} (c : Cursor) (ch : Char) (hline : i < lines.length) :
    ∀ m ∈ (step i () c ch).found, m.All (Report.Placed id lines) := by
  unfold step
  split
  · simp
  · dsimp only
    split
    · simp
    · split
      · exact named_placed _ hline
      · split
        · exact definition_placed _ hline
        · split
          · exact named_placed _ hline
          · simp

/-- The parts, macros and environments of a document stand on its lines. -/
theorem marks_placed : ∀ m ∈ marks lines, m.All (Report.Placed id lines) := by
  intro m hm
  obtain ⟨i, text, htext, hm⟩ := mem_eachLine hm
  obtain ⟨hline, -⟩ := List.getElem?_eq_some_iff.1 htext
  exact (Cursor.walk_keeps (I := fun _ => True)
    (fun _ c ch _ => ⟨trivial, step_placed c ch hline⟩) trivial _).found m hm

end Latex

end Outliner
