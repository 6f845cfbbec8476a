import Mathlib.Data.List.Forall2
import Mathlib.Tactic.Lemma
import Outliner.Scan
import Outliner.Proofs.Perl.Declarations
import Outliner.Proofs.Perl.Documentation
import Outliner.Proofs.Sections

set_option autoImplicit false

/-!
# Packages

A source that is cleaned of its documentation is a source in sections, and the sections are its
packages. A package lasts until the next package statement with a name; where that names `main`, no
package follows. Subroutines and variables belong to the package of the nearest package statement
before them, and to the top if there is none or if it names `main`.

## Main definitions

* `Outliner.Perl.clauses` — a cleaned source as a source in sections.
* `Outliner.Perl.packages`, `Outliner.Perl.subroutines`, `Outliner.Perl.variables` — what the lines
  of a cleaned source declare.

## Main results

* `Outliner.Perl.marks_of_isCode` — a cleaned source is read as a source in sections.
* `Outliner.Language.scan_perl_packages` — packages, subroutines and variables.
-/

namespace Outliner

namespace Perl

/-! ## What lines declare -/

/-- What a statement on a line says. -/
def Statement.clause (line : Nat) : Statement → Clause
  | .package name =>
    if name = "main".toList then .closes
    else if name.isEmpty then .silent
    else .opens (packageHeader name line)
  | .subroutine name =>
    if name.isEmpty then .silent else .declares .methods .functions [.ofList name]
  | .vars names => .declares .vars .vars (names.map .ofList)
  | .other => .silent

/-- A cleaned source as a source in sections. -/
def clauses (lines : List (List Char)) : List Clause :=
  lines.mapIdx fun line text => (statement (trimStart text)).clause line

/-- The package other than `main` that a statement begins. -/
def Statement.package? : Statement → Option (List Char)
  | .package name => if name = "main".toList ∨ name.isEmpty then none else some name
  | _ => none

/-- The subroutine that a statement declares, if it has a name. -/
def Statement.subroutines : Statement → List (List Char)
  | .subroutine name => if name.isEmpty then [] else [name]
  | _ => []

/-- The variables that a statement declares. -/
def Statement.packageVars : Statement → List (List Char)
  | .vars names => names
  | _ => []

/-- The packages other than `main`, with their lines. -/
def packages (lines : List (List Char)) : List (List Char × Nat) :=
  lines.zipIdx.filterMap fun (text, line) =>
    (statement (trimStart text)).package?.map fun name => (name, line)

/-- The names that the lines of a source declare, with their lines. -/
def declaredBy (names : Statement → List (List Char)) (lines : List (List Char)) :
    List (String × Nat) :=
  lines.zipIdx.flatMap fun (text, line) =>
    (names (statement (trimStart text))).map fun name => (.ofList name, line)

/-- The subroutines of a source. -/
def subroutines : List (List Char) → List (String × Nat) := declaredBy Statement.subroutines

/-- The variables of a source. -/
def packageVars : List (List Char) → List (String × Nat) := declaredBy Statement.packageVars

/-- The kind under which subroutines are filed that belong to a package or to none. -/
def subroutineKind (owner : Option Nat) : Kind := if owner.isSome then .methods else .functions

/-- Subroutines are not reported as variables. -/
lemma subroutineKind_ne_vars (owner : Option Nat) : subroutineKind owner ≠ .vars := by
  cases owner
  · show Kind.functions ≠ .vars
    decide
  · show Kind.methods ≠ .vars
    decide

/-! ## Reading -/

/-- What a statement says is what its marks say.

**Proof sketch.** Statement by statement. Names that are empty and all other statements are silent,
and a package that has a name enters itself and leaves the one before it. -/
lemma marksFrom_clause (inPackage : Bool) (line : Nat) (s : Statement) (rest : List Clause) :
    ∃ inPackage', (declare ⟨.code, inPackage⟩ line s).1 = ⟨.code, inPackage'⟩
      ∧ Clause.marksFrom inPackage line (s.clause line :: rest)
        = (declare ⟨.code, inPackage⟩ line s).2 ++ Clause.marksFrom inPackage' (line + 1) rest := by
  have hsilent : Clause.marksFrom inPackage line (.silent :: rest)
      = Clause.marksFrom inPackage (line + 1) rest :=
    Clause.marksFrom_declares inPackage line .vars .vars [] rest
  cases s with
  | package name =>
    rw [declare, Statement.clause]
    split
    · exact ⟨false, rfl, rfl⟩
    · split
      · exact ⟨inPackage, rfl, hsilent⟩
      · exact ⟨true, rfl, rfl⟩
  | subroutine name =>
    rw [declare, Statement.clause]
    split
    · exact ⟨inPackage, rfl, hsilent⟩
    · exact ⟨inPackage, rfl, Clause.marksFrom_declares inPackage line _ _ _ rest⟩
  | vars names =>
    refine ⟨inPackage, rfl, ?_⟩
    rw [Statement.clause, Clause.marksFrom_declares, ite_self, List.map_map]
    rfl
  | other => exact ⟨inPackage, rfl, hsilent⟩

/-- A line of code is read as what its statement says. -/
lemma readAs {text : List Char} (h : IsCode text) :
    Clause.ReadAs readLine (fun line text => (statement (trimStart text)).clause line)
      (fun inPackage => ⟨.code, inPackage⟩) text := by
  intro inPackage line rest
  rw [readLine_code h]
  exact marksFrom_clause inPackage line (statement (trimStart text)) rest

/-- **A cleaned source is read as a source in sections.** -/
theorem marks_of_isCode {lines : List (List Char)} (h : ∀ text ∈ lines, IsCode text) :
    marks lines = Clause.marks (clauses lines) :=
  Clause.marksFrom_readLines (fun text htext => readAs (h text htext)) false 0

/-! ## Packages and what belongs to them -/

section Clauses

variable {s : Statement} {line : Nat}

/-- A clause that begins a section is that of a package with a name.

**Proof sketch.** By the statement. Only a package begins a section, unless it is `main` or has no
name. -/
lemma clause_eq_opens {header : Header} (h : s.clause line = .opens header) :
    ∃ name, s.package? = some name ∧ header = packageHeader name line := by
  cases s with
  | package name =>
    rw [Statement.clause] at h
    split at h
    · cases h
    · next hmain =>
      split at h
      · cases h
      · next hempty =>
        cases h
        exact ⟨name, if_neg (not_or.2 ⟨hmain, hempty⟩), rfl⟩
  | subroutine name =>
    rw [Statement.clause] at h
    split at h <;> cases h
  | vars names => cases h
  | other => cases h

/-- A package with a name begins its section. -/
lemma clause_of_package? {name : List Char} (h : s.package? = some name) :
    s.clause line = .opens (packageHeader name line) := by
  cases s with
  | package name' =>
    obtain ⟨hname, hsome⟩ := Option.ite_none_left_eq_some.1 h
    obtain rfl := Option.some.inj hsome
    rw [not_or] at hname
    rw [Statement.clause, if_neg hname.1, if_neg hname.2]
  | _ => cases h

/-- Nothing is declared as a class.

**Proof sketch.** By the statement. What is declared on a line are subroutines, variables or
nothing. -/
lemma clause_eq_declares {owned free : Kind} {names : List String}
    (h : s.clause line = .declares owned free names) : free = .functions ∨ free = .vars := by
  cases s with
  | package name =>
    rw [Statement.clause] at h
    split at h
    · cases h
    · split at h <;> cases h
      exact .inr rfl
  | subroutine name =>
    rw [Statement.clause] at h
    split at h <;> cases h
    · exact .inr rfl
    · exact .inl rfl
  | vars names =>
    cases h
    exact .inr rfl
  | other =>
    cases h
    exact .inr rfl

/-- What a statement declares of a kind.

**Proof sketch.** By the statement. A package declares nothing of its own, a subroutine is of the
kind for its place, and variables are of a kind of their own. -/
lemma names_clause (s : Statement) (line : Nat) (owner : Option Nat) (kind : Kind) :
    (s.clause line).names owner.isSome kind
      = if kind = subroutineKind owner then s.subroutines.map .ofList
        else if kind = .vars then s.packageVars.map .ofList else [] := by
  have hsilent : Clause.silent.names owner.isSome kind = [] := by
    simp [Clause.silent, Clause.names]
  cases s with
  | package name =>
    have hnone : ((Statement.package name).clause line).names owner.isSome kind = [] := by
      rw [Statement.clause]
      split
      · rfl
      · split
        · exact hsilent
        · rfl
    rw [hnone]
    simp [Statement.subroutines, Statement.packageVars]
  | subroutine name =>
    by_cases hname : name.isEmpty
    · simp [Statement.clause, Statement.subroutines, Statement.packageVars, hname, hsilent]
    · simp only [Statement.clause, Statement.subroutines, Statement.packageVars, hname,
        Clause.names, subroutineKind, @eq_comm _ kind]
      simp
  | vars names =>
    simp only [Statement.clause, Statement.subroutines, Statement.packageVars, Clause.names,
      ite_self, @eq_comm _ kind]
    split
    · next hkind => rw [if_neg (hkind ▸ subroutineKind_ne_vars owner)]
    · simp
  | other => simp [Statement.clause, hsilent, Statement.subroutines, Statement.packageVars]

variable {lines : List (List Char)}

/-- Packages are filed as classes. -/
lemma group_of_opens {header : Header} (h : .opens header ∈ clauses lines) :
    header.group = .classes := by
  obtain ⟨line, hline, hclause⟩ := List.mem_mapIdx.1 h
  obtain ⟨name, -, rfl⟩ := clause_eq_opens hclause
  rfl

/-- Nothing else is filed as a class. -/
lemma free_of_declares {owned free : Kind} {names : List String}
    (h : .declares owned free names ∈ clauses lines) : free ≠ .classes := by
  obtain ⟨line, hline, hclause⟩ := List.mem_mapIdx.1 h
  rcases clause_eq_declares hclause with rfl | rfl <;> decide

/-- The clauses of a source with their lines. -/
lemma zipIdx_clauses (lines : List (List Char)) :
    (clauses lines).zipIdx
      = lines.zipIdx.map fun (text, line) => ((statement (trimStart text)).clause line, line) := by
  refine List.ext_getElem? fun i => ?_
  rw [List.getElem?_zipIdx, clauses, List.getElem?_mapIdx, List.getElem?_map, List.getElem?_zipIdx]
  cases lines[i]? <;> simp

/-- The headers of a source are its package statements.

**Proof sketch.** Line by line: the statement is a package with a name just if its clause begins a
section. -/
lemma headers_clauses (lines : List (List Char)) :
    Clause.headers (clauses lines)
      = (packages lines).map fun package => (packageHeader package.1 package.2, package.2) := by
  rw [Clause.headers, zipIdx_clauses, List.filterMap_map, packages, List.map_filterMap]
  refine List.filterMap_congr ?_
  rintro ⟨text, line⟩ -
  rw [Function.comp_apply]
  dsimp only
  generalize statement (trimStart text) = s
  cases hpackage : s.package? with
  | some name =>
    rw [clause_of_package? hpackage]
    rfl
  | none =>
    split
    · next header hopens =>
      obtain ⟨name, hsome, -⟩ := clause_eq_opens hopens
      rw [hpackage] at hsome
      cases hsome
    · rfl

/-- What is declared in a package or at the top is what is declared on its lines. -/
lemma held_clauses {owner : Option Nat} {kind : Kind} {names : Statement → List (List Char)}
    (hnames : ∀ s line, (Statement.clause line s).names owner.isSome kind = (names s).map .ofList)
    (lines : List (List Char)) :
    Clause.held (clauses lines) owner kind
      = (declaredBy names lines).filter fun entry =>
          Clause.ownerAt (clauses lines) entry.2 = owner := by
  rw [Clause.held, zipIdx_clauses, List.flatMap_map, declaredBy, List.filter_flatMap]
  refine List.flatMap_congr ?_
  rintro ⟨text, line⟩ -
  by_cases howner : Clause.ownerAt (clauses lines) line = owner
  · simp [howner, hnames, List.filter_map, Function.comp_def]
  · simp [howner, List.filter_map, Function.comp_def]

end Clauses

end Perl

namespace Language

/-- **Packages, subroutines and variables.** A line of code is read as what it declares
(`Perl.Declares`), and a source is outlined like what it is cleaned to. There the classes are the
packages other than `main` that have a name, in the order of their statements, and each subroutine
with a name and each variable of an `our` is reported once: it belongs to the package of the nearest
package statement before it, and to the top if there is none or if that statement names `main`.
Nothing else is reported.

**Proof sketch.** The lines that are hidden leave no marks, so a source has the marks of what it is
cleaned to (`Cleans.marks_eq`), and these are the marks of its clauses. What is in sections is known
of all sources of this form; what is held under a kind is what the statements declare of that kind
(`names_clause`, `held_clauses`). -/
theorem scan_perl_packages (lines : List String) :
    (∀ text s, Perl.statement text = s ↔ Perl.Declares text s)
    ∧ (∃ cleaned : List String, Perl.Cleans (lines.map String.toList) (cleaned.map String.toList))
    ∧ ∀ cleaned : List String,
      Perl.Cleans (lines.map String.toList) (cleaned.map String.toList) →
      let source := cleaned.map String.toList
      let clauses := Perl.clauses source
      perl.scan lines = perl.scan cleaned
      ∧ List.Forall₂ (Clause.IsSection clauses) ((perl.scan cleaned).get .classes)
        ((Perl.packages source).map fun package =>
          (Perl.packageHeader package.1 package.2, package.2))
      ∧ (∀ kind, kind ≠ .classes → (perl.scan cleaned).get kind
        = (Clause.held clauses none kind).map fun entry => Draft.leafOf kind entry.1 entry.2)
      ∧ ∀ owner, Clause.held clauses owner (Perl.subroutineKind owner)
          = (Perl.subroutines source).filter (Clause.ownerAt clauses ·.2 = owner)
        ∧ Clause.held clauses owner .vars
          = (Perl.packageVars source).filter (Clause.ownerAt clauses ·.2 = owner)
        ∧ ∀ kind, kind ≠ Perl.subroutineKind owner → kind ≠ .vars →
          Clause.held clauses owner kind = [] := by
  refine ⟨fun text s => Perl.statement_eq_iff, ?_, ?_⟩
  · obtain ⟨cleaned, hcleaned⟩ := Perl.exists_cleans (lines.map String.toList)
    exact ⟨cleaned.map String.ofList, by rwa [map_toList_ofList]⟩
  · intro cleaned hcleans source clauses
    have hmarks : perl.marks source = Clause.marks clauses := Perl.marks_of_isCode hcleans.isCode
    have hscan : perl.scan cleaned = .ofMarks perl.legend (Clause.marks clauses) :=
      congrArg (Document.ofMarks perl.legend) hmarks
    refine ⟨congrArg (Document.ofMarks perl.legend) hcleans.marks_eq, ?packages, ?top,
      fun owner => ⟨?subroutines, ?vars, ?others⟩⟩
    case packages =>
      rw [hscan, ← Perl.headers_clauses]
      exact Clause.forall₂_isSection _ (fun header h => Perl.group_of_opens h)
        fun owned free names h => Perl.free_of_declares h
    case top =>
      intro kind hkind
      rw [hscan]
      refine Clause.get_ofMarks _ fun header h => ?_
      rw [Perl.group_of_opens h]
      exact hkind.symm
    case subroutines =>
      refine Perl.held_clauses (fun s line => ?_) source
      rw [Perl.names_clause, if_pos rfl]
    case vars =>
      refine Perl.held_clauses (fun s line => ?_) source
      rw [Perl.names_clause, if_neg (Perl.subroutineKind_ne_vars owner).symm, if_pos rfl]
    case others =>
      intro kind hsubroutine hvars
      have hnone : ∀ s line, (Perl.Statement.clause line s).names owner.isSome kind
          = (([] : List (List Char)).map String.ofList) := fun s line => by
        rw [Perl.names_clause, if_neg hsubroutine, if_neg hvars, List.map_nil]
      rw [Perl.held_clauses hnone]
      simp [Perl.declaredBy]

/-- Neither documentation nor what follows the end of the code is read, `main` ends a package, and
the words of a list are variables up to its equals sign.

**Proof sketch.** The source is cleaned line by line. The document follows from the general theorem,
and what the packages hold is computed. -/
theorem scan_perl_packages_main :
    let lines := ["package A;", "=pod", "sub hidden;", "=cut", "sub f;", "our ($x, 1, @y) = ($z);",
      "package main;", "sub g;", "  __END__", "sub lost;"]
    let cleaned := ["package A;", "", "", "", "sub f;", "our ($x, 1, @y) = ($z);",
      "package main;", "sub g;"]
    let clauses := Perl.clauses (cleaned.map String.toList)
    Perl.Cleans (lines.map String.toList) (cleaned.map String.toList)
      ∧ perl.scan lines = perl.scan cleaned
      ∧ Perl.Declares "our ($x, 1, @y) = ($z);".toList (.vars ["$x".toList, "@y".toList])
      ∧ Clause.held clauses (some 0) .methods = [("f", 4)]
      ∧ Clause.held clauses (some 0) .vars = [("$x", 5), ("@y", 5)]
      ∧ (perl.scan cleaned).get .functions = [Draft.leafOf .functions "g" 7] := by
  intro lines cleaned clauses
  have hcleans : Perl.Cleans (lines.map String.toList) (cleaned.map String.toList) := by
    have hcode : ∀ text ∈ cleaned.map String.toList, Perl.IsCode text := by
      decide +kernel
    have hbody : ∀ text ∈ ["sub hidden;".toList], Perl.endsDocumentation text = false := by
      decide +kernel
    simp only [cleaned, List.map_cons, List.map_nil, List.forall_mem_cons] at hcode
    obtain ⟨hpackage, -, -, -, hf, hour, hmain, hg, -⟩ := hcode
    have hrest : Perl.Cleans (["sub f;", "our ($x, 1, @y) = ($z);", "package main;", "sub g;",
        "  __END__", "sub lost;"].map String.toList)
        (["sub f;", "our ($x, 1, @y) = ($z);", "package main;", "sub g;"].map String.toList) :=
      .code hf (.code hour (.code hmain (.code hg (.ended (by decide) (by decide) _))))
    have hfirst : Perl.beginsDocumentation "=pod".toList = true := by decide
    have hlast : Perl.endsDocumentation "=cut".toList = true := by decide
    exact .code hpackage (Perl.Cleans.documentation hfirst hbody hlast hrest)
  obtain ⟨hdeclares, -, hcleaned⟩ := scan_perl_packages lines
  obtain ⟨hscan, -, htop, -⟩ := hcleaned cleaned hcleans
  have hfunctions := htop .functions (by decide)
  have hheld : Clause.held clauses none .functions = [("g", 7)] := by decide +kernel
  rw [hheld] at hfunctions
  exact ⟨hcleans, hscan, (hdeclares _ _).1 (by decide +kernel), by decide +kernel,
    by decide +kernel, hfunctions⟩

end Language

end Outliner
