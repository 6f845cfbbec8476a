import Mathlib.Data.List.Forall2
import Mathlib.Data.List.TakeWhile
import Mathlib.Tactic.Lemma
import Outliner.Scan
import Outliner.Proofs.Reading
import Outliner.Proofs.Sections
import Outliner.Proofs.Words

set_option autoImplicit false

/-!
# Sections of a configuration file

A configuration file is a source in sections. A line declares what it says by itself, whatever
stands around it: a header, a key, or nothing. A key belongs to the section of the nearest header
before it. A line that begins like a header and is none declares nothing, so it is like an empty
line.

## Main definitions

* `Outliner.Ini.Declares` — what a line declares.
* `Outliner.Ini.Malformed` — a line that begins like a header and is none.
* `Outliner.Ini.clauses` — a configuration file as a source in sections.

## Main results

* `Outliner.Ini.entry?_eq_some_iff` — a line is read as what it declares.
* `Outliner.Language.scan_ini_sections` — sections and keys.
-/

namespace Outliner

namespace Ini

/-! ## Lines -/

/-- What a line declares by itself. Blanks around the line and around names do not matter. -/
inductive Declares (text : List Char) : Entry → Prop where
  /-- A header: a name in square brackets, up to the first closing one. -/
  | header {name behind : List Char} (htext : trim text = '[' :: (name ++ ']' :: behind))
      (hfirst : ']' ∉ name) (hname : trim name ≠ []) : Declares text (.header (trim name))
  /-- A key: a name up to the first equals sign or colon, on a line that begins like no header and
  no comment. -/
  | key {name behind : List Char} {sign : Char}
      (hstart : ∀ opening ∈ ['[', ';', '#'], (trim text).head? ≠ some opening)
      (htext : trim text = name ++ sign :: behind) (hsign : sign = '=' ∨ sign = ':')
      (hfirst : '=' ∉ name ∧ ':' ∉ name) (hname : trim name ≠ []) : Declares text (.key (trim name))

/-- The line begins like a header and is none: no bracket is closed on it, or no name stands in
front of the first closing one. -/
def Malformed (text : List Char) : Prop :=
  ∃ header, trim text = '[' :: header
    ∧ ∀ name behind, header = name ++ ']' :: behind → ']' ∉ name → trim name = []

section Names

variable {p : Char → Bool} {text name : List Char}

/-- The name in front of the first character of a class, if there is one. -/
def nameBefore? (p : Char → Bool) (text : List Char) : Option (List Char) :=
  if text.any p then
    let name := trim (text.takeWhile (!p ·))
    if name.isEmpty then none else some name
  else none

/-- The name of a section is what stands in front of the bracket. -/
lemma headerName?_eq (text : List Char) : headerName? text = nameBefore? (· == ']') text := by
  have hany : text.contains ']' = text.any (· == ']') := by
    rw [List.contains_eq_any_beq]
    exact congrArg text.any (funext fun c => Bool.beq_comm)
  rw [headerName?, hany]
  rfl

/-- A name is found in front of the first character of the class.

**Proof sketch.** The text is cut at the first character of the class. If there is one, what
precedes it is the name, unless nothing but blanks does. -/
lemma nameBefore?_eq_some_iff : nameBefore? p text = some name ↔ ∃ front c behind,
    text = front ++ c :: behind ∧ p c = true ∧ front.all (!p ·) = true ∧ trim front ≠ []
      ∧ name = trim front := by
  constructor
  · intro h
    obtain ⟨hany, hsome⟩ := Option.ite_none_right_eq_some.1 h
    obtain ⟨hname, hsome⟩ := Option.ite_none_left_eq_some.1 hsome
    have hcut := List.takeWhile_append_dropWhile (p := (!p ·)) (l := text)
    cases hrest : text.dropWhile (!p ·) with
    | nil =>
      obtain ⟨c, hc, hp⟩ := List.any_eq_true.1 hany
      have hnot : (!p c) = true := List.dropWhile_eq_nil_iff.1 hrest c hc
      simp [hp] at hnot
    | cons c behind =>
      have hp := head?_any_dropWhile (!p ·) text
      rw [hrest] at hp hcut
      exact ⟨_, c, behind, hcut.symm, by simpa using hp, List.all_takeWhile, by simpa using hname,
        (Option.some.inj hsome).symm⟩
  · rintro ⟨front, c, behind, rfl, hc, hfront, hname, rfl⟩
    have hany : (front ++ c :: behind).any p = true := by simp [hc]
    have hword : (front ++ c :: behind).takeWhile (!p ·) = front :=
      takeWhile_word hfront (by simp [hc])
    rw [nameBefore?, if_pos hany]
    simp only [hword]
    rw [if_neg (by simpa using hname)]

end Names

/-- A comment begins with one of two signs. -/
lemma isLineComment_cons (c : Char) (text : List Char) :
    Language.ini.comments.isLineComment (c :: text) = (c == ';' || c == '#') := by
  have hsign : ∀ sign : Char, startsWith [sign] (c :: text) = (c == sign) := fun sign => by
    rw [Bool.eq_iff_iff, startsWith_iff, beq_iff_eq]
    simp
  show (startsWith [';'] (c :: text) || (startsWith ['#'] (c :: text) || false)) = _
  rw [hsign, hsign, Bool.or_false]

/-- What a line declares depends on the character at its front.

**Proof sketch.** By the character: a sign of a comment, an opening bracket, or any other one. -/
lemma entry?_of_trim {text rest : List Char} {c : Char} (htext : trim text = c :: rest) :
    entry? text =
      if c = ';' ∨ c = '#' then none
      else if c = '[' then (nameBefore? (· == ']') rest).map .header
      else (nameBefore? isSeparator (c :: rest)).map .key := by
  have hnone : (trim text).isEmpty = false := by rw [htext]; rfl
  rw [ entry?]
  simp only [htext, isLineComment_cons]
  split
  · next hcomment => rw [if_pos (by simpa using hcomment)]
  · next hcomment =>
    rw [if_neg (by simpa using hcomment)]
    split
    · next header heq =>
      obtain ⟨rfl, rfl⟩ := List.cons.inj heq
      rw [if_pos rfl, headerName?_eq]
    · next hother =>
      have hc : c ≠ '[' := fun h => hother rest (by rw [h])
      rw [if_neg hc]
      rfl

/-- What is read from a line is declared there.

**Proof sketch.** By the character at the front of the line. The name is what stands in front of the
first bracket, or in front of the first separator (`nameBefore?_eq_some_iff`). -/
lemma declares_of_entry? {text : List Char} {entry : Entry} (h : entry? text = some entry) :
    Declares text entry := by
  cases htext : trim text with
  | nil => simp [ entry?, htext] at h
  | cons c rest =>
    rw [entry?_of_trim htext] at h
    obtain ⟨hcomment, h⟩ := Option.ite_none_left_eq_some.1 h
    split at h
    -- a header
    · next hopens =>
      obtain ⟨name, hname, rfl⟩ := Option.map_eq_some_iff.1 h
      obtain ⟨front, sign, behind, rfl, hsign, hfront, hsome, rfl⟩ :=
        nameBefore?_eq_some_iff.1 hname
      obtain rfl : sign = ']' := by simpa using hsign
      have hheader : trim text = '[' :: (front ++ ']' :: behind) := by rw [htext, hopens]
      refine .header hheader (fun hmem => ?_) hsome
      simpa using List.all_eq_true.1 hfront _ hmem
    -- a key
    · next hopens =>
      obtain ⟨name, hname, rfl⟩ := Option.map_eq_some_iff.1 h
      obtain ⟨front, sign, behind, hcut, hsign, hfront, hsome, rfl⟩ :=
        nameBefore?_eq_some_iff.1 hname
      have hnone : ∀ sign, isSeparator sign = true → sign ∉ front := by
        intro sign hsign hmem
        simpa [hsign] using List.all_eq_true.1 hfront sign hmem
      refine .key ?_ (htext.trans hcut) (by simpa [isSeparator] using hsign)
        ⟨hnone '=' rfl, hnone ':' rfl⟩ hsome
      rw [htext]
      simpa [hopens] using hcomment

/-- What a line declares is read from it.

**Proof sketch.** The name in front of the bracket or the separator holds no such sign, so it is cut
off there (`nameBefore?_eq_some_iff`). The line of a key begins with no bracket and no sign of a
comment, so it is looked for a separator. -/
lemma Declares.entry?_eq {text : List Char} {entry : Entry} (h : Declares text entry) :
    entry? text = some entry := by
  cases h with
  | @header name behind htext hfirst hname =>
    have hbefore : nameBefore? (· == ']') (name ++ ']' :: behind) = some (trim name) := by
      refine nameBefore?_eq_some_iff.2 ⟨name, ']', behind, rfl, rfl, ?_, hname, rfl⟩
      refine List.all_eq_true.2 fun c hc => ?_
      simpa using fun h : c = ']' => hfirst (h ▸ hc)
    rw [entry?_of_trim htext, if_neg (by decide), if_pos rfl, hbefore]
    rfl
  | @key name behind sign hstart htext hsign hfirst hname =>
    have hbefore : nameBefore? isSeparator (name ++ sign :: behind) = some (trim name) := by
      refine nameBefore?_eq_some_iff.2 ⟨name, sign, behind, rfl, ?_, ?_, hname, rfl⟩
      · simpa [isSeparator] using hsign
      · refine List.all_eq_true.2 fun c hc => ?_
        have hequals : c ≠ '=' := fun h => hfirst.1 (h ▸ hc)
        have hcolon : c ≠ ':' := fun h => hfirst.2 (h ▸ hc)
        simp [isSeparator, hequals, hcolon]
    -- the first character tells that the line is read as a key
    cases hcut : name ++ sign :: behind with
    | nil => simp at hcut
    | cons c rest =>
      rw [hcut] at htext hbefore
      rw [htext] at hstart
      have hfront : c ≠ '[' ∧ c ≠ ';' ∧ c ≠ '#' := by simpa using hstart
      rw [entry?_of_trim htext, if_neg (by simp [hfront]), if_neg hfront.1, hbefore]
      rfl

/-- **A line is read as what it declares.** -/
theorem entry?_eq_some_iff {text : List Char} {entry : Entry} :
    entry? text = some entry ↔ Declares text entry := by
  constructor
  · exact declares_of_entry?
  · exact Declares.entry?_eq

/-- A line that begins like a header and is none declares nothing. -/
lemma Malformed.no_entry {text : List Char} (h : Malformed text) : entry? text = none := by
  obtain ⟨header, htext, hnone⟩ := h
  rw [Option.eq_none_iff_forall_ne_some]
  intro entry hentry
  rcases entry?_eq_some_iff.1 hentry with ⟨htext', hfirst, hname⟩ | ⟨hstart, -, -, -, -⟩
  · rw [htext] at htext'
    exact hname (hnone _ _ (List.cons.inj htext').2 hfirst)
  · exact hstart '[' (by simp) (by rw [htext]; rfl)

/-! ## Files -/

/-- What a line says. -/
def clause (line : Nat) (text : List Char) : Clause :=
  match entry? text with
  | none => .silent
  | some (.header name) =>
    .opens {
      group := .sections
      tag := { name := .ofList name, line := line, kind := .sections }
      labels := [(.vars, "Keys")] }
  | some (.key name) => .declares .vars .vars [.ofList name]

/-- A configuration file as a source in sections. -/
def clauses (lines : List (List Char)) : List Clause := lines.mapIdx clause

/-- A line is read as what it says. -/
lemma readAs (text : List Char) :
    Clause.ReadAs (fun _ i text => ((), lineMarks i text)) clause (fun _ => ()) text := by
  intro inside line rest
  dsimp only
  rw [clause, lineMarks]
  cases entry? text with
  | none => exact ⟨inside, rfl, Clause.marksFrom_declares inside line .vars .vars [] rest⟩
  | some entry =>
    cases entry with
    | header name => exact ⟨true, rfl, rfl⟩
    | key name =>
      refine ⟨inside, rfl, ?_⟩
      dsimp only
      rw [Clause.marksFrom_declares, ite_self]
      rfl

/-- **A configuration file is read as a source in sections.** -/
theorem marks_eq (lines : List (List Char)) : marks lines = Clause.marks (clauses lines) := by
  rw [marks, eachLine_eq_readLines]
  exact Clause.marksFrom_readLines (fun text _ => readAs text) false 0

section Clauses

variable {lines : List (List Char)} {c : Clause}

/-- Headers are filed as sections. -/
lemma group_of_opens {header : Header} (h : .opens header ∈ clauses lines) :
    header.group = .sections := by
  obtain ⟨line, hline, hclause⟩ := List.mem_mapIdx.1 h
  rw [clause] at hclause
  split at hclause
  · cases hclause
  · cases hclause
    rfl
  · cases hclause

/-- Keys are filed as variables. -/
lemma kinds_of_declares {owned free : Kind} {names : List String}
    (h : .declares owned free names ∈ clauses lines) : owned = .vars ∧ free = .vars := by
  obtain ⟨line, hline, hclause⟩ := List.mem_mapIdx.1 h
  rw [clause] at hclause
  split at hclause
  · cases hclause
    exact ⟨rfl, rfl⟩
  · cases hclause
  · cases hclause
    exact ⟨rfl, rfl⟩

/-- Nothing but keys is declared in sections. -/
lemma held_eq_nil (lines : List (List Char)) (owner : Option Nat) {kind : Kind}
    (hkind : kind ≠ .vars) : Clause.held (clauses lines) owner kind = [] := by
  refine List.flatMap_eq_nil_iff.2 ?_
  rintro ⟨c, line⟩ hmem
  have hnames : c.names owner.isSome kind = [] := by
    cases c with
    | declares owned free names =>
      obtain ⟨rfl, rfl⟩ := kinds_of_declares (List.fst_mem_of_mem_zipIdx hmem)
      rw [Clause.names, ite_self, if_neg hkind.symm]
    | _ => rfl
  simp [hnames]

end Clauses

end Ini

namespace Language

/-- **Sections and keys.** A line is read as what it declares by itself. The sections stand in the
order of their headers, and each holds the keys that are declared between its header and the next
one, in their order, and nothing else. At the top are, besides the sections, the keys in front of
the first header. A line that begins like a header and is none is like an empty line.

**Proof sketch.** The marks are those of the clauses of the source, so its sections and its top hold
what is known of all sources in sections. A malformed line declares nothing, like an empty one, so
it leaves the same marks. -/
theorem scan_ini_sections (lines : List String) :
    let clauses := Ini.clauses (lines.map String.toList)
    (∀ text entry, Ini.entry? text = some entry ↔ Ini.Declares text entry)
    ∧ List.Forall₂ (Clause.IsSection clauses) ((ini.scan lines).get .sections)
      (Clause.headers clauses)
    ∧ (∀ kind, kind ≠ .sections → (ini.scan lines).get kind
      = (Clause.held clauses none kind).map fun entry => Draft.leafOf kind entry.1 entry.2)
    ∧ (∀ owner kind, kind ≠ .vars → Clause.held clauses owner kind = [])
    ∧ ∀ lines' : List String,
      List.Forall₂ (fun a b => a = b ∨ Ini.Malformed a.toList ∧ b = "") lines lines' →
        ini.scan lines = ini.scan lines' := by
  intro clauses
  have hscan : ini.scan lines = .ofMarks ini.legend (Clause.marks clauses) :=
    congrArg (Document.ofMarks ini.legend) (Ini.marks_eq _)
  refine ⟨fun text entry => Ini.entry?_eq_some_iff, ?sections, ?keys,
    fun owner kind hkind => Ini.held_eq_nil _ owner hkind, ?malformed⟩
  case sections =>
    rw [hscan]
    refine Clause.forall₂_isSection _ (fun header h => Ini.group_of_opens h) ?_
    intro owned free names h
    rw [(Ini.kinds_of_declares h).2]
    decide
  case keys =>
    intro kind hkind
    rw [hscan]
    refine Clause.get_ofMarks _ fun header h => ?_
    rw [Ini.group_of_opens h]
    exact hkind.symm
  case malformed =>
    intro lines' hlines
    have hread : ∀ i a b, (a = b ∨ Ini.Malformed a ∧ b = []) →
        Ini.lineMarks i a = Ini.lineMarks i b := by
      rintro i a b (rfl | ⟨hmalformed, rfl⟩)
      · rfl
      · rw [Ini.lineMarks, hmalformed.no_entry]
        rfl
    have hmarks : Ini.marks (lines.map String.toList) = Ini.marks (lines'.map String.toList) := by
      refine eachLine_congr hread ?_
      rw [List.forall₂_map_left_iff, List.forall₂_map_right_iff]
      refine hlines.imp fun a b hline => hline.imp (congrArg String.toList) fun h => ⟨h.1, ?_⟩
      rw [h.2]
      rfl
    simp only [scan, marks, hmarks]

/-- A header without a name does not end the section.

**Proof sketch.** The bracket is closed, but its name is blank, so the line is malformed. The keys
are computed. -/
theorem scan_ini_sections_malformed :
    let lines := ["a = 1", "[s]", "[ ] = 2", "b : 3"]
    let lines' := ["a = 1", "[s]", "", "b : 3"]
    let clauses := Ini.clauses (lines.map String.toList)
    List.Forall₂ (fun a b => a = b ∨ Ini.Malformed a.toList ∧ b = "") lines lines'
      ∧ ini.scan lines = ini.scan lines'
      ∧ Clause.held clauses (some 1) .vars = [("b", 3)]
      ∧ (ini.scan lines).get .vars = [Draft.leafOf .vars "a" 0] := by
  intro lines lines' clauses
  have hmalformed : Ini.Malformed "[ ] = 2".toList := by
    refine ⟨" ] = 2".toList, by decide +kernel, fun name behind hheader hfirst => ?_⟩
    have hname : name = [' '] := by
      have hall : name.all (· != ']') = true :=
        List.all_eq_true.2 fun c hc => by simpa using fun h : c = ']' => hfirst (h ▸ hc)
      have hword : (name ++ ']' :: behind).takeWhile (· != ']') = name := takeWhile_word hall rfl
      rw [← hheader] at hword
      exact hword.symm.trans (by decide +kernel)
    rw [hname]
    decide +kernel
  have hlines : List.Forall₂ (fun a b : String => a = b ∨ Ini.Malformed a.toList ∧ b = "")
      lines lines' := .cons (.inl rfl) (.cons (.inl rfl) (.cons (.inr ⟨hmalformed, rfl⟩)
        (.cons (.inl rfl) .nil)))
  have hkeys := (scan_ini_sections lines).2.2.1 .vars (by decide)
  have htop : Clause.held clauses none .vars = [("a", 0)] := by decide +kernel
  rw [htop] at hkeys
  exact ⟨hlines, (scan_ini_sections lines).2.2.2.2 lines' hlines, by decide +kernel, hkeys⟩

end Language

end Outliner
