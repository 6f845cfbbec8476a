import Mathlib.Tactic.Lemma
import Outliner.Proofs.Python.Interior

set_option autoImplicit false

/-!
# What the lines of a Python source declare

A statement begins on a line that begins outside literals, brackets and continuations and that is
neither blank nor a comment. With the places of the characters this tells what stands on each line
of a source, whoever reads it, and the blocks of these lines tell what is reported and where.

The reader makes the same page of a source as long as no line begins within a short literal. From
such a line on it may see statements where there are none, and what comes behind them is filed in
classes that do not exist.

## Main definitions

* `Outliner.Python.Beginning.statementLine?` — what stands on a line that begins there.
* `Outliner.Python.page` — the page of a source.

## Main results

* `Outliner.Python.readPage_eq` — the page that the reader makes of a source is its page, up to a
  line that begins within a short literal.
* `Outliner.Language.scan_python_perm` — the elements of a document are those that its lines
  declare, up to such a line.
-/

namespace Outliner

namespace Python

/-! ## Pages -/

/-- What stands on a line that begins there, if a statement begins on it: the line begins outside
literals, brackets and continuations, and it is neither blank nor a comment. -/
def Beginning.statementLine? (b : Beginning) (text : List Char) : Option StatementLine :=
  let code := trimStart text
  if b.isInterior || code.isEmpty || startsWith ['#'] code then none
  else some ⟨indentWidth text tabWidth, statement code (scanLine {} text).target⟩

/-- The page of a source. -/
def page (lines : List (List Char)) : Page := fun k =>
  lines[k]?.bind (beginningOf lines k).statementLine?

/-- A line that begins neither within something nor in a continuation begins like the first line of
a source. -/
lemma Beginning.eq_of_not_isInterior {b : Beginning} (h : b.isInterior = false) : b = {} := by
  obtain ⟨literal, brackets, continued⟩ := b
  simp only [Beginning.isInterior, Bool.or_eq_false_iff, Option.isSome_eq_false_iff,
    Option.isNone_iff_eq_none, bne_eq_false_iff_eq] at h
  obtain ⟨⟨rfl, rfl⟩, rfl⟩ := h
  rfl

/-- What the reader takes for a statement line is one, if the line does not begin within a short
literal.

**Proof sketch.** On an interior line neither sees a statement. Any other line begins like the first
one of a source, and there is nothing that could be carried to it. -/
lemma statementLine?_lexical {b : Beginning} (hshort : b.isInShort = false) (text : List Char) :
    Python.statementLine? b.lexical text = b.statementLine? text := by
  cases hinterior : b.isInterior with
  | true =>
    rw [statementLine?_of_not_atStatement (Beginning.atStatement_lexical hshort hinterior)]
    simp [Beginning.statementLine?, hinterior]
  | false =>
    rw [Beginning.eq_of_not_isInterior hinterior]
    rfl

/-- **The page that the reader makes of a source is its page**, up to a line that begins within a
short literal.

**Proof sketch.** The reader knows within what each of these lines begins (`lexicalBefore_eq`). -/
theorem readPage_eq {lines : List (List Char)} {k : Nat}
    (hshort : ∀ i ≤ k, (beginningOf lines i).isInShort = false) :
    readPage lines k = page lines k := by
  rw [readPage, page]
  cases htext : lines[k]? with
  | none => rfl
  | some text =>
    obtain ⟨hk, -⟩ := List.getElem?_eq_some_iff.1 htext
    have hbefore := lexicalBefore_eq (Nat.le_of_lt hk) fun i hi => hshort i (Nat.le_of_lt hi)
    rw [Option.bind_some, Option.bind_some, hbefore]
    exact statementLine?_lexical (hshort k (Nat.le_refl k)) text

/-- The elements that stand before line `k` are those that the lines before line `k` declare.

**Proof sketch.** What is reported of a line stands on it (`line_of_reported?`), so among all lines
exactly those before line `k` are kept. -/
lemma filter_filterMap_reported? (p : Page) {k n : Nat} (hk : k ≤ n) :
    ((List.range n).filterMap (reported? p)).filter (·.tag.line < k)
      = (List.range k).filterMap (reported? p) := by
  have hsplit : List.range n = List.range k ++ (List.range (n - k)).map (k + ·) := by
    rw [← List.range_add, Nat.add_sub_of_le hk]
  have hbefore : ∀ o ∈ (List.range k).filterMap (reported? p),
      decide (o.tag.line < k) = true := by
    intro o ho
    obtain ⟨i, hi, hreported⟩ := List.mem_filterMap.1 ho
    rw [line_of_reported? hreported]
    exact decide_eq_true (List.mem_range.1 hi)
  have hafter : ∀ o ∈ ((List.range (n - k)).map (k + ·)).filterMap (reported? p),
      ¬ decide (o.tag.line < k) = true := by
    intro o ho
    obtain ⟨i, hi, hreported⟩ := List.mem_filterMap.1 ho
    obtain ⟨j, -, rfl⟩ := List.mem_map.1 hi
    rw [line_of_reported? hreported, decide_eq_true_eq]
    omega
  rw [hsplit, List.filterMap_append, List.filter_append, List.filter_eq_self.2 hbefore,
    List.filter_eq_nil_iff.2 hafter, List.append_nil]

end Python

namespace Language

/-- **The elements of a Python document are those that its lines declare**, up to a line that begins
within a short literal. Each line outside functions on which a statement begins declares its element
once, held by the classes in whose blocks it stands; a function is a method if there are any. No
element stands behind the last line.

**Proof sketch.** The document has the elements that the reader sees declared
(`scan_python_readPage`). What a line declares depends on the page up to the line only
(`Python.reported?_congr`), and up to there the reader makes of the source what it is. -/
theorem scan_python_perm {lines : List String} {k : Nat} (hk : k ≤ lines.length)
    (hshort : ∀ i < k, (Python.beginningOf (lines.map String.toList) i).isInShort = false) :
    ((python.scan lines).occurrences.filter (·.tag.line < k)).Perm
        ((List.range k).filterMap (Python.reported? (Python.page (lines.map String.toList))))
      ∧ ∀ o ∈ (python.scan lines).occurrences, o.tag.line < lines.length := by
  have hread := scan_python_readPage lines
  constructor
  · have hpage : ∀ i < k, Python.reported? (Python.readPage (lines.map String.toList)) i
        = Python.reported? (Python.page (lines.map String.toList)) i := fun i hi =>
      Python.reported?_congr fun j hj =>
        Python.readPage_eq fun m hm => hshort m (by omega)
    have hfiltered := hread.filter (·.tag.line < k)
    rw [Python.filter_filterMap_reported? _ hk] at hfiltered
    refine hfiltered.trans (List.Perm.of_eq (List.filterMap_congr fun i hi => ?_))
    exact hpage i (List.mem_range.1 hi)
  · intro o ho
    obtain ⟨i, hi, hreported⟩ := List.mem_filterMap.1 (hread.subset ho)
    rw [Python.line_of_reported? hreported]
    exact List.mem_range.1 hi

/-- A class with a method behind a long literal, what is local to the method, and a variable outside
the class. -/
theorem scan_python_perm_class :
    let lines := ["class A:", "    '''", "def f(): pass", "'''", "    def m(self):",
      "        class L: pass", "x = 1"]
    (∀ i < 7, (Python.beginningOf (lines.map String.toList) i).isInShort = false)
      ∧ ((python.scan lines).occurrences.filter (·.tag.line < 7)).Perm
        ((List.range 7).filterMap (Python.reported? (Python.page (lines.map String.toList))))
      ∧ (python.scan lines).occurrences.map (fun o => (o.tag.line, o.tag.name, o.tag.scope))
        = [(0, "A", none), (4, "m", some "A"), (6, "x", none)] := by
  intro lines
  have hshort : ∀ i < 7, (Python.beginningOf (lines.map String.toList) i).isInShort = false := by
    decide +kernel
  exact ⟨hshort, (scan_python_perm (by decide) hshort).1, by decide +kernel⟩

/-- A line within a short literal is read as a class. It declares nothing, but it is reported, and
so what follows it is filed in that class and not in the one in which it stands.

**Proof sketch.** Line 2 is interior, so it holds no statement and nothing is reported of it. An
element of the document stands there all the same. -/
theorem scan_python_escaped_class :
    let lines := ["class A:", "    x = 'a\\", "class B: '", "    def m(self): pass"]
    let page := Python.page (lines.map String.toList)
    page 2 = none ∧ Python.parent? page 3 = some 0
      ∧ (python.scan lines).occurrences.map (fun o => (o.tag.line, o.tag.name, o.tag.scope))
        = [(0, "A", none), (1, "x", some "A"), (2, "B", none), (3, "m", some "B")]
      ∧ ¬ (python.scan lines).occurrences.Perm
        ((List.range 4).filterMap (Python.reported? page)) := by
  intro lines page
  have hpage : page 2 = none := by decide +kernel
  refine ⟨hpage, by decide +kernel, by decide +kernel, fun hperm => ?_⟩
  have hreported : ∃ o ∈ (python.scan lines).occurrences, o.tag.line = 2 := by decide +kernel
  obtain ⟨o, ho, hline⟩ := hreported
  obtain ⟨k, -, hk⟩ := List.mem_filterMap.1 (hperm.subset ho)
  obtain rfl : 2 = k := hline.symm.trans (Python.line_of_reported? hk)
  rw [Python.reported?, hpage] at hk
  cases hk

end Language

end Outliner
