set_option autoImplicit false

/-!
# Kinds of elements

A source text is outlined as named elements, and elements of one kind are grouped together. The
kinds that occur in many languages have a constructor of their own; any other kind is known by its
key alone. A key is the short word by which a kind is written.

## Main definitions

* `Outliner.Kind` — the kinds. A constructor is named for the group it labels.
* `Outliner.Kind.key`, `Outliner.Kind.ofKey` — a kind as a word and back.
* `Outliner.Kind.IsCanonical` — no well-known kind is spelled out as a custom one.

## Main results

* `Outliner.Kind.ofKey_key_iff` — reading a kind's key gives the kind back exactly for canonical
  kinds.
-/

namespace Outliner

/-- The kind of an element, which is also the label of the group it is filed in. -/
inductive Kind
  /-- Classes and what holds members like one. -/
  | classes
  /-- Functions that stand by themselves. -/
  | functions
  /-- Functions that belong to a class. -/
  | methods
  /-- Variables, fields and settings. -/
  | vars
  /-- Text substitutions. -/
  | macros
  /-- Parts of a document, of a configuration or of an installer. -/
  | sections
  /-- Procedures. -/
  | procedures
  /-- Name spaces. -/
  | namespaces
  /-- Packages. -/
  | packages
  /-- Hardware modules. -/
  | modules
  /-- Hardware tasks. -/
  | tasks
  /-- Jump targets. -/
  | labels
  /-- Style classes and named styles. -/
  | styles
  /-- Element identifiers of style sheets. -/
  | ids
  /-- Element names of style sheets. -/
  | tags
  /-- Properties. -/
  | properties
  /-- Any other kind, known by its key. -/
  | custom (key : String)
deriving DecidableEq, Repr, Inhabited

namespace Kind

/-- The kinds with a constructor of their own. -/
def wellKnown : List Kind :=
  [classes, functions, methods, vars, macros, sections, procedures, namespaces, packages, modules,
    tasks, labels, styles, ids, tags, properties]

/-- The word by which the kind is written. -/
def key : Kind → String
  | classes => "class"
  | functions => "function"
  | methods => "method"
  | vars => "variable"
  | macros => "macro"
  | sections => "section"
  | procedures => "procedure"
  | namespaces => "namespace"
  | packages => "package"
  | modules => "module"
  | tasks => "task"
  | labels => "label"
  | styles => "style"
  | ids => "id"
  | tags => "tag"
  | properties => "property"
  | custom key => key

/-- The kind written by a word: the well-known kind with this key, or else a custom one. -/
def ofKey (word : String) : Kind :=
  (wellKnown.find? (·.key == word)).getD (custom word)

/-- A kind is canonical unless it spells out a well-known kind as a custom one. -/
def IsCanonical (kind : Kind) : Prop :=
  ∀ known ∈ wellKnown, kind ≠ custom known.key

/-- The kind that a key stands for has that key. -/
theorem key_ofKey (word : String) : (ofKey word).key = word := by
  simp only [ofKey]
  cases found : wellKnown.find? (·.key == word) with
  | none => rfl
  | some kind => simpa using List.find?_some found

/-- A well-known kind is the one that its key stands for. -/
theorem ofKey_key_of_wellKnown {kind : Kind} (h : kind ∈ wellKnown) : ofKey kind.key = kind := by
  simp only [wellKnown, List.mem_cons, List.not_mem_nil, or_false] at h
  rcases h with rfl | rfl | rfl | rfl | rfl | rfl | rfl | rfl | rfl | rfl | rfl | rfl | rfl | rfl
    | rfl | rfl <;> decide

/-- A kind is the one that its key stands for if and only if it is canonical.

**Proof sketch.** A kind that spells a well-known key by hand is not the one that is read from the
key. All other kinds are: the well-known ones are found under their keys, and no other word is found
at all. -/
theorem ofKey_key_iff {kind : Kind} : ofKey kind.key = kind ↔ kind.IsCanonical := by
  constructor
  · rintro same known isKnown rfl
    rw [show (custom known.key).key = known.key from rfl, ofKey_key_of_wellKnown isKnown] at same
    simp only [wellKnown, List.mem_cons, List.not_mem_nil, or_false] at isKnown
    rcases isKnown with rfl | rfl | rfl | rfl | rfl | rfl | rfl | rfl | rfl | rfl | rfl | rfl | rfl
      | rfl | rfl | rfl <;> exact absurd same (by decide)
  · intro canonical
    cases kind with
    | custom word =>
      show ofKey word = custom word
      rw [ofKey]
      cases found : wellKnown.find? (·.key == word) with
      | none => rfl
      | some known =>
        have spelled : known.key = word := by simpa using List.find?_some found
        exact absurd (by rw [spelled]) (canonical known (List.mem_of_find?_eq_some found))
    | _ => decide

/-- What a key stands for is canonical. -/
theorem isCanonical_ofKey (word : String) : (ofKey word).IsCanonical :=
  ofKey_key_iff.1 (by rw [key_ofKey])

end Kind

end Outliner
