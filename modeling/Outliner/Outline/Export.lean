import Outliner.Outline
import Outliner.Json

set_option autoImplicit false

/-!
# Outlines as JSON

An outline is exported field by field in the order of its types. A description or a scope that is
missing is left out, and so are the groups of a node that has none.

## Main definitions

* `Outliner.Node.toJson`, `Outliner.Outline.toJson` — the exported form.
-/

namespace Outliner

/-- A field that may be missing. -/
def Json.optionalText (name : String) (value : Option String) : List (String × Json) :=
  (value.map fun text => (name, Json.text text)).toList

namespace Node

mutual

/-- A node as JSON. -/
def toJson : Node → Json
  | ⟨name, kind, line, scope, groups⟩ =>
    .object
      ([("name", .text name), ("kind", .text kind.key), ("line", .number line)]
        ++ Json.optionalText "scope" scope
        ++ if groups.isEmpty then [] else [("groups", .array (groupsToJson groups))])

/-- Groups as JSON. -/
def groupsToJson : List (Heading Node) → List Json
  | [] => []
  | ⟨kind, description, priority, items⟩ :: groups =>
    .object
      ([("kind", .text kind.key)] ++ Json.optionalText "description" description
        ++ [("priority", .number priority), ("items", .array (itemsToJson items))])
      :: groupsToJson groups

/-- Nodes as JSON. -/
def itemsToJson : List Node → List Json
  | [] => []
  | n :: items => n.toJson :: itemsToJson items

end

end Node

/-- An outline as JSON. -/
def Outline.toJson (o : Outline) : Json :=
  .object [("groups", .array (Node.groupsToJson o.groups))]

end Outliner
