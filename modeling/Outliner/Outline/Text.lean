import Outliner.Outline

set_option autoImplicit false

/-!
# Outlines as text

An outline is written with one line for each heading and one for each item, the items two columns
further in than their heading and the headings below an item two columns further in than the item.
Lines of the source are counted from one here.

## Main definitions

* `Outliner.Outline.render` — the text of an outline.
-/

namespace Outliner

/-- The blanks before the headings at a depth of nesting. -/
def indentation (depth : Nat) : String := String.ofList (List.replicate (4 * depth) ' ')

namespace Node

mutual

/-- The line of a node and the lines below it, where its heading stands at a depth of nesting. -/
def renderAt (depth : Nat) : Node → String
  | ⟨name, _, line, _, groups⟩ =>
    indentation depth ++ "  " ++ name ++ " (line " ++ toString (line + 1) ++ ")\n"
      ++ renderGroups (depth + 1) groups

/-- The lines of groups whose headings stand at a depth of nesting. -/
def renderGroups (depth : Nat) : List (Heading Node) → String
  | [] => ""
  | ⟨kind, description, _, items⟩ :: groups =>
    indentation depth ++ description.getD kind.key ++ "\n" ++ renderItems depth items
      ++ renderGroups depth groups

/-- The lines of nodes whose heading stands at a depth of nesting. -/
def renderItems (depth : Nat) : List Node → String
  | [] => ""
  | n :: items => n.renderAt depth ++ renderItems depth items

end

end Node

/-- The text of an outline. -/
def Outline.render (o : Outline) : String := Node.renderGroups 0 o.groups

end Outliner
