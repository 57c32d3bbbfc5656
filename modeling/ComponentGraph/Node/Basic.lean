import ComponentGraph.Json.Print
import ComponentGraph.Name

/-!
The nodes of a result: a name with its category, the file that declares it, how often it is used,
and the names that it depends on.
-/

set_option autoImplicit false
set_option relaxedAutoImplicit false

namespace ComponentGraph

/-- One node of a result. -/
structure Node where
  id : String
  children : List String
  filePath : String
  kind : Name.Kind
  usedCount : Nat
  deriving Repr, DecidableEq, Inhabited

namespace Node

/-- A node as a JSON object. -/
def toJson (node : Node) : Json :=
  .object [
    ("id", .text node.id),
    ("children", .array (node.children.map .text)),
    ("filePath", .text node.filePath),
    ("type", .text node.kind.label),
    ("usedCount", .whole node.usedCount)]

/-- Nodes as a JSON list. -/
def listToJson (nodes : List Node) : Json :=
  .array (nodes.map toJson)

end Node

end ComponentGraph
