import ComponentGraph.Node.Basic

/-!
Reading nodes from JSON values. A node is an object with all five fields, beside which others are
passed over, or a list of the five values in their order. The first value that is not of its type,
in the order in which values are given, is what a failure is about; after that a missing field is.
-/

set_option autoImplicit false
set_option relaxedAutoImplicit false

namespace ComponentGraph.Node

open Json (Mismatch)

/-! ### Values of a type -/

/-- A text. -/
def textOf : Json → Except Mismatch String
  | .text value => .ok value
  | other => .error (.invalidType other "a string")

/-- A list, item by item. -/
def listOf {α : Type} (item : Json → Except Mismatch α) : Json → Except Mismatch (List α)
  | .array items => items.mapM item
  | other => .error (.invalidType other "a sequence")

/-- A natural number. -/
def naturalOf : Json → Except Mismatch Nat
  | .whole value =>
      if 0 ≤ value then .ok value.toNat else .error (.invalidValue (.whole value) "usize")
  | other => .error (.invalidType other "usize")

/-- The category of a name. -/
def kindOfLabel (label : String) : Except Mismatch Name.Kind :=
  match Name.Kind.ofLabel? label with
  | some kind => .ok kind
  | none => .error (.unknownVariant label (Name.Kind.all.map Name.Kind.label))

/-- A category: its name, or an object with its name as the only member and nothing in it. -/
def kindOf : Json → Except Mismatch Name.Kind
  | .text label => kindOfLabel label
  | .object [(label, content)] => do
      let kind ← kindOfLabel label
      match content with
      | .null => .ok kind
      | other => .error (.invalidType other "unit")
  | .object members => .error (.invalidValue (.object members) "map with a single key")
  | other => .error (.invalidType other "string or map")

/-! ### Nodes -/

/-- A node of which some fields may not have been met yet. -/
structure Draft where
  id : Option String := none
  children : Option (List String) := none
  filePath : Option String := none
  kind : Option Name.Kind := none
  usedCount : Option Nat := none

/-- A member read into a draft. -/
def Draft.put (draft : Draft) (name : String) (value : Json) : Except Mismatch Draft :=
  match name with
  | "id" => return { draft with id := some (← textOf value) }
  | "children" => return { draft with children := some (← listOf textOf value) }
  | "filePath" => return { draft with filePath := some (← textOf value) }
  | "type" => return { draft with kind := some (← kindOf value) }
  | "usedCount" => return { draft with usedCount := some (← naturalOf value) }
  | _ => .ok draft

/-- A field that has to be there. -/
def demand {α : Type} (name : String) : Option α → Except Mismatch α
  | some value => .ok value
  | none => .error (.missingField name)

/-- The node of a finished draft. -/
def Draft.finish (draft : Draft) : Except Mismatch Node := do
  return {
    id := ← demand "id" draft.id
    children := ← demand "children" draft.children
    filePath := ← demand "filePath" draft.filePath
    kind := ← demand "type" draft.kind
    usedCount := ← demand "usedCount" draft.usedCount }

/-- The names of the fields, in their order. -/
def fieldNames : List String := ["id", "children", "filePath", "type", "usedCount"]

/-- Reads the items of a list into a draft, field by field. -/
def putItems : List (String × Nat) → List Json → Draft → Except Mismatch Draft
  | [], _, draft => .ok draft
  | (_, place) :: _, [], _ => .error (.invalidLength place "struct ComponentNode with 5 elements")
  | (name, _) :: fields, item :: items, draft => do putItems fields items (← draft.put name item)

/-- A node. -/
def ofJson : Json → Except Mismatch Node
  | .object members => do
      (← members.foldlM (fun draft member ↦ draft.put member.1 member.2) ({} : Draft)).finish
  | .array items => do
      let node ← (← putItems fieldNames.zipIdx items {}).finish
      if fieldNames.length < items.length then
        .error (.invalidLength items.length "fewer elements in array")
      else .ok node
  | other => .error (.invalidType other "struct ComponentNode")

/-- A list of nodes. -/
def listOfJson : Json → Except Mismatch (List Node) :=
  listOf ofJson

end ComponentGraph.Node
