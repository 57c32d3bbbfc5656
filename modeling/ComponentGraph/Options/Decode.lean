import ComponentGraph.Json.Read
import ComponentGraph.Options.Basic

/-!
Reading options from JSON text. An object may give any of the options, in any order and each at most
once, beside members of other names, which are passed over. A list gives the options in their order
and may stop early. What is read is a layer, and whatever is missing in it has its default. Reading
goes from left to right and stops at the first thing that is wrong, be it the form of the text or
the type of a value.
-/

set_option autoImplicit false
set_option relaxedAutoImplicit false

namespace ComponentGraph.Options

open Json

/-! ### Values of a type -/

/-- Fails because the value that comes next is not of the expected type. A list or an object is not
looked into. -/
def unexpectedType {α : Type} (expected : String) : Scan α := do
  match ← peek? with
  | some '[' => failHere (.mismatch (.invalidType (.array []) expected))
  | some '{' => failHere (.mismatch (.invalidType (.object []) expected))
  | _ =>
      match ← scalar? with
      | some found => failHere (.mismatch (.invalidType found expected))
      | none => failAhead .expectedValue

/-- The first character of a value, which has to be there. -/
def valueStart : Scan Char := do
  match ← peekSolid? with
  | some character => return character
  | none => failAhead .endInValue

/-- A natural number of sixty-four bits. -/
def natural : Scan Nat := do
  let start ← valueStart
  if start = '-' ∨ isDigit start then
    match ← scalar? with
    | some (.whole found) =>
        if 0 ≤ found then return found.toNat
        else failHere (.mismatch (.invalidValue (.whole found) "usize"))
    | some found => failHere (.mismatch (.invalidType found "usize"))
    | none => failAhead .expectedValue
  else unexpectedType "usize"

/-- A truth value. -/
def boolean : Scan Bool := do
  let start ← valueStart
  if start = 't' ∨ start = 'f' then
    match ← scalar? with
    | some (.boolean found) => return found
    | _ => failAhead .expectedValue
  else unexpectedType "a boolean"

/-- A text. -/
def text : Scan String := do
  let start ← valueStart
  if start = '"' then
    pass 1
    string
  else unexpectedType "a string"

/-- The texts of a list, up to its closing bracket. -/
def texts : Nat → Bool → Scan (List String)
  | 0, _ => failHere .endInValue
  | fuel + 1, first => do
      if ← moreItems first then
        let item ← text
        return item :: (← texts fuel false)
      else return []

/-- A list of texts. -/
def textList : Scan (List String) := do
  let start ← valueStart
  if start = '[' then
    pass 1
    let found ← texts ((← get).rest.length + 1) true
    closeList
    return found
  else unexpectedType "a sequence"

/-! ### Fields -/

/-- The options by name. -/
inductive Field where
  | maxNodes
  | includeLibraries
  | focusComponent
  | importDepth
  | ignores
  deriving Repr, DecidableEq

namespace Field

/-- All fields, in their order. -/
def all : List Field := [.maxNodes, .includeLibraries, .focusComponent, .importDepth, .ignores]

/-- The name of a field. -/
def name : Field → String
  | .maxNodes => "maxNodes"
  | .includeLibraries => "includeLibraries"
  | .focusComponent => "focusComponent"
  | .importDepth => "importDepth"
  | .ignores => "ignores"

/-- The field of a name. -/
def ofName? (text : String) : Option Field :=
  all.find? (fun field ↦ field.name == text)

/-- Reads the value of a field into a layer. -/
def read (field : Field) (layer : Layer) : Scan Layer :=
  match field with
  | .maxNodes => return { layer with maxNodes := some (← natural) }
  | .includeLibraries => return { layer with includeLibraries := some (← boolean) }
  | .focusComponent => return { layer with focusComponent := some (← text) }
  | .importDepth => return { layer with importDepth := some (← natural) }
  | .ignores => return { layer with ignores := some (← textList) }

end Field

/-- Fails because a field is given again. If the object ends right there, the failure is noticed
behind its end. -/
def failRepeated {α : Type} (field : Field) : Scan α := do
  if (← peekSolid?) == some '}' then pass 1
  failHere (.mismatch (.repeatedField field.name))

/-- The members of an object read into a layer; `given` are the fields met so far. -/
def readMembers : Nat → Bool → List Field → Layer → Scan Layer
  | 0, _, _, _ => failHere .endInValue
  | fuel + 1, first, given, layer => do
      if ← moreMembers first then
        pass 1
        match Field.ofName? (← string) with
        | none =>
            colon
            skipValue (enoughFuel (← get).rest.length)
            readMembers fuel false given layer
        | some field =>
            if given.contains field then failRepeated field
            else
              colon
              let changed ← field.read layer
              readMembers fuel false (field :: given) changed
      else return layer

/-- The items of a list read into a layer, field by field. -/
def readItems : List Field → Bool → Layer → Scan Layer
  | [], _, layer => return layer
  | field :: rest, first, layer => do
      if ← moreItems first then
        let changed ← field.read layer
        readItems rest false changed
      else return layer

/-- A layer, from an object or a list. -/
def readLayer : Scan Layer := do
  match ← valueStart with
  | '[' =>
      pass 1
      let found ← readItems Field.all true {}
      closeList
      return found
  | '{' =>
      pass 1
      let found ← readMembers ((← get).rest.length + 1) true [] {}
      closeObject
      return found
  | _ => unexpectedType "struct AnalyzeOptions"

/-- The options that a text gives, and no others. -/
def Layer.parse (text : String) : Except Json.Failure Layer :=
  readAll readLayer text

/-- The options that a text gives, with the defaults for all others. -/
def parse (text : String) : Except Json.Failure Options :=
  (Layer.parse text).map (fun layer ↦ layer.atop {})

end ComponentGraph.Options
