import ComponentGraph.Json.Scan

/-!
Reading whole JSON values, and passing over them. The steps between the items of a list and between
the members of an object are separate, so that whoever reads a particular shape can use them too.
Passing over a value checks its form but not that its numbers and strings have a value; it also says
less about a comma too many.
-/

set_option autoImplicit false
set_option relaxedAutoImplicit false

namespace ComponentGraph.Json

/-! ### Between items and members -/

/-- Moves to the next item of a list and says whether there is one. `first` tells that no item has
been read. -/
def moreItems (first : Bool) : Scan Bool := do
  match ← peekSolid? with
  | none => failAhead .endInList
  | some ']' => return false
  | some character =>
      if first then return true
      else if character = ',' then
        pass 1
        match ← peekSolid? with
        | none => failAhead .endInValue
        | some ']' => failAhead .trailingComma
        | some _ => return true
      else failAhead .expectedListEnd

/-- The end of a list. -/
def closeList : Scan Unit := do
  match ← peekSolid? with
  | none => failAhead .endInList
  | some ']' => pass 1
  | some ',' =>
      pass 1
      match ← peekSolid? with
      | some ']' => failAhead .trailingComma
      | _ => failAhead .trailingCharacters
  | some _ => failAhead .trailingCharacters

/-- Moves to the opening quote of the next member's name and says whether there is one. -/
def moreMembers (first : Bool) : Scan Bool := do
  match ← peekSolid? with
  | none => failAhead .endInObject
  | some '}' => return false
  | some character =>
      if first = false ∧ character ≠ ',' then failAhead .expectedObjectEnd
      else
        if first = false then pass 1
        match ← peekSolid? with
        | none => failAhead .endInValue
        | some '"' => return true
        | some '}' => failAhead .trailingComma
        | some _ => failAhead .keyNotText

/-- The end of an object. -/
def closeObject : Scan Unit := do
  match ← peekSolid? with
  | none => failAhead .endInObject
  | some '}' => pass 1
  | some ',' => failAhead .trailingComma
  | some _ => failAhead .trailingCharacters

/-- The colon between a name and its value. -/
def colon : Scan Unit := do
  match ← peekSolid? with
  | none => failAhead .endInObject
  | some ':' => pass 1
  | some _ => failAhead .expectedColon

/-- A value that is no list and no object, if one is next. -/
def scalar? : Scan (Option Json) := do
  match ← peek? with
  | some 'n' =>
      pass 1
      word ['u', 'l', 'l']
      return some .null
  | some 't' =>
      pass 1
      word ['r', 'u', 'e']
      return some (.boolean true)
  | some 'f' =>
      pass 1
      word ['a', 'l', 's', 'e']
      return some (.boolean false)
  | some '-' =>
      pass 1
      return some (← number true)
  | some '"' =>
      pass 1
      return some (.text (← string))
  | some character => if isDigit character then return some (← number false) else return none
  | none => return none

/-! ### Values -/

/-- The members with one more. A name that is there already keeps its place and takes the new
value. -/
def setMember (name : String) (value : Json) : List (String × Json) → List (String × Json)
  | [] => [(name, value)]
  | (other, old) :: rest =>
      if other = name then (name, value) :: rest else (other, old) :: setMember name value rest

mutual

/-- A value. The fuel bounds nesting and length together. -/
def value : Nat → Scan Json
  | 0 => failHere .endInValue
  | fuel + 1 => do
      match ← peekSolid? with
      | none => failAhead .endInValue
      | some '[' =>
          pass 1
          let items ← items fuel true
          closeList
          return .array items
      | some '{' =>
          pass 1
          let members ← members fuel true []
          closeObject
          return .object members
      | some _ =>
          match ← scalar? with
          | some found => return found
          | none => failAhead .expectedValue

/-- The items of a list, up to its closing bracket. -/
def items : Nat → Bool → Scan (List Json)
  | 0, _ => failHere .endInValue
  | fuel + 1, first => do
      if ← moreItems first then
        let item ← value fuel
        return item :: (← items fuel false)
      else return []

/-- The members of an object, up to its closing brace, added to those read before. -/
def members : Nat → Bool → List (String × Json) → Scan (List (String × Json))
  | 0, _, _ => failHere .endInValue
  | fuel + 1, first, before => do
      if ← moreMembers first then
        pass 1
        let name ← string
        colon
        let found ← value fuel
        members fuel false (setMember name found before)
      else return before

end

/-- Nothing but blanks may be left. -/
def finishText : Scan Unit := do
  if (← peekSolid?).isSome then failAhead .trailingCharacters

/-- Runs a reader over a whole text. -/
def readAll {α : Type} (reader : Scan α) (text : String) : Except Failure α := do
  let (found, _) ← (do let found ← reader; finishText; return found : Scan α).run (.ofText text)
  return found

/-- More steps than a text of this many characters can take. -/
def enoughFuel (length : Nat) : Nat := 2 * length + 2

/-- The value that a text writes. -/
def parse (text : String) : Except Failure Json :=
  readAll (value (enoughFuel text.toList.length)) text

/-! ### Passing over values -/

/-- Passes over a value that is no list and no object and says whether one was next. -/
def skipScalar : Scan Bool := do
  match ← peek? with
  | some '-' =>
      pass 1
      skipNumber
      return true
  | some '"' =>
      pass 1
      skipString
      return true
  | some character =>
      if isDigit character then
        skipNumber
        return true
      else return (← scalar?).isSome
  | none => return false

mutual

/-- Passes over a value. -/
def skipValue : Nat → Scan Unit
  | 0 => failHere .endInValue
  | fuel + 1 => do
      match ← peekSolid? with
      | none => failAhead .endInValue
      | some '[' =>
          pass 1
          skipItems fuel true
      | some '{' =>
          pass 1
          skipMembers fuel true
      | some _ => if ← skipScalar then pure () else failAhead .expectedValue

/-- Passes over the items of a list and its closing bracket. -/
def skipItems : Nat → Bool → Scan Unit
  | 0, _ => failHere .endInValue
  | fuel + 1, first => do
      match ← peekSolid? with
      | none => failAhead .endInList
      | some ']' => pass 1
      | some character =>
          if first = false ∧ character ≠ ',' then failAhead .expectedListEnd
          else
            if first = false then pass 1
            skipValue fuel
            skipItems fuel false

/-- Passes over the members of an object and its closing brace. -/
def skipMembers : Nat → Bool → Scan Unit
  | 0, _ => failHere .endInValue
  | fuel + 1, first => do
      match ← peekSolid? with
      | none => failAhead .endInObject
      | some '}' => pass 1
      | some character =>
          if first = false ∧ character ≠ ',' then failAhead .expectedObjectEnd
          else
            if first = false then pass 1
            match ← peekSolid? with
            | none => failAhead .endInObject
            | some '"' =>
                pass 1
                skipString
                colon
                skipValue fuel
                skipMembers fuel false
            | some _ => failAhead .keyNotText

end

end ComponentGraph.Json
