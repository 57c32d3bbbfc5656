import ComponentGraph.Text.Decimal
import ComponentGraph.Text.Quoted

/-!
Values of the JSON data format. Numbers without fraction and exponent that fit in sixty-four bits
are whole numbers; all others are floating point. Objects keep their members in the order in which
they were written. `describe` is how a value is spoken of in messages, and `Mismatch` lists the ways
in which a value can fail to be what was expected of it.
-/

set_option autoImplicit false
set_option relaxedAutoImplicit false

namespace ComponentGraph

/-- A JSON value. -/
inductive Json where
  | null
  | boolean (value : Bool)
  | whole (value : Int)
  | decimal (value : Float)
  | text (value : String)
  | array (items : List Json)
  | object (members : List (String × Json))
  deriving Inhabited

namespace Json

/-- How a floating point number is written in a message. -/
def decimalStyle : Text.Decimal.Style where
  lowest := -5
  highest := 15
  point := "."
  mark := "e"
  plus := "+"
  minus := "-"

/-- How a value is spoken of in a message. -/
def describe : Json → String
  | .null => "null"
  | .boolean value => "boolean `" ++ (if value then "true" else "false") ++ "`"
  | .whole value => "integer `" ++ toString value ++ "`"
  | .decimal value => "floating point `" ++ Text.Decimal.render decimalStyle value ++ "`"
  | .text value => "string " ++ Text.Quoted.ofString value
  | .array _ => "sequence"
  | .object _ => "map"

/-- The member of this name. -/
def member? (value : Json) (name : String) : Option Json :=
  match value with
  | .object members => members.lookup name
  | _ => none

/-- The largest whole number of sixty-four bits. -/
def largestNatural : Nat := 18446744073709551615

/-- Why a value is not what was expected. -/
inductive Mismatch where
  | invalidType (found : Json) (expected : String)
  | invalidValue (found : Json) (expected : String)
  | invalidLength (length : Nat) (expected : String)
  | missingField (name : String)
  | repeatedField (name : String)
  | unknownVariant (name : String) (variants : List String)

/-- Names in backticks with commas between them. -/
def listNames (names : List String) : String :=
  ", ".intercalate (names.map (fun name ↦ "`" ++ name ++ "`"))

/-- The wording of a mismatch. -/
def Mismatch.message : Mismatch → String
  | .invalidType found expected => "invalid type: " ++ found.describe ++ ", expected " ++ expected
  | .invalidValue found expected =>
      "invalid value: " ++ found.describe ++ ", expected " ++ expected
  | .invalidLength length expected =>
      "invalid length " ++ toString length ++ ", expected " ++ expected
  | .missingField name => "missing field `" ++ name ++ "`"
  | .repeatedField name => "duplicate field `" ++ name ++ "`"
  | .unknownVariant name variants =>
      "unknown variant `" ++ name ++ "`, expected one of " ++ listNames variants

end Json

end ComponentGraph
