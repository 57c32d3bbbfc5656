import ComponentGraph.Json.Value

/-!
Writing JSON with one item or member a line, each level indented by two blanks. Empty lists and
objects stay on one line. In strings the quote, the backslash and the control characters are
escaped, the common ones by letter and the others by number; every other character stands for
itself.
-/

set_option autoImplicit false
set_option relaxedAutoImplicit false

namespace ComponentGraph.Json

/-- A hexadecimal digit below sixteen, as a character. -/
def hexCharacter (digit : Nat) : Char :=
  if digit < 10 then Char.ofNat (48 + digit) else Char.ofNat (87 + digit)

/-- A character as it stands in a string. -/
def escaped (character : Char) : List Char :=
  if character = '"' then ['\\', '"']
  else if character = '\\' then ['\\', '\\']
  else if character = '\n' then ['\\', 'n']
  else if character = '\r' then ['\\', 'r']
  else if character = '\t' then ['\\', 't']
  else if character.toNat = 0x08 then ['\\', 'b']
  else if character.toNat = 0x0C then ['\\', 'f']
  else if character.toNat < 0x20 then
    ['\\', 'u', '0', '0', hexCharacter (character.toNat / 16), hexCharacter (character.toNat % 16)]
  else [character]

/-- A text between quotes. -/
def quoted (text : String) : String :=
  "\"" ++ String.ofList (text.toList.flatMap escaped) ++ "\""

/-- A new line at a level. -/
def newline (level : Nat) : String :=
  "\n" ++ String.ofList (List.replicate (2 * level) ' ')

mutual

/-- A value at a level of indentation. -/
def printAt (level : Nat) : Json → String
  | .null => "null"
  | .boolean true => "true"
  | .boolean false => "false"
  | .whole value => toString value
  | .decimal value => Text.Decimal.render decimalStyle value
  | .text value => quoted value
  | .array [] => "[]"
  | .array (first :: rest) =>
      "[" ++ newline (level + 1) ++ printAt (level + 1) first ++ printItems (level + 1) rest ++
        newline level ++ "]"
  | .object [] => "\x7b\x7d"
  | .object ((name, first) :: rest) =>
      "\x7b" ++ newline (level + 1) ++ quoted name ++ ": " ++ printAt (level + 1) first ++
        printMembers (level + 1) rest ++ newline level ++ "\x7d"

/-- The items after the first. -/
def printItems (level : Nat) : List Json → String
  | [] => ""
  | item :: rest => "," ++ newline level ++ printAt level item ++ printItems level rest

/-- The members after the first. -/
def printMembers (level : Nat) : List (String × Json) → String
  | [] => ""
  | (name, value) :: rest =>
      "," ++ newline level ++ quoted name ++ ": " ++ printAt level value ++
        printMembers level rest

end

/-- A value written out. -/
def print (value : Json) : String :=
  printAt 0 value

end ComponentGraph.Json
