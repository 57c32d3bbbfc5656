import ComponentGraph.Json.Value

/-!
Scanning JSON text. A cursor holds the characters that are left and how many bytes have been passed,
and a failure names the byte at which it was noticed, which becomes a line and a column when the
failure is put into words. This module scans what stands at the leaves of a value: blanks, words,
strings and numbers. Strings and numbers come in two forms, one that reads the value and one that
only passes over it and is therefore more tolerant.
-/

set_option autoImplicit false
set_option relaxedAutoImplicit false

namespace ComponentGraph.Json

/-! ### Failures -/

/-- Why a text cannot be read. -/
inductive Reason where
  | endInValue
  | endInList
  | endInObject
  | endInString
  | expectedColon
  | expectedListEnd
  | expectedObjectEnd
  | expectedWord
  | expectedValue
  | invalidEscape
  | invalidNumber
  | numberOutOfRange
  | controlCharacter
  | keyNotText
  | loneSurrogate
  | trailingComma
  | trailingCharacters
  | unfinishedEscape
  | mismatch (cause : Mismatch)

/-- The wording of a reason. -/
def Reason.message : Reason → String
  | .endInValue => "EOF while parsing a value"
  | .endInList => "EOF while parsing a list"
  | .endInObject => "EOF while parsing an object"
  | .endInString => "EOF while parsing a string"
  | .expectedColon => "expected `:`"
  | .expectedListEnd => "expected `,` or `]`"
  | .expectedObjectEnd => "expected `,` or `\x7d`"
  | .expectedWord => "expected ident"
  | .expectedValue => "expected value"
  | .invalidEscape => "invalid escape"
  | .invalidNumber => "invalid number"
  | .numberOutOfRange => "number out of range"
  | .controlCharacter => "control character (\\u0000-\\u001F) found while parsing a string"
  | .keyNotText => "key must be a string"
  | .loneSurrogate => "lone leading surrogate in hex escape"
  | .trailingComma => "trailing comma"
  | .trailingCharacters => "trailing characters"
  | .unfinishedEscape => "unexpected end of hex escape"
  | .mismatch cause => cause.message

/-- A reason and the number of bytes before the place where it was noticed. -/
structure Failure where
  offset : Nat
  reason : Reason

/-- A place in a text: lines count from one, and the column is the number of bytes since the line
began. -/
structure Place where
  line : Nat
  column : Nat
  deriving Repr, DecidableEq

/-- The place that lies so many bytes behind another one; the end of the characters if they are
fewer. -/
def Place.after (place : Place) : List Char → Nat → Place
  | [], _ => place
  | character :: rest, bytes =>
      if bytes < character.utf8Size then ⟨place.line, place.column + bytes⟩
      else if character = '\n' then Place.after ⟨place.line + 1, 0⟩ rest (bytes - 1)
      else
        Place.after ⟨place.line, place.column + character.utf8Size⟩ rest
          (bytes - character.utf8Size)

/-- The wording of a failure in a text. -/
def Failure.message (text : String) (failure : Failure) : String :=
  let place := Place.after ⟨1, 0⟩ text.toList failure.offset
  failure.reason.message ++ " at line " ++ toString place.line ++ " column " ++
    toString place.column

/-! ### The cursor -/

/-- What is left of a text and how many bytes lie before it. -/
structure Cursor where
  rest : List Char
  offset : Nat

/-- The cursor at the beginning of a text. -/
def Cursor.ofText (text : String) : Cursor :=
  ⟨text.toList, 0⟩

/-- Reading from a cursor, with a failure as the other outcome. -/
abbrev Scan := StateT Cursor (Except Failure)

/-- The number of bytes of characters. -/
def byteCount (characters : List Char) : Nat :=
  characters.foldr (fun character count ↦ character.utf8Size + count) 0

/-- Fails at the place that has been reached. -/
def failHere {α : Type} (reason : Reason) : Scan α := do
  throw ⟨(← get).offset, reason⟩

/-- Fails behind the byte that would be read next. Of a character with several bytes only the first
one counts as read. -/
def failAhead {α : Type} (reason : Reason) : Scan α := do
  throw ⟨(← get).offset + 1, reason⟩

/-- The next character, which stays. -/
def peek? : Scan (Option Char) := do
  return (← get).rest.head?

/-- Passes so many characters. -/
def pass (count : Nat) : Scan Unit :=
  modify fun cursor ↦
    ⟨cursor.rest.drop count, cursor.offset + byteCount (cursor.rest.take count)⟩

/-- The next character, passed. -/
def next? : Scan (Option Char) := do
  let character ← peek?
  pass 1
  return character

/-- Passes the characters of a class and returns them. -/
def passWhile (test : Char → Bool) : Scan (List Char) := do
  let taken := (← get).rest.takeWhile test
  pass taken.length
  return taken

/-- Blanks between the parts of a value. -/
def isBlank (character : Char) : Bool :=
  character == ' ' || character == '\n' || character == '\t' || character == '\r'

/-- The next character that is no blank, which stays. -/
def peekSolid? : Scan (Option Char) := do
  let _ ← passWhile isBlank
  peek?

/-- The rest of a word, character by character. -/
def word : List Char → Scan Unit
  | [] => pure ()
  | expected :: rest => do
      match ← peek? with
      | none => failHere .endInValue
      | some character =>
          if character = expected then
            pass 1
            word rest
          else failAhead .expectedWord

/-! ### Strings -/

/-- The value of a hexadecimal digit. -/
def hexDigit? (character : Char) : Option Nat :=
  if '0' ≤ character ∧ character ≤ '9' then some (character.toNat - 48)
  else if 'a' ≤ character ∧ character ≤ 'f' then some (character.toNat - 87)
  else if 'A' ≤ character ∧ character ≤ 'F' then some (character.toNat - 55)
  else none

/-- The value of four hexadecimal digits. -/
def hexValue? : List Char → Option Nat
  | [first, second, third, fourth] => do
      let high := (← hexDigit? first) * 16 + (← hexDigit? second)
      let low := (← hexDigit? third) * 16 + (← hexDigit? fourth)
      return high * 256 + low
  | _ => none

/-- Four hexadecimal digits. If they are not digits the failure is noticed behind the four bytes. -/
def hexEscape : Scan Nat := do
  let cursor ← get
  match hexValue? (cursor.rest.take 4) with
  | some value =>
      pass 4
      return value
  | none =>
      if byteCount cursor.rest < 4 then
        throw ⟨cursor.offset + byteCount cursor.rest, .endInString⟩
      else throw ⟨cursor.offset + 4, .invalidEscape⟩

/-- The character that an escape letter stands for. -/
def escapeLetter? : Char → Option Char
  | '"' => some '"'
  | '\\' => some '\\'
  | '/' => some '/'
  | 'b' => some (Char.ofNat 0x08)
  | 'f' => some (Char.ofNat 0x0C)
  | 'n' => some '\n'
  | 'r' => some '\r'
  | 't' => some '\t'
  | _ => none

/-- One character inside a string that has to be there. -/
def demandInString (expected : Char) : Scan Unit := do
  match ← peek? with
  | none => failHere .endInString
  | some character => if character = expected then pass 1 else failAhead .unfinishedEscape

/-- The character of an escape that is given by number, after its letter. A number from the leading
half of a pair needs the trailing half right behind it. -/
def numberedEscape : Scan Char := do
  let first ← hexEscape
  if 0xDC00 ≤ first ∧ first ≤ 0xDFFF then failHere .loneSurrogate
  else if 0xD800 ≤ first ∧ first ≤ 0xDBFF then
    demandInString '\\'
    demandInString 'u'
    let second ← hexEscape
    if 0xDC00 ≤ second ∧ second ≤ 0xDFFF then
      return Char.ofNat (0x10000 + (first - 0xD800) * 0x400 + (second - 0xDC00))
    else failHere .loneSurrogate
  else return Char.ofNat first

/-- The character of an escape, after its backslash. -/
def escape : Scan Char := do
  match ← peek? with
  | none => failHere .endInString
  | some 'u' =>
      pass 1
      numberedEscape
  | some letter =>
      match escapeLetter? letter with
      | some character =>
          pass 1
          return character
      | none => failAhead .invalidEscape

/-- An escape passed over, after its backslash. -/
def skipEscape : Scan Unit := do
  match ← peek? with
  | none => failHere .endInString
  | some 'u' =>
      pass 1
      let _ ← hexEscape
  | some letter => if (escapeLetter? letter).isSome then pass 1 else failAhead .invalidEscape

/-- The characters of a string after its opening quote; `latest` holds those read so far, latest
first. Every round passes a character. -/
def stringFrom : Nat → List Char → Scan String
  | 0, _ => failHere .endInString
  | fuel + 1, latest => do
      match ← next? with
      | none => failHere .endInString
      | some '"' => return String.ofList latest.reverse
      | some '\\' =>
          let character ← escape
          stringFrom fuel (character :: latest)
      | some character =>
          if character.toNat < 0x20 then failHere .controlCharacter
          else stringFrom fuel (character :: latest)

/-- A string after its opening quote. -/
def string : Scan String := do
  stringFrom ((← get).rest.length + 1) []

/-- A string passed over, after its opening quote. A control character is noticed before it is
passed. -/
def skipStringFrom : Nat → Scan Unit
  | 0 => failHere .endInString
  | fuel + 1 => do
      match ← peek? with
      | none => failHere .endInString
      | some '"' => pass 1
      | some '\\' =>
          pass 1
          skipEscape
          skipStringFrom fuel
      | some character =>
          if character.toNat < 0x20 then failHere .controlCharacter
          else
            pass 1
            skipStringFrom fuel

/-- A string passed over, after its opening quote. -/
def skipString : Scan Unit := do
  skipStringFrom ((← get).rest.length + 1)

/-! ### Numbers -/

/-- Whether a character is a decimal digit. -/
def isDigit (character : Char) : Bool :=
  decide ('0' ≤ character) && decide (character ≤ '9')

/-- Digits read onto a number as long as it stays within sixty-four bits; with it, how many digits
were read and how many were left over. -/
def gather (number : Nat) (count : Nat) : List Char → Nat × Nat × Nat
  | [] => (number, count, 0)
  | digit :: rest =>
      let longer := number * 10 + (digit.toNat - 48)
      if longer ≤ largestNatural then gather longer (count + 1) rest
      else (number, count, rest.length + 1)

/-- Ten to a power of at most three hundred and eight. -/
def powerOfTen (power : Nat) : Float :=
  Float.ofScientific 1 false power

/-- The floating point number with this significand and power of ten, in steps that the format can
hold; nothing if it is too large. -/
def floatOf : Nat → Float → Int → Option Float
  | 0, value, _ => some value
  | fuel + 1, value, power =>
      if power.natAbs ≤ 308 then
        if 0 ≤ power then
          let product := value * powerOfTen power.natAbs
          if product.isInf then none else some product
        else some (value / powerOfTen power.natAbs)
      else if value == 0.0 then some value
      else if 0 ≤ power then none
      else floatOf fuel (value / powerOfTen 308) (power + 308)

/-- A floating point number from its sign, significand and power of ten. -/
def finish (negative : Bool) (significand : Nat) (power : Int) : Scan Json := do
  match floatOf (power.natAbs + 1) significand.toUInt64.toFloat power with
  | some value => return .decimal (if negative then -value else value)
  | none => failHere .numberOutOfRange

/-- The largest power of ten that is counted. -/
def largestPower : Nat := 2147483647

/-- The digits of an exponent, latest sum first. A sum beyond `largestPower` ends the count. -/
def exponentFrom : Nat → Nat → Scan (Option Nat)
  | 0, power => return some power
  | fuel + 1, power => do
      match ← peek? with
      | some digit =>
          if isDigit digit then
            pass 1
            let longer := power * 10 + (digit.toNat - 48)
            if largestPower < longer then return none else exponentFrom fuel longer
          else return some power
      | none => return some power

/-- An exponent, from its letter on, and the number that it completes. -/
def exponent (negative : Bool) (significand : Nat) (power : Int) : Scan Json := do
  pass 1
  let sign ← peek?
  if sign == some '+' || sign == some '-' then pass 1
  let downward := sign == some '-'
  match ← peek? with
  | none => failHere .endInValue
  | some digit =>
      if isDigit digit then
        pass 1
        match ← exponentFrom (← get).rest.length (digit.toNat - 48) with
        | some count =>
            finish negative significand (if downward then power - count else power + count)
        | none =>
            if significand ≠ 0 ∧ downward = false then failHere .numberOutOfRange
            else
              let _ ← passWhile isDigit
              return .decimal (if negative then -0.0 else 0.0)
      else failAhead .invalidNumber

/-- What may follow the digits before the point: a fraction, an exponent, or nothing. `surplus` is
the number of digits that the significand left over. -/
def afterDigits (negative : Bool) (significand surplus : Nat) : Scan Json := do
  match ← peek? with
  | some '.' =>
      pass 1
      let digits ← passWhile isDigit
      if digits.isEmpty then
        match ← peek? with
        | some _ => failAhead .invalidNumber
        | none => failAhead .endInValue
      else
        let (longer, count, _) := gather significand 0 digits
        let power : Int := (surplus : Int) - (count : Int)
        let following ← peek?
        if following == some 'e' || following == some 'E' then exponent negative longer power
        else finish negative longer power
  | some 'e' => exponent negative significand surplus
  | some 'E' => exponent negative significand surplus
  | _ =>
      if 0 < surplus then finish negative significand surplus
      else if negative then
        if 0 < significand ∧ significand ≤ 9223372036854775808 then
          return .whole (-(significand : Int))
        else return .decimal (-significand.toUInt64.toFloat)
      else return .whole significand

/-- A number, after its sign. -/
def number (negative : Bool) : Scan Json := do
  match ← peek? with
  | none => failHere .endInValue
  | some '0' =>
      pass 1
      match ← peek? with
      | some following =>
          if isDigit following then failAhead .invalidNumber else afterDigits negative 0 0
      | none => afterDigits negative 0 0
  | some digit =>
      if isDigit digit then
        let (significand, _, surplus) := gather 0 0 (← passWhile isDigit)
        afterDigits negative significand surplus
      else failAhead .invalidNumber

/-- An exponent passed over, from its letter on. -/
def skipExponent : Scan Unit := do
  pass 1
  let sign ← peek?
  if sign == some '+' || sign == some '-' then pass 1
  match ← peek? with
  | some digit =>
      if isDigit digit then
        let _ ← passWhile isDigit
      else failAhead .invalidNumber
  | none => failHere .invalidNumber

/-- A number passed over, after its sign. -/
def skipNumber : Scan Unit := do
  match ← peek? with
  | some '0' =>
      pass 1
      if ((← peek?).map isDigit).getD false then failAhead .invalidNumber
  | some digit =>
      if isDigit digit then
        let _ ← passWhile isDigit
      else failAhead .invalidNumber
  | none => failHere .invalidNumber
  let following ← peek?
  if following == some '.' then
    pass 1
    let digits ← passWhile isDigit
    if digits.isEmpty then failAhead .invalidNumber
    let later ← peek?
    if later == some 'e' || later == some 'E' then skipExponent
  else if following == some 'e' || following == some 'E' then skipExponent

end ComponentGraph.Json
