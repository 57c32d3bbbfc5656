import ComponentGraph.Source.Escape
import ComponentGraph.Text.IdentifierChar

/-!
Tokens of the analysed language. `Lexeme.read` skips blanks and comments and reads one token. Some
mistakes are put up with and only counted as faults: a comment or a string that the text ends in,
an old octal number or escape. A `>` is always read alone, because it may close a list of types; a
`/` is read as an operator, and the grammar reads it again where a regular expression may stand.
-/

set_option autoImplicit false
set_option relaxedAutoImplicit false

namespace ComponentGraph.Source

open Text.IdentifierChar

/-- A token. -/
inductive Token where
  /-- A name or a keyword; the flag tells whether it was written with escapes. -/
  | word (name : String) (escaped : Bool)
  | privateName
  /-- A string literal with its value, which is absent if it is not well formed. -/
  | text (value : Option String)
  | number
  /-- A punctuation mark or an operator. -/
  | mark (symbol : String)
  | finish
  | unreadable
  deriving Repr, DecidableEq, Inhabited

/-- A token in its place: whether anything stands between it and the token before, whether a line
ends there, the text from its first character on, the text behind it, and the faults that were met
on the way. -/
structure Lexeme where
  token : Token
  spaced : Bool
  afterBreak : Bool
  start : List Char
  rest : List Char
  faults : Nat
  deriving Inhabited

/-! ### Blanks and comments -/

/-- A blank within a line. -/
def isBlank (character : Char) : Bool :=
  character == ' ' || character == '\t' ||
    let code := character.toNat
    code == 0x0B || code == 0x0C || code == 0x85 || code == 0xA0 || code == 0x1680 ||
      (0x2000 ≤ code && code ≤ 0x200B) || code == 0x202F || code == 0x205F || code == 0x3000 ||
      code == 0xFEFF

/-- Where the search for the next token stands. -/
inductive Gap where
  | between
  | lineComment
  | blockComment

/-- Text behind a gap, whether a line ends in the gap, and the faults in it. -/
structure AfterGap where
  rest : List Char
  broken : Bool
  faults : Nat

/-- Skips blanks and comments. -/
def skipGap : Gap → Bool → List Char → AfterGap
  | .between, broken, [] => ⟨[], broken, 0⟩
  | .between, broken, '/' :: '/' :: rest => skipGap .lineComment broken rest
  | .between, broken, '/' :: '*' :: rest => skipGap .blockComment broken rest
  | .between, broken, first :: rest =>
      if isLineBreak first then skipGap .between true rest
      else if isBlank first then skipGap .between broken rest
      else ⟨first :: rest, broken, 0⟩
  | .lineComment, broken, [] => ⟨[], broken, 0⟩
  | .lineComment, broken, first :: rest =>
      if isLineBreak first then skipGap .between true rest
      else skipGap .lineComment broken rest
  | .blockComment, broken, [] => ⟨[], broken, 1⟩
  | .blockComment, broken, '*' :: '/' :: rest => skipGap .between broken rest
  | .blockComment, broken, first :: rest =>
      skipGap .blockComment (broken || isLineBreak first) rest

/-- Whether a text begins with a blank or a comment. -/
def beginsGap : List Char → Bool
  | [] => false
  | '/' :: '/' :: _ => true
  | '/' :: '*' :: _ => true
  | first :: _ => isLineBreak first || isBlank first

/-! ### Words -/

/-- Reads the rest of a name; `found` holds its characters so far in reverse order. In the names of
elements hyphens may follow the first character. -/
def scanWord (hyphens : Bool) (text found : List Char) (escaped : Bool) :
    Option (List Char × Bool × List Char) :=
  match text with
  | [] => some (found, escaped, [])
  | '\\' :: 'u' :: after =>
      match h : readCodePoint after with
      | none => none
      | some (code, rest) =>
          have : rest.length < after.length := readCodePoint_rest_length h
          let character := Char.ofNat code
          if (if found.isEmpty then isStart character else isPart character) then
            scanWord hyphens rest (character :: found) true
          else none
  | '\\' :: _ => none
  | first :: after =>
      if isPart first || (hyphens && first == '-') then
        scanWord hyphens after (first :: found) escaped
      else some (found, escaped, first :: after)
termination_by text.length

/-- Words that are never names. -/
def reservedWords : List String :=
  ["break", "case", "catch", "class", "const", "continue", "debugger", "default", "delete", "do",
    "else", "enum", "export", "extends", "false", "finally", "for", "function", "if", "import",
    "in", "instanceof", "new", "null", "return", "super", "switch", "this", "throw", "true", "try",
    "typeof", "var", "void", "while", "with"]

/-- Words that a module keeps for itself, beyond the keywords. -/
def strictWords : List String :=
  ["await", "implements", "interface", "let", "package", "private", "protected", "public", "yield"]

/-- A keyword and a word that a module keeps for itself must not be written with escapes. -/
def wordToken (text : List Char) : Token × List Char :=
  match scanWord false text [] false with
  | none => (.unreadable, [])
  | some (found, escaped, rest) =>
      let name := String.ofList found.reverse
      if escaped && (reservedWords.contains name || strictWords.contains name) then
        (.unreadable, [])
      else (.word name escaped, rest)

/-! ### Numbers -/

/-- A digit of a binary number. -/
def isBinaryDigit (digit : Char) : Bool :=
  digit == '0' || digit == '1'

/-- Whether separators stand at the end or side by side. -/
def misplacedSeparator : List Char → Bool
  | [] => false
  | ['_'] => true
  | '_' :: '_' :: _ => true
  | _ :: rest => misplacedSeparator rest

/-- Reads digits with separators; the first result counts a fault for misplaced separators. -/
def scanDigits (isDigit : Char → Bool) (text : List Char) : Nat × List Char :=
  let digits := text.takeWhile (fun character ↦ isDigit character || character == '_')
  let rest := text.dropWhile (fun character ↦ isDigit character || character == '_')
  (if misplacedSeparator digits then 1 else 0, rest)

/-- Reads digits with separators, at least one of them a digit. -/
def scanSomeDigits (isDigit : Char → Bool) (text : List Char) : Option (Nat × List Char) :=
  if (text.dropWhile (· == '_')).head?.any isDigit then some (scanDigits isDigit text) else none

/-- Reads the exponent of a number if there is one. -/
def scanExponent (text : List Char) : Option (Nat × List Char) :=
  match text with
  | first :: after =>
      if first == 'e' || first == 'E' then
        let digits :=
          match after with
          | '+' :: later => later
          | '-' :: later => later
          | later => later
        scanSomeDigits isDecimalDigit digits
      else some (0, text)
  | [] => some (0, [])

/-- Reads what follows the whole part of a decimal number. -/
def scanFraction (text : List Char) : Option (Nat × List Char) :=
  match text with
  | '.' :: after =>
      let (faults, rest) := scanDigits isDecimalDigit after
      (scanExponent rest).map (fun found ↦ (faults + found.1, found.2))
  | _ => scanExponent text

/-- Skips the sign of a big integer. -/
def skipBigSign : List Char → List Char
  | 'n' :: rest => rest
  | text => text

/-- Reads a number with a base sign: at least one digit has to follow. -/
def scanBased (isDigit : Char → Bool) (text : List Char) : Option (Nat × List Char) :=
  (scanSomeDigits isDigit text).map (fun found ↦ (found.1, skipBigSign found.2))

/-- Reads a number: its faults and the text behind it. A number of the old kind begins with a
superfluous zero; it is octal, and then whole, unless it has a digit above seven. -/
def scanNumber (text : List Char) : Option (Nat × List Char) :=
  match text with
  | '.' :: _ => scanFraction text
  | '0' :: base :: after =>
      if base == 'x' || base == 'X' then scanBased isHexDigit after
      else if base == 'o' || base == 'O' then scanBased isOctalDigit after
      else if base == 'b' || base == 'B' then scanBased isBinaryDigit after
      else if isDecimalDigit base then
        let digits := (base :: after).takeWhile isDecimalDigit
        let rest := (base :: after).dropWhile isDecimalDigit
        if digits.all isOctalDigit then some (1, rest)
        else (scanFraction rest).map (fun found ↦ (found.1 + 1, found.2))
      else if base == 'n' then some (0, after)
      else scanFraction (base :: after)
  | _ =>
      let (faults, rest) := scanDigits isDecimalDigit text
      match rest with
      | 'n' :: later => some (faults, later)
      | _ => (scanFraction rest).map (fun found ↦ (faults + found.1, found.2))

/-- A number must not run into a name or another number. -/
def numberToken (text : List Char) : Token × List Char × Nat :=
  match scanNumber text with
  | none => (.unreadable, [], 0)
  | some (faults, rest) =>
      if rest.head?.any (fun next ↦ isStart next || isDecimalDigit next || next == '\\') then
        (.unreadable, [], 0)
      else (.number, rest, faults)

/-! ### String literals -/

/-- Reads a string literal up to its closing quote. The end of the line or of the text closes it
too, as a fault. `codes` holds the code points so far in reverse order. -/
def scanText (quote : Char) (text : List Char) (codes : List Nat) (faults : Nat) :
    Option (List Nat × Nat × List Char) :=
  match text with
  | [] => some (codes, faults + 1, [])
  | '\\' :: after =>
      match h : readEscape after with
      | none => none
      | some escape =>
          have : escape.rest.length < after.length := readEscape_rest_length h
          scanText quote escape.rest (escape.codes ++ codes)
            (if escape.legacy then faults + 1 else faults)
  | first :: after =>
      if first == quote then some (codes, faults, after)
      else if first == '\n' || first == '\r' then some (codes, faults + 1, first :: after)
      else scanText quote after (first.toNat :: codes) faults
termination_by text.length

/-- The token of a string literal whose opening quote was read. -/
def textToken (quote : Char) (text : List Char) : Token × List Char × Nat :=
  match scanText quote text [] 0 with
  | none => (.unreadable, [], 0)
  | some (codes, faults, rest) => (.text (textOf? codes.reverse), rest, faults)

/-! ### Marks -/

/-- Marks of more than one character, the longer ones first. -/
def longMarks : List String :=
  ["...", "===", "!==", "**=", "<<=", "&&=", "||=", "??=", "=>", "==", "!=", "<=", "<<", "++",
    "--", "&&", "||", "??", "+=", "-=", "*=", "/=", "%=", "&=", "|=", "^=", "**"]

/-- The mark that opens a block or an object. -/
def openBrace : String := "\x7b"

/-- The mark that closes a block or an object. -/
def closeBrace : String := "\x7d"

/-- Marks of one character. -/
def shortMarks : List Char :=
  ['{', '}', '(', ')', '[', ']', ';', ',', '<', '>', '=', '!', '+', '-', '*', '/', '%', '&', '|',
    '^', '~', '?', ':', '.', '@', '`']

/-- Reads the longest mark. An optional access `?.` is not followed by a digit. -/
def markToken (text : List Char) : Token × List Char :=
  match text with
  | '?' :: '.' :: rest =>
      if rest.head?.any isDecimalDigit then (.mark "?", '.' :: rest) else (.mark "?.", rest)
  | _ =>
      match longMarks.find? (fun symbol ↦ symbol.toList.isPrefixOf text) with
      | some symbol => (.mark symbol, text.drop symbol.length)
      | none =>
          match text with
          | first :: rest =>
              if shortMarks.contains first then (.mark (String.singleton first), rest)
              else (.unreadable, [])
          | [] => (.unreadable, [])

/-! ### Tokens -/

/-- Reads the token at the beginning of a text that begins with no blank. -/
def tokenAt (text : List Char) : Token × List Char × Nat :=
  match text with
  | [] => (.finish, [], 0)
  | '#' :: after =>
      match wordToken after with
      | (.word _ _, rest) =>
          if after.head?.any (fun first ↦ isStart first || first == '\\') then
            (.privateName, rest, 0)
          else (.unreadable, [], 0)
      | _ => (.unreadable, [], 0)
  | first :: after =>
      if isStart first || first == '\\' then
        let (token, rest) := wordToken text
        (token, rest, 0)
      else if isDecimalDigit first || (first == '.' && after.head?.any isDecimalDigit) then
        numberToken text
      else if first == '"' || first == '\'' then textToken first after
      else
        let (token, rest) := markToken text
        (token, rest, 0)

/-- Reads the next token of a text. -/
def Lexeme.read (text : List Char) : Lexeme :=
  let gap := skipGap .between false text
  let (token, rest, faults) := tokenAt gap.rest
  ⟨token, beginsGap text, gap.broken, gap.rest, rest, gap.faults + faults⟩

/-! ### Regular expressions and templates -/

/-- Whether a regular expression cannot go on behind this character: the two usual line ends. -/
def endsRegex (character : Char) : Bool :=
  character == '\n' || character == '\r'

/-- The text behind the closing slash of a regular expression; within brackets a slash is plain. -/
def skipRegex : Bool → List Char → Option (List Char)
  | _, [] => none
  | inClass, '\\' :: escaped :: rest =>
      if endsRegex escaped then none else skipRegex inClass rest
  | inClass, first :: rest =>
      if endsRegex first then none
      else if first == '[' then skipRegex true rest
      else if first == ']' then skipRegex false rest
      else if first == '/' && !inClass then some rest
      else skipRegex inClass rest

/-- Flags that a regular expression may have, each once. -/
def regexFlags : List Char := ['d', 'g', 'i', 'm', 's', 'u', 'v', 'y']

/-- Unknown and repeated flags of a regular expression. -/
def flagFaults : List Char → Nat
  | [] => 0
  | first :: later =>
      (if regexFlags.contains first && !later.contains first then 0 else 1) + flagFaults later

/-- How a piece of a template ends: with the template, or with a hole for an expression. -/
structure TemplatePiece where
  hole : Bool
  wellFormed : Bool
  rest : List Char

/-- Reads a template up to its end or its next hole, and judges its escapes on the way. -/
def scanTemplate : Bool → List Char → Option TemplatePiece
  | _, [] => none
  | wellFormed, '`' :: rest => some ⟨false, wellFormed, rest⟩
  | wellFormed, '$' :: '{' :: rest => some ⟨true, wellFormed, rest⟩
  | wellFormed, '\\' :: escaped :: rest =>
      let sound :=
        match readEscape (escaped :: rest) with
        | none => false
        | some escape => !escape.legacy
      scanTemplate (wellFormed && sound) rest
  | wellFormed, _ :: rest => scanTemplate wellFormed rest

end ComponentGraph.Source
