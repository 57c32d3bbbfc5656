import ComponentGraph.Source.Token

/-!
Reading a text token by token. A `Reading` either fails, and then the text is not of the analysed
language, or gives a value and moves the cursor on; a fault that is put up with is only counted.
Failure takes the cursor back, so alternatives are tried in order. Loops are bounded by a limit that
exceeds the length of the text.
-/

set_option autoImplicit false
set_option relaxedAutoImplicit false

namespace ComponentGraph.Source

/-- What surrounds the construct that is being read. -/
structure Context where
  /-- Exceeds the number of tokens of the text; bounds every loop. -/
  limit : Nat
  /-- Elements may be written in expressions, and casts in angle brackets may not. -/
  markup : Bool
  inFunction : Bool := false
  /-- Inside the parameters of a function and not in its body. -/
  inParameters : Bool := false
  inAsync : Bool := false
  inGenerator : Bool := false
  /-- Inside a class or a function that is no arrow function, where `new.target` has a value. -/
  hasTarget : Bool := false
  /-- Inside an ambient declaration variables need no value. -/
  ambient : Bool := false
  /-- The operator `in` may stand here; it may not in the head of a loop. -/
  allowIn : Bool := true
  /-- A colon has to follow, as in the middle part of a conditional expression. -/
  awaitsColon : Bool := false
  /-- A question mark behind a bound does not belong to a conditional type that begins here. -/
  plainTypes : Bool := false
  breakable : Bool := false
  continuable : Bool := false
  labels : List String := []

/-- The place in the text: the current token, what lies before it, the text from its beginning and
from its end, and the faults so far. -/
structure Cursor where
  token : Token
  spaced : Bool
  afterBreak : Bool
  start : List Char
  rest : List Char
  faults : Nat

/-- The cursor on the first token of a text. -/
def Cursor.enter (text : List Char) (faults : Nat) : Cursor :=
  let lexeme := Lexeme.read text
  ⟨lexeme.token, lexeme.spaced, lexeme.afterBreak, lexeme.start, lexeme.rest,
    faults + lexeme.faults⟩

/-- The cursor on the next token. -/
def Cursor.next (cursor : Cursor) : Cursor :=
  Cursor.enter cursor.rest cursor.faults

/-- A step of reading. -/
abbrev Reading (α : Type) : Type := ReaderT Context (StateT Cursor Option) α

/-! ### The current token -/

/-- The current token. -/
def currentToken : Reading Token := do
  return (← get).token

/-- Whether a line ends before the current token. -/
def afterBreak : Reading Bool := do
  return (← get).afterBreak

/-- Goes to the next token. -/
def advance : Reading Unit :=
  modify Cursor.next

/-- Counts faults that are put up with. -/
def addFaults (count : Nat) : Reading Unit :=
  modify (fun cursor ↦ { cursor with faults := cursor.faults + count })

/-- Counts a fault that is put up with. -/
def fault : Reading Unit :=
  addFaults 1

/-- Counts a fault if the condition holds. -/
def faultIf (condition : Bool) : Reading Unit :=
  if condition then fault else pure ()

/-- Fails unless the condition holds. -/
def require (condition : Bool) : Reading Unit :=
  if condition then pure () else failure

/-- Whether a token is this mark. -/
def Token.isMark (token : Token) (symbol : String) : Bool :=
  match token with
  | .mark found => found == symbol
  | _ => false

/-- Whether a token is this word, written without escapes. -/
def Token.isWord (token : Token) (name : String) : Bool :=
  match token with
  | .word found false => found == name
  | _ => false

/-- Whether a token is one of these marks. -/
def Token.isOneOf (token : Token) (symbols : List String) : Bool :=
  match token with
  | .mark found => symbols.contains found
  | _ => false

/-- Whether a token is a name or a keyword. -/
def Token.isAnyWord : Token → Bool
  | .word _ _ => true
  | _ => false

/-- Whether a token is a name that is no keyword. -/
def Token.isName : Token → Bool
  | .word name escaped => escaped || !reservedWords.contains name
  | _ => false

/-- Whether a token is a name that may refer to something in a module. -/
def Token.isReference : Token → Bool
  | .word name _ => !reservedWords.contains name && !strictWords.contains name
  | _ => false

/-- Whether a token is a string literal. -/
def Token.isText : Token → Bool
  | .text _ => true
  | _ => false

/-- Whether what begins here can be described by a word before it: a name, a key or a pattern. -/
def Lexeme.isDescribable (next : Lexeme) : Bool :=
  match next.token with
  | .word _ _ => true
  | .privateName => true
  | .text _ => true
  | .number => true
  | .mark symbol => (symbol == "[" && !next.afterBreak) || [openBrace, "*", "..."].contains symbol
  | _ => false

/-- Whether the current token is this mark. -/
def sees (symbol : String) : Reading Bool := do
  return (← get).token.isMark symbol

/-- Whether the current token is this word. -/
def seesWord (name : String) : Reading Bool := do
  return (← get).token.isWord name

/-- Whether the current token is one of these marks. -/
def seesOneOf (symbols : List String) : Reading Bool := do
  return (← get).token.isOneOf symbols

/-- Passes this mark if it is the current token. -/
def take? (symbol : String) : Reading Bool := do
  if ← sees symbol then
    advance
    return true
  else
    return false

/-- Passes this word if it is the current token. -/
def takeWord? (name : String) : Reading Bool := do
  if ← seesWord name then
    advance
    return true
  else
    return false

/-- Passes the current token if it is one of these marks. -/
def takeOneOf? (symbols : List String) : Reading Bool := do
  if ← seesOneOf symbols then
    advance
    return true
  else
    return false

/-- Passes the current token if it is one of these words, and gives it. -/
def takeWordOf? (names : List String) : Reading (Option String) := do
  match ← currentToken with
  | .word name false =>
      if names.contains name then
        advance
        return some name
      else
        return none
  | _ => return none

/-- Passes this mark, which has to be the current token. -/
def expect (symbol : String) : Reading Unit := do
  require (← take? symbol)

/-- Passes this word, which has to be the current token. -/
def expectWord (name : String) : Reading Unit := do
  require (← takeWord? name)

/-! ### Looking ahead -/

/-- The token behind the current one, in its place. -/
def following : Reading Lexeme := do
  return Lexeme.read (← get).rest

/-- Whether the current token is this word and the token behind it passes the test. -/
def seesWordBefore (name : String) (test : Lexeme → Bool) : Reading Bool := do
  if ← seesWord name then
    return test (← following)
  else
    return false

/-- What a reading would find here; the cursor stays. -/
def foresee {α : Type} (step : Reading α) : Reading α :=
  fun context cursor ↦
    match step context cursor with
    | some (value, _) => some (value, cursor)
    | none => none

/-- The value of a reading, or nothing, and then the cursor stays. -/
def attempt {α : Type} (step : Reading α) : Reading (Option α) :=
  fun context cursor ↦
    match step context cursor with
    | some (value, later) => some (some value, later)
    | none => some (none, cursor)

/-- Reads in changed surroundings. -/
def inside {α : Type} (change : Context → Context) (step : Reading α) : Reading α :=
  fun context cursor ↦ step (change context) cursor

/-- Whether a reading would find here what it asks for; the cursor stays. -/
def foreseen (step : Reading Bool) : Reading Bool := do
  return (← attempt (foresee step)).getD false

/-- Passes one of these words if it describes what follows it. -/
def takeModifier? (names : List String) : Reading (Option String) := do
  match ← currentToken with
  | .word name false =>
      if !names.contains name then
        return none
      if (← following).isDescribable then
        advance
        return some name
      else
        return none
  | _ => return none

/-! ### Repetition -/

/-- Repeats a reading until it gives nothing, at most as often as `fuel` says. -/
def repeatFor {α : Type} (step : Reading (Option α)) : Nat → Array α → Reading (List α)
  | 0, _ => fun _ _ ↦ none
  | fuel + 1, found => fun context cursor ↦
      match step context cursor with
      | none => none
      | some (none, later) => some (found.toList, later)
      | some (some value, later) => repeatFor step fuel (found.push value) context later

/-- Repeats a reading until it gives nothing. -/
def many {α : Type} (step : Reading (Option α)) : Reading (List α) := do
  repeatFor step (← read).limit #[]

/-- Items separated by commas up to a closing mark, which is passed; a comma may stand before it. -/
def commaList {α : Type} (close : String) (item : Reading α) : Reading (List α) :=
  many do
    if ← take? close then
      return none
    let value ← item
    if !(← sees close) then
      expect ","
    return some value

/-- At least one item, with a mark between every two. -/
def separated {α : Type} (symbol : String) (item : Reading α) : Reading (List α) := do
  let first ← item
  let later ← many (do
    if ← take? symbol then
      return some (← item)
    else
      return none)
  return first :: later

/-! ### The end of a statement -/

/-- Whether a statement ends here: at a semicolon, which is passed, before a closing brace, at the
end of the text, or where a line ends. -/
def takeSemicolon? : Reading Bool := do
  if ← take? ";" then
    return true
  let cursor ← get
  return cursor.afterBreak || cursor.token.isMark closeBrace || cursor.token == .finish

/-- A statement has to end here. -/
def semicolon : Reading Unit := do
  require (← takeSemicolon?)

/-! ### Names -/

/-- Words that are kept for later use; as names they are faults. -/
def guardedWords : List String :=
  ["implements", "interface", "let", "package", "private", "protected", "public", "static",
    "yield"]

/-- Any word, also a keyword. -/
def anyWord : Reading String := do
  match ← currentToken with
  | .word name _ =>
      advance
      return name
  | _ => failure

/-- A name that is no keyword. A module awaits, so only in an ambient declaration may something be
called `await`. -/
def plainName : Reading String := do
  match ← currentToken with
  | .word name escaped =>
      require (escaped || !reservedWords.contains name)
      require (name != "await" || (← read).ambient)
      faultIf (guardedWords.contains name)
      advance
      return name
  | _ => failure

/-- A name that a declaration or a parameter binds, also `this`. -/
def boundName : Reading String := do
  if ← takeWord? "this" then
    return "this"
  let name ← plainName
  faultIf (name == "eval" || name == "arguments")
  return name

/-! ### Reading raw text -/

/-- The text behind the current token, before it is cut into tokens. -/
def rawText : Reading (List Char) := do
  return (← get).rest

/-- Leaves the text from here on uncut. -/
def setRawText (text : List Char) : Reading Unit :=
  modify (fun cursor ↦ { cursor with rest := text })

/-- Skips blanks and comments in uncut text. -/
def skipRawGap : Reading Unit :=
  modify (fun cursor ↦
    let gap := skipGap .between false cursor.rest
    { cursor with rest := gap.rest, faults := cursor.faults + gap.faults })

end ComponentGraph.Source
