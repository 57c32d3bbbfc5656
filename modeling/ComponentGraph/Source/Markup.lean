import ComponentGraph.Source.Typing

/-!
Elements written in angle brackets. Between tags stands text that is not cut into tokens, so an
element is read from the uncut text behind the current token; only what stands in braces is read as
an expression. A closing tag has to repeat the name of its opening tag. A lone `>` or `}` in the
text between tags is a fault.
-/

set_option autoImplicit false
set_option relaxedAutoImplicit false

namespace ComponentGraph.Source.Markup

open Text.IdentifierChar

/-- Passes this character of the uncut text, blanks before it included, if it comes next. -/
def takeChar? (character : Char) : Reading Bool := do
  skipRawGap
  match ← rawText with
  | first :: rest =>
      if first == character then
        setRawText rest
        return true
      else
        return false
  | [] => return false

/-- The next character of the uncut text behind blanks has to be this one. -/
def expectChar (character : Char) : Reading Unit := do
  require (← takeChar? character)

/-- A name in a tag; hyphens are part of such names. -/
def name : Reading String := do
  skipRawGap
  let text ← rawText
  require (text.head?.any (fun first ↦ isStart first || first == '\\'))
  match scanWord true text [] false with
  | none => failure
  | some (found, _, rest) =>
      setRawText rest
      return String.ofList found.reverse

/-- The name of an element. -/
def tag : Reading Tag := do
  let first ← name
  if ← takeChar? ':' then
    return .qualified first (← name)
  let names ← many (do
    if ← takeChar? '.' then
      return some (← name)
    else
      return none)
  return if names.isEmpty then .plain first else .path first names

/-! ### Braces -/

/-- Cuts the uncut text into tokens again. -/
def resume : Reading Unit :=
  modify Cursor.next

/-- The expression in braces whose opening brace was passed; the text behind the closing brace is
left uncut. Between tags there may be none, and it may be spread. -/
def braces (grammar : Grammar) (betweenTags : Bool) : Reading (List Expression) := do
  resume
  if betweenTags then
    if ← sees closeBrace then
      return []
    let _ ← take? "..."
  let value ← inside
    (fun context ↦ { context with allowIn := true, awaitsColon := false }) grammar.expression
  require (← sees closeBrace)
  return [value]

/-! ### Attributes -/

/-- A quoted attribute value has no escapes and may run over several lines. -/
def quotedValue (quote : Char) : Reading Unit := do
  let text ← rawText
  match text.dropWhile (· != quote) with
  | _ :: rest => setRawText rest
  | [] => failure

/-- The value of an attribute: a quoted text, an expression in braces, or an element. -/
def attributeValue (grammar : Grammar) : Reading (List Expression) := do
  if ← takeChar? '"' then
    quotedValue '"'
    return []
  else if ← takeChar? '\'' then
    quotedValue '\''
    return []
  else if ← takeChar? '{' then
    braces grammar false
  else
    expectChar '<'
    return [← grammar.element]

/-- An attribute of an opening tag: a name with or without a value, or a spread object. -/
def oneAttribute (grammar : Grammar) : Reading (List Expression) := do
  if ← takeChar? '{' then
    resume
    expect "..."
    let value ← inside
      (fun context ↦ { context with allowIn := true, awaitsColon := false }) grammar.assignment
    require (← sees closeBrace)
    return [value]
  let _ ← name
  if ← takeChar? ':' then
    let _ ← name
  if ← takeChar? '=' then attributeValue grammar else return []

/-- Attributes up to the end of the opening tag. -/
def attributes (grammar : Grammar) : Reading (List Expression) := do
  let values ← many (do
    skipRawGap
    match ← rawText with
    | '/' :: _ => return none
    | '>' :: _ => return none
    | _ => return some (← oneAttribute grammar))
  return values.flatten

/-- Passes the end of an opening tag and tells whether children follow; a slash shows that there
are none. -/
def opensChildren : Reading Bool := do
  let closed ← takeChar? '/'
  expectChar '>'
  return !closed

/-! ### Children -/

/-- Skips text between tags up to the next tag, expression or end, and counts its faults. -/
def skipText : Nat → List Char → Nat × List Char
  | faults, [] => (faults, [])
  | faults, '<' :: rest => (faults, '<' :: rest)
  | faults, '{' :: rest => (faults, '{' :: rest)
  | faults, '>' :: rest => skipText (faults + 1) rest
  | faults, '}' :: rest => skipText (faults + 1) rest
  | faults, _ :: rest => skipText faults rest

/-- Children up to the slash of the closing tag, which is passed. -/
def children (grammar : Grammar) : Reading (List Expression) := do
  let values ← many (do
    let (faults, text) := skipText 0 (← rawText)
    addFaults faults
    match text with
    | '{' :: rest =>
        setRawText rest
        return some (← braces grammar true)
    | '<' :: '/' :: rest =>
        setRawText rest
        return none
    | '<' :: rest =>
        setRawText rest
        return some [← grammar.element]
    | _ => failure)
  return values.flatten

/-! ### Elements -/

/-- Types given to an element behind its name. -/
def typeArguments? (grammar : Grammar) : Reading (List Expression) := do
  skipRawGap
  match ← rawText with
  | '<' :: _ =>
      resume
      let types ← Typing.typeArguments grammar
      modify (fun cursor ↦ { cursor with rest := cursor.start })
      return types
  | _ => return []

/-- An element whose opening bracket was passed. The text behind its last tag is left uncut. -/
def element (grammar : Grammar) : Reading Expression := do
  if ← takeChar? '>' then
    let inner ← children grammar
    expectChar '>'
    return .fragment inner
  let opening ← tag
  let types ← typeArguments? grammar
  let values ← attributes grammar
  if ← opensChildren then
    let inner ← children grammar
    let closing ← tag
    require (closing == opening)
    expectChar '>'
    return .element opening (values ++ types) inner
  else
    return .element opening (values ++ types) []

/-- An element in an expression, whose opening bracket is the current token. -/
def rooted (grammar : Grammar) : Reading Expression := do
  let root ← grammar.element
  resume
  return root

end ComponentGraph.Source.Markup
