import ComponentGraph.Source.Grammar

/-!
Types. A type is read for its extent; what is kept of it are the expressions in it: the computed
keys of members of object types, and what stands in the parameters of signatures. A signature keeps
its parameters before its bounds, and as a member of an object type also its result before them.
-/

set_option autoImplicit false
set_option relaxedAutoImplicit false

namespace ComponentGraph.Source.Typing

/-! ### Lists of types -/

/-- Passes an opening angle bracket; of a doubled one, only the first half. -/
def openAngle : Reading Unit := do
  if ← sees "<<" then
    modify (fun cursor ↦ Cursor.enter (cursor.start.drop 1) cursor.faults)
  else
    expect "<"

/-- Types in angle brackets, such as the arguments of a generic type. -/
def typeArguments (grammar : Grammar) : Reading (List Expression) := do
  openAngle
  let types ← commaList ">" grammar.type
  return types.flatten

/-- Types in angle brackets, if they stand on the same line. -/
def typeArguments? (grammar : Grammar) : Reading (List Expression) := do
  if !(← afterBreak) && (← seesOneOf ["<", "<<"]) then typeArguments grammar else return []

/-- Words that may describe a type parameter. -/
def parameterWords : List String :=
  ["public", "private", "protected", "readonly", "abstract", "const", "override", "in", "out"]

/-- A type parameter: the expressions in its bound and its default, and whether it is bare, that is,
without a bound and right before the closing bracket. -/
structure TypeParameter where
  typing : List Expression
  bare : Bool

/-- One type parameter with its bound and its default. -/
def typeParameter (grammar : Grammar) : Reading TypeParameter := do
  let _ ← many (takeModifier? parameterWords)
  let _ ← anyWord
  let bounded ← takeWord? "extends"
  let bound ← if bounded then grammar.type else pure []
  let preset ← if ← take? "=" then grammar.type else pure []
  let cursor ← get
  return ⟨bound ++ preset, !bounded && cursor.token.isMark ">" && !cursor.spaced⟩

/-- Type parameters in angle brackets, one by one. -/
def parameterList (grammar : Grammar) : Reading (List TypeParameter) := do
  expect "<"
  commaList ">" (typeParameter grammar)

/-- Whether type parameters look like the opening tag of an element: a single bare one. -/
def resembleTag : List TypeParameter → Bool
  | [single] => single.bare
  | _ => false

/-- Type parameters, if there are any. -/
def typeParameters? (grammar : Grammar) : Reading (List Expression) := do
  if ← sees "<" then
    return (← parameterList grammar).flatMap TypeParameter.typing
  else
    return []

/-! ### Signatures -/

/-- The type behind a colon, if there is one. -/
def colonType? (grammar : Grammar) : Reading (List Expression) := do
  if ← take? ":" then grammar.type else return []

/-- A statement about the parameter or variable at the cursor, or only that it holds. -/
def predicate (grammar : Grammar) : Reading (List Expression) := do
  let next ← following
  let stated := next.token.isWord "is" && !next.afterBreak
  let _ ← anyWord
  if stated then
    advance
    grammar.type
  else
    return []

/-- What a function returns: a type, or a statement about one of its parameters. -/
def returned (grammar : Grammar) : Reading (List Expression) := do
  let next ← following
  if (← seesWord "asserts") && next.token.isReference then
    advance
    predicate grammar
  else if (← currentToken).isReference && next.token.isWord "is" && !next.afterBreak then
    predicate grammar
  else
    grammar.type

/-- The type of the result behind a colon, if there is one. -/
def returnType? (grammar : Grammar) : Reading (List Expression) := do
  if ← take? ":" then returned grammar else return []

/-- A parameter as it counts in a signature, without its decorators. -/
def undecorated : Pattern → Pattern
  | .decorated _ target => target
  | plain => plain

/-- Whether a parameter has a value to fall back to. -/
def hasFallback : Pattern → Bool
  | .fallback _ _ => true
  | _ => false

/-- Parameters of a signature, which fall back to nothing. -/
def signatureParameters (grammar : Grammar) : Reading (List Pattern) := do
  let parameters := (← grammar.parameters).map undecorated
  require !(parameters.any hasFallback)
  return parameters

/-- Type parameters, parameters and result of a member of an object type. -/
def memberSignature (grammar : Grammar) : Reading (List Expression) := do
  let bounds ← typeParameters? grammar
  let parameters ← signatureParameters grammar
  let result ← returnType? grammar
  return [.signature parameters (result ++ bounds)]

/-- A function type: parameters, an arrow and the result. -/
def functionType (grammar : Grammar) : Reading (List Expression) := do
  let bounds ← typeParameters? grammar
  let parameters ← signatureParameters grammar
  expect "=>"
  let result ← returned grammar
  return [.signature parameters (bounds ++ result)]

/-! ### Object types -/

/-- The key of a member; a computed key is an expression. -/
def key (grammar : Grammar) : Reading (Option Expression) := do
  match ← currentToken with
  | .word _ _ => advance; return none
  | .text _ => advance; return none
  | .number => advance; return none
  | .mark _ =>
      expect "["
      let value ← inside (fun context ↦ { context with allowIn := true }) grammar.assignment
      expect "]"
      return some value
  | _ => failure

/-- The end of a member: a comma, a semicolon or the end of the line or of the members. -/
def memberEnd : Reading Unit := do
  if !(← take? ",") then
    semicolon

/-- Whether an index signature begins here: a bracket, a name and a colon. -/
def seesIndexSignature : Reading Bool := do
  if ← sees "[" then
    foreseen do
      advance
      require (← currentToken).isReference
      advance
      seesOneOf [":", ","]
  else
    return false

/-- An index signature in brackets and the type behind it. -/
def indexSignature (grammar : Grammar) : Reading (List Expression) := do
  expect "["
  let _ ← anyWord
  expect ":"
  let index ← grammar.type
  expect "]"
  let value ← colonType? grammar
  memberEnd
  return index ++ value

/-- A member that is read or written as if it were a function. A reader has no parameters; of the
parameters of a writer the first one counts. -/
def accessor (grammar : Grammar) : Reading (List Expression) := do
  if ← takeWord? "get" then
    let computed ← key grammar
    expect "("
    expect ")"
    let result ← colonType? grammar
    memberEnd
    return computed.toList ++ result
  else
    expectWord "set"
    let computed ← key grammar
    match ← signatureParameters grammar with
    | [] => failure
    | first :: _ =>
        memberEnd
        return computed.toList ++ [.signature [first] []]

/-- A property or a method of an object type; a method cannot be `readonly`. -/
def property (grammar : Grammar) (fixed : Bool) : Reading (List Expression) := do
  let computed ← key grammar
  let _ ← take? "?"
  let typing ←
    if ← seesOneOf ["(", "<"] then
      require !fixed
      memberSignature grammar
    else
      colonType? grammar
  memberEnd
  return computed.toList ++ typing

/-- A member of an object type. -/
def objectMember (grammar : Grammar) : Reading (List Expression) := do
  let constructs ← seesWordBefore "new" (·.token.isOneOf ["(", "<"])
  if constructs || (← seesOneOf ["(", "<"]) then
    if constructs then
      advance
    let signature ← memberSignature grammar
    memberEnd
    return signature
  let fixed := (← takeModifier? ["readonly"]).isSome
  if ← seesIndexSignature then
    indexSignature grammar
  else if fixed then
    property grammar true
  else
    match ← attempt (accessor grammar) with
    | some found => return found
    | none => property grammar false

/-- An object type, which lists its members in braces. -/
def objectType (grammar : Grammar) : Reading (List Expression) := do
  expect openBrace
  let members ← many (do
    if ← take? closeBrace then
      return none
    return some (← objectMember grammar))
  return members.flatten

/-- Passes a sign and a word, such as `-readonly`. -/
def signed (step : Reading Bool) : Reading Unit := do
  if ← takeOneOf? ["+", "-"] then
    require (← step)
  else
    let _ ← step

/-- Whether a mapped type begins here: a name that runs through the keys stands in brackets. -/
def seesMappedType : Reading Bool :=
  foreseen do
    expect openBrace
    if ← takeOneOf? ["+", "-"] then
      seesWord "readonly"
    else
      let _ ← takeWord? "readonly"
      expect "["
      require (← currentToken).isReference
      advance
      seesWord "in"

/-- A mapped type, whose keys run through another type. -/
def mappedType (grammar : Grammar) : Reading (List Expression) := do
  expect openBrace
  signed (takeWord? "readonly")
  expect "["
  let _ ← anyWord
  expectWord "in"
  let keys ← grammar.type
  let renamed ← if ← takeWord? "as" then grammar.type else pure []
  expect "]"
  signed (take? "?")
  let value ← colonType? grammar
  semicolon
  expect closeBrace
  return keys ++ renamed ++ value

/-! ### Names of types -/

/-- Words joined by dots. -/
def dottedWords : Reading Unit := do
  let _ ← separated "." anyWord

/-- A word and, joined to it by dots, names that are no keywords. -/
def dottedName : Reading Unit := do
  let _ ← anyWord
  let _ ← many (do
    if ← take? "." then
      return some (← boundName)
    else
      return none)

/-- The type of an imported module, or a type in it. The types given to it count before the
attributes of the import. -/
def importType (grammar : Grammar) : Reading (List Expression) := do
  expectWord "import"
  expect "("
  require (← currentToken).isText
  advance
  let attributes ←
    if (← take? ",") && (← sees openBrace) then
      advance
      expectWord "with"
      expect ":"
      let object ← grammar.object
      let _ ← take? ","
      expect closeBrace
      let _ ← take? ","
      pure [object]
    else
      pure []
  expect ")"
  if ← take? "." then
    dottedName
  let types ← typeArguments? grammar
  return types ++ attributes

/-- The type of a variable or of an imported module, whose keyword was passed. -/
def queriedType (grammar : Grammar) : Reading (List Expression) := do
  if ← seesWord "import" then
    importType grammar
  else
    dottedWords
    typeArguments? grammar

/-- Names of types that take no further types. -/
def basicTypes : List String :=
  ["any", "bigint", "boolean", "never", "null", "number", "object", "string", "symbol",
    "undefined", "unknown", "void"]

/-- Keywords that are read as names of types. -/
def typeKeywords : List String := ["break", "enum", "null", "void"]

/-- A type that begins with this word. -/
def wordType (grammar : Grammar) (name : String) : Reading (List Expression) := do
  if name == "typeof" then
    advance
    queriedType grammar
  else if name == "import" then
    importType grammar
  else if name == "this" then
    predicate grammar
  else if ← seesWordBefore "asserts" (·.token.isWord "this") then
    advance
    predicate grammar
  else if name == "true" || name == "false" then
    advance
    return []
  else
    require (name != "let" && (!reservedWords.contains name || typeKeywords.contains name))
    advance
    let isLonger ← sees "."
    if isLonger then
      advance
      dottedWords
    if basicTypes.contains name && !isLonger then return [] else typeArguments? grammar

/-! ### Other types -/

/-- Whether a place of a tuple has to be filled. A place with a label counts as one that has, even
if its label is marked as optional. -/
inductive Place where
  | required
  | optional
  | rest
  deriving DecidableEq

/-- One place of a tuple type, with its label and its marks. -/
def tupleItem (grammar : Grammar) : Reading (Place × List Expression) := do
  let _ ← attempt (do
    let _ ← take? "..."
    let _ ← anyWord
    let _ ← take? "?"
    expect ":")
  if ← take? "..." then
    return (.rest, ← grammar.type)
  let item ← grammar.type
  return (if ← take? "?" then .optional else .required, item)

/-- Whether a required place comes behind an optional one. -/
def isOutOfOrder : List Place → Bool
  | [] => false
  | .optional :: later => later.contains .required
  | _ :: later => isOutOfOrder later

/-- The places of a tuple type up to the closing bracket. -/
def tupleItems (grammar : Grammar) : Reading (List Expression) := do
  let items ← commaList "]" (tupleItem grammar)
  require !(isOutOfOrder (items.map Prod.fst))
  return items.flatMap Prod.snd

/-- Reads the types in the holes of a template type whose opening mark is the current token. -/
def templateType (grammar : Grammar) : Reading (List Expression) := do
  let holes ← many (do
    match scanTemplate true (← rawText) with
    | none => failure
    | some piece =>
        require piece.wellFormed
        if piece.hole then
          modify (fun cursor ↦ Cursor.enter piece.rest cursor.faults)
          let hole ← grammar.type
          require (← sees closeBrace)
          return some hole
        else
          setRawText piece.rest
          return none)
  advance
  return holes.flatten

/-- A type that begins with this mark. -/
def markType (grammar : Grammar) (symbol : String) : Reading (List Expression) := do
  if symbol == "(" then
    advance
    let inner ← grammar.type
    expect ")"
    return inner
  else if symbol == "[" then
    advance
    tupleItems grammar
  else if symbol == openBrace then
    if ← seesMappedType then mappedType grammar else objectType grammar
  else if symbol == "`" then
    templateType grammar
  else
    expect "-"
    require ((← currentToken) == .number)
    advance
    return []

/-- A type without operators. -/
def primaryType (grammar : Grammar) : Reading (List Expression) := do
  match ← currentToken with
  | .text _ => advance; return []
  | .number => advance; return []
  | .mark symbol => markType grammar symbol
  | .word name _ => wordType grammar name
  | _ => failure

/-- A type followed by brackets: arrays of it and members of it. -/
def indexedType (grammar : Grammar) : Reading (List Expression) := do
  let subject ← primaryType grammar
  let indices ← many (do
    if (← sees "[") && !(← afterBreak) then
      advance
      if ← take? "]" then
        return some []
      let index ← grammar.type
      expect "]"
      return some index
    else
      return none)
  return subject ++ indices.flatten

/-- Words that operate on the type behind them. -/
def typeOperators : List String := ["keyof", "unique", "readonly"]

/-- Surroundings in which a question mark does not begin the branches of a conditional type. -/
def withoutBranches (context : Context) : Context :=
  { context with plainTypes := true }

/-- The bound of an inferred type. Where a conditional type may stand, a question mark behind it
shows that the bound was the test of a conditional type. -/
def inferredBound (grammar : Grammar) : Reading (List Expression) := do
  expectWord "extends"
  let plainTypes := (← read).plainTypes
  let bound ← inside withoutBranches grammar.plainType
  require (plainTypes || !(← sees "?"))
  return bound

/-- A type with the operators before it. -/
def operatorType (grammar : Grammar) : Reading (List Expression) := do
  let _ ← many (takeWordOf? typeOperators)
  if ← takeWord? "infer" then
    let _ ← anyWord
    return (← attempt (inferredBound grammar)).getD []
  else
    indexedType grammar

/-- Types joined by a mark, which may also stand before the first. -/
def joined (symbol : String) (step : Reading (List Expression)) : Reading (List Expression) := do
  let _ ← take? symbol
  let types ← separated symbol step
  return types.flatten

/-! ### Function types -/

/-- Words that describe a parameter or a member. -/
def describing : List String := ["public", "protected", "private", "readonly"]

/-- Passes a word that describes the parameter behind it. -/
def takeDescription? : Reading Bool := do
  let describes ← describing.anyM fun name ↦
    seesWordBefore name (fun next ↦ next.token.isAnyWord || next.token.isOneOf [openBrace, "["])
  if describes then
    advance
  return describes

/-- Passes the beginning of a parameter: a name or a pattern. -/
def parameterStart (grammar : Grammar) : Reading Unit := do
  let _ ← takeDescription?
  if (← currentToken).isReference || (← seesWord "this") then
    advance
  else
    require (← seesOneOf [openBrace, "["])
    let _ ← grammar.target

/-- Whether a function type begins here, and not a type in parentheses. -/
def seesFunctionType (grammar : Grammar) : Reading Bool := do
  if ← sees "<" then
    return true
  else if ← sees "(" then
    foreseen do
      advance
      if ← seesOneOf [")", "..."] then
        return true
      parameterStart grammar
      if ← seesOneOf [":", ",", "?", "="] then
        return true
      expect ")"
      sees "=>"
  else
    return false

/-- A type that is no conditional type. -/
def plainType (grammar : Grammar) : Reading (List Expression) := do
  if ← seesFunctionType grammar then
    functionType grammar
  else if ← seesWordBefore "abstract" (·.token.isWord "new") then
    advance
    advance
    functionType grammar
  else if ← takeWord? "new" then
    functionType grammar
  else
    joined "|" (joined "&" (operatorType grammar))

/-- A type. What it is tested against, if it is a conditional type, is itself none. -/
def type (grammar : Grammar) : Reading (List Expression) :=
  inside (fun context ↦ { context with plainTypes := false }) do
    let subject ← plainType grammar
    if !(← afterBreak) && (← seesWord "extends") then
      advance
      let test ← inside withoutBranches grammar.plainType
      expect "?"
      let consequent ← grammar.type
      expect ":"
      let alternate ← grammar.type
      return subject ++ test ++ consequent ++ alternate
    else
      return subject

end ComponentGraph.Source.Typing
