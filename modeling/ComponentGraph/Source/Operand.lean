import ComponentGraph.Source.Definition
import ComponentGraph.Source.Markup

/-!
Operands of expressions: literals, names, functions and classes, with the calls and accesses behind
them. What stands in parentheses is read once, as expressions and parameters together; whether it
was the head of an arrow function shows behind the closing parenthesis. Types in angle brackets
behind an operand are told from comparisons by what follows the closing bracket.
-/

set_option autoImplicit false
set_option relaxedAutoImplicit false

namespace ComponentGraph.Source.Operand

/-- Surroundings within brackets of any kind. -/
def bracketed (context : Context) : Context :=
  { context with allowIn := true, awaitsColon := false }

/-! ### Literals -/

/-- A template whose opening mark is the current token. Without a tag its escapes must be well
formed. -/
def template (grammar : Grammar) (tagged : Bool) : Reading (List Expression) := do
  let holes ← many (do
    match scanTemplate true (← rawText) with
    | none => failure
    | some piece =>
        require (tagged || piece.wellFormed)
        if piece.hole then
          modify (fun cursor ↦ Cursor.enter piece.rest cursor.faults)
          let hole ← inside bracketed grammar.expression
          require (← sees closeBrace)
          return some hole
        else
          setRawText piece.rest
          return none)
  advance
  return holes

/-- A regular expression, whose slash was read as an operator. -/
def regex : Reading Expression := do
  match skipRegex false ((← get).start.drop 1) with
  | none => failure
  | some rest =>
      let flags := rest.takeWhile Text.IdentifierChar.isPart
      setRawText (rest.dropWhile Text.IdentifierChar.isPart)
      addFaults (flagFaults flags)
      advance
      return .literal

/-- Items of an array up to the closing bracket; places may be left out. -/
def arrayItems (grammar : Grammar) : Reading (List Expression) := do
  let items ← commaList "]" (do
    if ← sees "," then
      return []
    let _ ← take? "..."
    return [← Binding.value grammar])
  return items.flatten

/-! ### Objects -/

/-- A member behind the word that describes it: a method, or a value that is read or written as if
it were a function. Of such a function only some parts count. -/
def describedMember (grammar : Grammar) (name : String) : Reading ObjectMember := do
  if name == "async" then
    let isGenerator ← take? "*"
    let key ← Typing.key grammar
    return .method key (← Definition.function grammar true isGenerator [])
  else if name == "get" then
    let key ← Typing.key grammar
    let rest ← Definition.functionRest grammar false false
    return .getter key rest.result (rest.body.getD [])
  else
    require (name == "set")
    let key ← Typing.key grammar
    let rest ← Definition.functionRest grammar false false
    return .setter key ((rest.parameters.take 2).map Typing.undecorated) (rest.body.getD [])

/-- A member that begins with this word and is neither a keyed value nor a method: the word alone,
or what the word describes. -/
def wordMember (grammar : Grammar) (name : String) : Reading ObjectMember := do
  if ← take? "=" then
    return .shorthand name (some (← Binding.value grammar))
  else if ← seesOneOf [",", closeBrace] then
    return .shorthand name none
  else
    describedMember grammar name

/-- A member of an object: a spread value, a method, a keyed value, or a word alone. -/
def objectMember (grammar : Grammar) : Reading ObjectMember := do
  if ← take? "..." then
    return .spread (← Binding.value grammar)
  if ← take? "*" then
    let key ← Typing.key grammar
    return .method key (← Definition.function grammar false true [])
  let _ ← Typing.takeDescription?
  let token ← currentToken
  let key ← Typing.key grammar
  if ← take? ":" then
    return .property key (← Binding.value grammar)
  else if ← seesOneOf ["(", "<"] then
    return .method key (← Definition.function grammar false false [])
  else
    match token with
    | .word name _ => wordMember grammar name
    | _ => failure

/-- An object literal whose opening brace is the current token. -/
def object (grammar : Grammar) : Reading Expression := do
  expect openBrace
  return .object (← commaList closeBrace (objectMember grammar))

/-! ### Arrow functions -/

mutual

/-- The pattern that an expression can be read as. -/
def pattern? : Expression → Option Pattern
  | .identifier name => some (.name name [])
  | .array items => (patterns? items).map (fun found ↦ .array found [])
  | .object members => (patternFields? members).map (fun found ↦ .object found [])
  | .assignment target value => (pattern? target).map (fun found ↦ .fallback found value)
  | _ => none

/-- The patterns that expressions can be read as. -/
def patterns? : List Expression → Option (List Pattern)
  | [] => some []
  | first :: later => do
      let pattern ← pattern? first
      let patterns ← patterns? later
      return pattern :: patterns

/-- The field of a pattern that a member of an object can be read as. -/
def patternField? : ObjectMember → Option PatternField
  | .property key value => (pattern? value).map (.keyed key)
  | .shorthand _ fallback => some (.short fallback)
  | .spread value => (pattern? value).map .rest
  | _ => none

/-- The fields of a pattern that the members of an object can be read as. -/
def patternFields? : List ObjectMember → Option (List PatternField)
  | [] => some []
  | first :: later => do
      let field ← patternField? first
      let fields ← patternFields? later
      return field :: fields

end

/-- What stands between two commas in parentheses: an expression, which may be spread, or something
that can only be a parameter, because a type is stated for it or it is optional. -/
inductive Item where
  | value (isSpread : Bool) (expression : Expression)
  | parameter (target : Pattern)

/-- The parameter that an item stands for. -/
def Item.pattern? : Item → Option Pattern
  | .value false expression => Operand.pattern? expression
  | .value true expression => (Operand.pattern? expression).map (fun found ↦ .rest found [])
  | .parameter target => some target

/-- The expression that an item stands for, unless it is spread. -/
def Item.single? : Item → Option Expression
  | .value false expression => some expression
  | _ => none

/-- The argument of a call that an item stands for. -/
def Item.argument? : Item → Option Expression
  | .value _ expression => some expression
  | .parameter _ => none

/-- Whether an item can only be a parameter. -/
def Item.isParameter : Item → Bool
  | .value _ _ => false
  | .parameter _ => true

/-- The value of an option, which has to be there. -/
def demand {α : Type} : Option α → Reading α
  | some value => return value
  | none => failure

/-- Whether the name at the cursor is an optional parameter: behind its question mark the parameter
ends or goes on, and no expression begins. -/
def seesOptionalName : Reading Bool :=
  foreseen do
    require (← currentToken).isReference
    advance
    expect "?"
    seesOneOf [",", ":", ")", "="]

/-- The rest of a parameter whose target was read: its type and the value that it falls back to. -/
def parameterRest (grammar : Grammar) (isSpread : Bool) (target : Pattern) : Reading Item := do
  let typing ← Typing.colonType? grammar
  let typed := Binding.annotate typing (if isSpread then .rest target [] else target)
  return .parameter (← Binding.withFallback grammar typed)

/-- Whether an expression assigns. -/
def assigns : Expression → Bool
  | .assignment _ _ => true
  | _ => false

/-- One item in parentheses. -/
def item (grammar : Grammar) : Reading Item := do
  faultIf (← Typing.takeDescription?)
  let isSpread ← take? "..."
  if ← seesOptionalName then
    let name ← anyWord
    advance
    parameterRest grammar isSpread (.name name [])
  else
    let isName := (← currentToken).isReference
    let value ← Binding.value grammar
    require !(isSpread && isName && assigns value)
    if ← sees ":" then
      parameterRest grammar isSpread (← demand (pattern? value))
    else
      return .value isSpread value

/-- An arrow function with these parameters, whose arrow is the current token. -/
def arrow (grammar : Grammar) (isAsync : Bool) (items : List Item) (result : List Expression) :
    Reading Expression := do
  expect "=>"
  let parameters ← demand (items.mapM Item.pattern?)
  let body ← Definition.arrowBody grammar isAsync
  return .arrow parameters body result

/-- The result type of an arrow function behind its parameters. -/
def arrowResult (grammar : Grammar) : Reading (List Expression) := do
  expect ":"
  let result ← Typing.returned grammar
  require (← sees "=>")
  return result

/-- An arrow function whose result type is stated, where a colon is awaited anyway: that colon has
to follow the function. -/
def arrowBeforeColon (grammar : Grammar) (isAsync : Bool) (items : List Item) :
    Reading Expression := do
  let result ← arrowResult grammar
  let found ← arrow grammar isAsync items result
  require (← sees ":")
  return found

/-- What the items in parentheses stand for without an arrow behind them: the arguments of a call of
`async`, or an expression. -/
def enclosed (isAsync : Bool) (items : List Item) : Reading Expression := do
  if isAsync then
    return .combined (.identifier "async" :: (← demand (items.mapM Item.argument?)))
  else
    match ← demand (items.mapM Item.single?) with
    | [] => failure
    | [single] => return .parenthesized single
    | several => return .parenthesized (.combined several)

/-- Parentheses and, if they were the parameters of one, the arrow function. An arrow function has
to be a whole expression, which `opens` tells, with its arrow on the line of the parameters. -/
def parenthesized (grammar : Grammar) (opens isAsync : Bool) : Reading Expression := do
  expect "("
  let items ← commaList ")" (item grammar)
  let awaitsColon := (← read).awaitsColon
  if awaitsColon && (← sees ":") then
    if let some found ← attempt (arrowBeforeColon grammar isAsync items) then
      return found
  let result ←
    if !awaitsColon && (← sees ":") then attempt (arrowResult grammar) else pure none
  if result.isSome || items.any Item.isParameter || (← sees "=>") then
    require (opens && !(← afterBreak))
    arrow grammar isAsync items (result.getD [])
  else
    enclosed isAsync items

/-- An arrow function with this single parameter, whose arrow is the current token. -/
def nameArrow (grammar : Grammar) (isAsync : Bool) (name : String) : Reading Expression :=
  arrow grammar isAsync [.parameter (.name name [])] []

/-- The parameters and the result type of an asynchronous arrow function with type parameters. Where
elements may stand, the type parameters must not look like a tag. -/
def genericAsyncHead (grammar : Grammar) : Reading (List Pattern × List Expression) := do
  let bounds ← Typing.parameterList grammar
  require !((← read).markup && Typing.resembleTag bounds)
  let parameters ← grammar.parameters
  let result ← Typing.returnType? grammar
  require (← sees "=>")
  return (parameters.map Typing.undecorated,
    bounds.flatMap Typing.TypeParameter.typing ++ result)

/-- What the word `async`, which was passed, begins where an arrow function may stand. -/
def afterAsync (grammar : Grammar) : Reading Expression := do
  if ← afterBreak then
    return .identifier "async"
  else if ← sees "(" then
    parenthesized grammar true true
  else if (← currentToken).isReference then
    let name ← boundName
    if name == "as" && !(← sees "=>") then
      return .typed (.identifier "async") (← grammar.type)
    else
      nameArrow grammar true name
  else if ← sees "<" then
    match ← attempt (genericAsyncHead grammar) with
    | none => return .identifier "async"
    | some (parameters, typing) =>
        expect "=>"
        return .arrow parameters (← Definition.arrowBody grammar true) typing
  else
    return .identifier "async"

/-! ### Operands -/

/-- A function whose keyword is the current token; it needs a body. -/
def functionValue (grammar : Grammar) (isAsync : Bool) : Reading Expression := do
  expectWord "function"
  let isGenerator ← take? "*"
  if (← currentToken).isAnyWord then
    let _ ← boundName
  let rest ← Definition.functionRest grammar isAsync isGenerator
  require rest.body.isSome
  return .functionValue (rest.define [])

/-- A class whose keyword is the current token, with the decorators before it. -/
def classValue (grammar : Grammar) (marks : List Expression) : Reading Expression := do
  expectWord "class"
  let _ ← Definition.className?
  return .classValue (← Definition.classRest grammar marks)

/-- A name and, where one may begin with it, the arrow function that has it as its parameter. Only a
generator yields, and there the word is no name. -/
def reference (grammar : Grammar) (opens : Bool) : Reading Expression := do
  let name ← plainName
  require (name != "yield")
  if opens && (← sees "=>") && !(← afterBreak) then
    nameArrow grammar false name
  else
    return .identifier name

/-- Words that stand for a value by themselves. -/
def fixedWords : List String := ["this", "null", "true", "false"]

/-- The parent of an object, of which there is only a property that is not private, or a call. -/
def parentAccess (calls : Bool) : Reading Expression := do
  expectWord "super"
  let isPrivate := (← following).token == .privateName
  require ((← sees "[") || ((← sees ".") && !isPrivate) || (calls && (← sees "(")))
  return .literal

/-- An imported module, named by one or two arguments, or the word `import.meta`. -/
def imported (grammar : Grammar) (calls : Bool) : Reading Expression := do
  expectWord "import"
  if ← take? "." then
    if ← takeWord? "meta" then
      return .literal
    require (← takeWordOf? ["defer", "source"]).isSome
  require calls
  let values ← Binding.arguments grammar
  require (values.length == 1 || values.length == 2)
  return .combined values

/-- An operand that begins with a word. -/
def wordOperand (grammar : Grammar) (opens calls : Bool) (name : String) : Reading Expression := do
  if fixedWords.contains name then
    advance
    return .literal
  else if name == "super" then
    parentAccess calls
  else if name == "function" then
    functionValue grammar false
  else if name == "class" then
    classValue grammar []
  else if name == "import" then
    imported grammar calls
  else if name == "async" then
    let next ← following
    advance
    if next.token.isWord "function" && !next.afterBreak then
      functionValue grammar true
    else if opens && !(next.token.isMark "=>" ) then
      afterAsync grammar
    else if opens && !next.afterBreak then
      nameArrow grammar false name
    else
      return .identifier name
  else
    reference grammar opens

/-- An operand that begins with a mark. -/
def markOperand (grammar : Grammar) (opens : Bool) (symbol : String) : Reading Expression := do
  if symbol == "(" then
    parenthesized grammar opens false
  else if symbol == "[" then
    advance
    return .array (← arrayItems grammar)
  else if symbol == openBrace then
    object grammar
  else if symbol == "`" then
    return .template (← template grammar false)
  else if symbol == "/" || symbol == "/=" then
    regex
  else if symbol == "@" then
    let marks ← Binding.decorators grammar
    if ← seesWord "class" then classValue grammar marks else reference grammar false
  else
    failure

/-- An operand without calls and accesses. -/
def primary (grammar : Grammar) (opens calls : Bool) : Reading Expression := do
  match ← currentToken with
  | .number => advance; return .literal
  | .text _ => advance; return .literal
  | .privateName => advance; return .literal
  | .word name escaped =>
      if escaped then reference grammar opens else wordOperand grammar opens calls name
  | .mark symbol => markOperand grammar opens symbol
  | _ => failure

/-! ### Types behind operands -/

/-- Marks and words that can begin an expression. -/
def beginsExpression (token : Token) : Bool :=
  match token with
  | .word name _ =>
      !reservedWords.contains name ||
        ["this", "super", "null", "true", "false", "function", "class", "new", "import", "typeof",
          "void", "delete"].contains name
  | .number => true
  | .text _ => true
  | .privateName => true
  | .mark symbol =>
      ["(", "[", openBrace, "`", "<", "+", "-", "!", "~", "++", "--", "@"].contains symbol
  | _ => false

/-- Whether types in angle brackets may end before the current token without being given to a call,
so that the brackets are not two comparisons. -/
def endsInstantiation : Reading Bool := do
  let cursor ← get
  let continues := cursor.rest.head?.any (fun next ↦ next == '>' || next == '=')
  if cursor.token.isOneOf ["<", "+", "-", "(", "`"] || (cursor.token.isMark ">" && !continues) then
    return false
  else
    return cursor.afterBreak || !beginsExpression cursor.token

/-- Whether types can be given to an expression as it stands: not to what a call gives. -/
def isInstantiable : Expression → Bool
  | .combined _ => false
  | .typed _ _ => false
  | _ => true

/-- Types given to a value: to a call or a template of it, or to the value itself where it can take
them or where an assignment or another type follows. -/
def givenTypes (grammar : Grammar) (calls instantiable : Bool) : Reading (List Expression) := do
  let types ← Typing.typeArguments grammar
  let names := (← seesWord "as") || (← seesWord "satisfies")
  require (names || (calls && (← sees "(")) || (← seesOneOf ["`", "="]) ||
    (instantiable && (← endsInstantiation)))
  return types

/-- A call with types, a template with types, or a value with types. -/
def applied (grammar : Grammar) (subject : Expression) (types : List Expression) :
    Reading Expression := do
  if ← sees "(" then
    let values ← Binding.arguments grammar
    return .combined (subject :: values ++ types)
  else if ← sees "`" then
    let holes ← template grammar true
    return .combined (subject :: types ++ [.template holes])
  else
    return .typed subject types

/-! ### Calls and accesses -/

/-- Passes a name behind a dot. -/
def memberName : Reading Unit := do
  if (← currentToken) == .privateName then advance else let _ ← anyWord

/-- An index in brackets whose opening bracket was passed. -/
def index (grammar : Grammar) : Reading Expression := do
  let value ← inside bracketed grammar.expression
  expect "]"
  return value

/-- An access or a call behind `?.`. -/
def optionalAccess (grammar : Grammar) (subject : Expression) : Reading Expression := do
  if ← sees "(" then
    let values ← Binding.arguments grammar
    return .optional (subject :: values)
  else if ← take? "[" then
    return .optional [subject, ← index grammar]
  else if ← sees "<" then
    let types ← Typing.typeArguments grammar
    let values ← Binding.arguments grammar
    return .optional (subject :: values ++ types)
  else
    memberName
    return .optional [subject]

/-- What may stand behind an operand: behind `new` there are no calls, and in a decorator there are
no indices. -/
structure AccessRules where
  calls : Bool
  indices : Bool

/-- Whether an expression is skipped where its first operand has no value; it cannot be the tag of a
template. -/
def isOptional : Expression → Bool
  | .optional _ => true
  | _ => false

/-- One access or call behind an operand, if there is one. What `new` makes is never optional. -/
def access (grammar : Grammar) (rules : AccessRules) (subject : Expression) :
    Reading (Option Expression) := do
  match ← currentToken with
  | .mark symbol =>
      if symbol == "." then
        advance
        memberName
        return some (.member subject none)
      else if symbol == "[" && rules.indices then
        advance
        return some (.member subject (some (← index grammar)))
      else if symbol == "`" then
        faultIf (isOptional subject)
        return some (.combined [subject, .template (← template grammar true)])
      else if symbol == "!" && !(← afterBreak) then
        advance
        return some (.typed subject [])
      else if symbol == "<" || symbol == "<<" then
        match ← attempt (givenTypes grammar rules.calls (isInstantiable subject)) with
        | none => return none
        | some types => some <$> applied grammar subject types
      else if symbol == "(" && rules.calls then
        let values ← Binding.arguments grammar
        return some (.combined (subject :: values))
      else if symbol == "?." then
        require rules.calls
        advance
        some <$> optionalAccess grammar subject
      else
        return none
  | _ => return none

/-- Accesses and calls behind an operand, at most as many as `fuel` says. -/
def accessesFor (grammar : Grammar) (rules : AccessRules) : Nat → Expression → Reading Expression
  | 0, _ => fun _ _ ↦ none
  | fuel + 1, subject => fun context cursor ↦
      match access grammar rules subject context cursor with
      | none => none
      | some (none, later) => some (subject, later)
      | some (some longer, later) => accessesFor grammar rules fuel longer context later

/-- An operand with the accesses and calls behind it. -/
def accesses (grammar : Grammar) (rules : AccessRules) (subject : Expression) :
    Reading Expression := do
  accessesFor grammar rules (← read).limit subject

/-- An object that is made by `new`, the current token, or the word `new.target`. -/
def constructed (grammar : Grammar) : Reading Expression := do
  expectWord "new"
  if ← take? "." then
    expectWord "target"
    faultIf (!(← read).hasTarget)
    return .literal
  let callee ← grammar.construction
  let types ← attempt (do
    let types ← Typing.typeArguments grammar
    require (← sees "(")
    return types)
  let values ← if ← sees "(" then Binding.arguments grammar else pure []
  return .combined (callee :: values ++ types.getD [])

/-- The beginning of an operand, before its accesses and calls. -/
def head (grammar : Grammar) (opens calls : Bool) : Reading Expression := do
  if ← seesWord "new" then
    constructed grammar
  else
    primary grammar opens calls

/-- What follows `new`, up to its arguments. -/
def construction (grammar : Grammar) : Reading Expression := do
  accesses grammar ⟨false, true⟩ (← head grammar false false)

/-- Whether an expression is an arrow function, behind which no access stands. -/
def isArrow : Expression → Bool
  | .arrow _ _ _ => true
  | _ => false

/-- An operand with its calls and accesses; it may be an arrow function where one `opens`. -/
def operand (grammar : Grammar) (opens : Bool) : Reading Expression := do
  let subject ← head grammar opens true
  if isArrow subject then
    return subject
  else
    accesses grammar ⟨true, true⟩ subject

/-- The expression of a decorator behind its at sign: a name with calls and accesses, or any
expression in parentheses and its arguments. -/
def decoration (grammar : Grammar) : Reading Expression := do
  if ← take? "(" then
    let inner ← inside bracketed grammar.expression
    expect ")"
    let values ← if ← sees "(" then Binding.arguments grammar else pure []
    return .combined (inner :: values)
  else
    let name ← boundName
    accesses grammar ⟨true, false⟩ (.identifier name)

end ComponentGraph.Source.Operand
