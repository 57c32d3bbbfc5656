import ComponentGraph.Source.Definition

/-!
Declarations: variables, functions, classes, and the declarations that only concern types. A
constant without a value is a fault, except in an ambient declaration and in the head of a loop.
Some words begin a declaration only in front of certain tokens and are ordinary names elsewhere.
-/

set_option autoImplicit false
set_option relaxedAutoImplicit false

namespace ComponentGraph.Source.Declaration

/-! ### Variables -/

/-- The ways to declare variables. -/
inductive VariableKind where
  | changing
  | scoped
  | constant
  | resource
  deriving DecidableEq

/-- Whether the head of a loop over a collection goes on here. -/
def seesLoopWord : Reading Bool := do
  return (← seesWord "of") || (← seesWord "in")

/-- Whether a pattern is a plain name. -/
def isName : Pattern → Bool
  | .name _ _ => true
  | _ => false

/-- A declarator without a value: a pattern needs one, and outside the head of a loop so does a
constant. -/
def withoutValue (kind : VariableKind) (inLoop : Bool) (target : Pattern) : Reading Unit := do
  if (← read).ambient then
    return ()
  else if kind == .constant && !inLoop then
    fault
  else
    require (isName target)

/-- One declarator. Only a name can be declared to have a value by a mark behind it. -/
def declarator (grammar : Grammar) (kind : VariableKind) (inLoop : Bool) : Reading Declarator := do
  if kind != .changing then
    require !(← seesWord "let")
  let plain ← grammar.target
  if isName plain then
    let _ ← take? "!"
  let typing ← Typing.colonType? grammar
  let target := Binding.annotate typing plain
  if ← take? "=" then
    let value ← inside (fun context ↦ { context with awaitsColon := false }) grammar.assignment
    return .mk target (some value)
  else
    if !(inLoop && (← seesLoopWord)) then
      withoutValue kind inLoop target
    return .mk target none

/-- Declarators separated by commas; one that is missing at the end is a fault. -/
def declarators (grammar : Grammar) (kind : VariableKind) (inLoop : Bool) :
    Reading (List Declarator) := do
  let parts ← separated "," (do
    if (← sees ";") || (← currentToken) == .finish then
      fault
      return none
    else
      return some (← declarator grammar kind inLoop))
  return parts.filterMap id

/-- The kind of variables that the keyword at the cursor declares, if it is one. The word `let` is
one only before a name or a pattern. -/
def variableKind? : Reading (Option VariableKind) := do
  if ← seesWord "var" then
    return some .changing
  else if ← seesWord "const" then
    return some .constant
  else if ← seesWord "let" then
    let next := (← following).token
    return if next.isName || next.isOneOf ["[", openBrace] then some .scoped else none
  else
    return none

/-- The number of words at the cursor that declare variables to be released at the end of their
block, if there are such: `using`, or `await using`, before a name on the same line. -/
def resourceWords? : Reading (Option Nat) := do
  if ← seesWordBefore "using" binds then
    return some 1
  else if ← seesWordBefore "await" (fun next ↦
      next.token.isWord "using" && !next.afterBreak && binds (Lexeme.read next.rest)) then
    return some 2
  else
    return none
where
  /-- Whether `using` before this token declares it. -/
  binds (next : Lexeme) : Bool :=
    next.token.isReference && !next.afterBreak

/-- Passes tokens up to the end of the statement. -/
def skipStatement : Reading Unit := do
  let _ ← many (do
    if ← takeSemicolon? then
      return none
    require ((← currentToken) != .unreadable)
    advance
    return some ())

/-- Declarators of a statement whose keyword was passed. If something stands between the declaration
and the end of the statement, that is a fault, and it is passed over. -/
def statementDeclarators (grammar : Grammar) (kind : VariableKind) : Reading (List Declarator) := do
  let parts ← declarators grammar kind false
  if !(← takeSemicolon?) then
    fault
    let _ ← attempt grammar.expression
    skipStatement
  return parts

/-- Variables declared by a statement whose keyword is the current token. -/
def variableStatement (grammar : Grammar) (kind : VariableKind) : Reading Statement := do
  advance
  return .variableDeclaration (← statementDeclarators grammar kind)

/-- Variables that are released at the end of their block, declared behind so many words. -/
def resourceStatement (grammar : Grammar) (words : Nat) : Reading Statement := do
  advance
  if words == 2 then
    advance
  return .resourceDeclaration (← statementDeclarators grammar .resource)

/-! ### Functions and classes -/

/-- A function declaration whose keyword is the current token. -/
def function (grammar : Grammar) (isAsync : Bool) (marks : List Expression) :
    Reading Statement := do
  expectWord "function"
  let isGenerator ← take? "*"
  let name ← boundName
  return .functionDeclaration name (← Definition.function grammar isAsync isGenerator marks)

/-- Whether an asynchronous function begins here. -/
def seesAsyncFunction : Reading Bool :=
  seesWordBefore "async" (fun next ↦ next.token.isWord "function" && !next.afterBreak)

/-- A class declaration whose keyword is the current token. -/
def classStatement (grammar : Grammar) (marks : List Expression) : Reading Statement := do
  expectWord "class"
  require (← Definition.className?).isSome
  return .classDeclaration (← Definition.classRest grammar marks)

/-! ### Types -/

/-- An enumeration whose keyword was passed, with the values of its members. Its keys do not
count. -/
def enumeration (grammar : Grammar) : Reading Statement := do
  let _ ← anyWord
  expect openBrace
  let members ← commaList closeBrace (do
    let _ ← Typing.key grammar
    if ← take? "=" then return [← Binding.value grammar] else return [])
  return .typeDeclaration members.flatten

/-- Whether a constant enumeration begins here. -/
def seesConstantEnumeration : Reading Bool :=
  seesWordBefore "const" (·.token.isWord "enum")

/-- A constant enumeration, whose two keywords come first. -/
def constantEnumeration (grammar : Grammar) : Reading Statement := do
  advance
  advance
  enumeration grammar

/-- An interface whose keyword was passed. -/
def interface (grammar : Grammar) : Reading Statement := do
  let _ ← anyWord
  let bounds ← Typing.typeParameters? grammar
  let parents ← if ← takeWord? "extends" then Definition.heritage grammar else pure []
  let members ← Typing.objectType grammar
  return .typeDeclaration (bounds ++ parents ++ members)

/-- A name for a type, whose keyword was passed. -/
def typeAlias (grammar : Grammar) : Reading Statement := do
  let _ ← anyWord
  let bounds ← Typing.typeParameters? grammar
  expect "="
  let type ← grammar.type
  semicolon
  return .typeDeclaration (bounds ++ type)

/-- Items of a namespace in braces. -/
def items (grammar : Grammar) : Reading (List Statement) := do
  expect openBrace
  many (do
    if ← take? closeBrace then
      return none
    if (← currentToken) == .finish then
      fault
      return none
    return some (← grammar.item))

/-- A namespace whose keyword was passed. -/
def namespaceRest (grammar : Grammar) : Reading Statement := do
  Typing.dottedWords
  return .namespaceDeclaration (← items grammar)

/-- A module whose keyword was passed: a namespace, or a quoted module that may have no body. -/
def moduleRest (grammar : Grammar) : Reading Statement := do
  if (← currentToken).isText then
    advance
    if ← sees openBrace then
      return .namespaceDeclaration (← items grammar)
    else
      semicolon
      return .namespaceDeclaration []
  else
    namespaceRest grammar

/-! ### Declarations that begin with an ordinary word -/

/-- The declaration behind this word, if it is one that declares. -/
def worded? (grammar : Grammar) (marks : List Expression) (name : String) :
    Option (Reading Statement) :=
  if name == "abstract" then some (classStatement grammar marks)
  else if name == "enum" then some (enumeration grammar)
  else if name == "interface" then some (interface grammar)
  else if name == "module" then some (moduleRest grammar)
  else if name == "namespace" then some (namespaceRest grammar)
  else if name == "type" then some (typeAlias grammar)
  else none

/-- A declaration that begins with the word at the cursor, wherever that word cannot be a name. A
module is not declared across lines. -/
def declared? (grammar : Grammar) (marks : List Expression) : Reading (Option Statement) := do
  match ← currentToken with
  | .word name false =>
      match worded? grammar marks name with
      | some reading =>
          if name == "module" && (← afterBreak) then
            return none
          advance
          some <$> reading
      | none => return none
  | _ => return none

/-- The surroundings in an ambient declaration. -/
def ambient (context : Context) : Context :=
  { context with ambient := true }

/-- The declaration behind `declare`, if there is one. -/
def ambient? (grammar : Grammar) (marks : List Expression) : Reading (Option Statement) :=
  inside ambient do
    if ← seesWord "function" then
      some <$> function grammar false marks
    else if ← seesWord "class" then
      some <$> classStatement grammar marks
    else if ← seesConstantEnumeration then
      some <$> constantEnumeration grammar
    else if ← takeWord? "global" then
      return some (.namespaceDeclaration (← items grammar))
    else
      match ← variableKind? with
      | some kind => some <$> variableStatement grammar kind
      | none => declared? grammar marks

/-- Whether the word at the cursor, with the token behind it, begins a declaration where it could
also be a name. -/
def beginsDeclaration (name : String) (next : Lexeme) : Bool :=
  let operates := !next.afterBreak && (next.token.isWord "as" || next.token.isWord "satisfies")
  if name == "type" || name == "interface" then next.token.isAnyWord && !next.afterBreak
  else if name == "enum" then true
  else if name == "abstract" then next.token.isWord "class" && !next.afterBreak
  else if name == "namespace" then next.token.isReference && !operates
  else if name == "module" then
    !next.afterBreak && (next.token.isText || (next.token.isReference && !operates))
  else false

/-- Words that begin the declaration behind `declare`. -/
def declarable : List String :=
  ["var", "let", "const", "function", "class", "abstract", "enum", "interface", "type",
    "namespace", "module", "global"]

/-- A declaration that begins with an ordinary word, if one begins here. -/
def ordinary? (grammar : Grammar) (marks : List Expression) : Reading (Option Statement) := do
  match ← currentToken with
  | .word name false =>
      let next ← following
      if name == "declare" && declarable.any next.token.isWord then
        advance
        ambient? grammar marks
      else if name == "global" && next.token.isMark openBrace then
        advance
        return some (.namespaceDeclaration (← items grammar))
      else if beginsDeclaration name next then
        declared? grammar marks
      else
        return none
  | _ => return none

end ComponentGraph.Source.Declaration
