import ComponentGraph.Source.Binding

/-!
Functions and classes: parameters, bodies and members. The words before the key of a member of a
class come in a fixed order: `declare`, who may see the member, `declare` or `static`, further words
in any order, and `accessor`. Each of them can also be the key itself.
-/

set_option autoImplicit false
set_option relaxedAutoImplicit false

namespace ComponentGraph.Source.Definition

/-! ### Functions -/

/-- Statements in braces. If the text ends before the closing brace, that is a fault. -/
def block (grammar : Grammar) : Reading (List Statement) := do
  expect openBrace
  many (do
    if ← take? closeBrace then
      return none
    if (← currentToken) == .finish then
      fault
      return none
    return some (← grammar.statement true))

/-- The surroundings in the body of a function. -/
def bodyContext (isAsync isGenerator : Bool) (context : Context) : Context :=
  { context with
    inFunction := true
    inParameters := false
    inAsync := isAsync
    inGenerator := isGenerator
    allowIn := true
    awaitsColon := false
    breakable := false
    continuable := false
    labels := [] }

/-- The surroundings in the parameters of a function. -/
def parameterContext (isAsync isGenerator : Bool) (context : Context) : Context :=
  { context with
    inFunction := false
    inParameters := true
    inAsync := isAsync
    inGenerator := isGenerator
    hasTarget := true
    allowIn := true }

/-- Surroundings of a function that can be called with `new`. -/
def targetContext (context : Context) : Context :=
  { context with hasTarget := true }

/-- The body of a function, or the end of a signature. A body in an ambient declaration is a
fault. -/
def body? (grammar : Grammar) (isAsync isGenerator : Bool) : Reading (Option (List Statement)) := do
  if ← sees openBrace then
    faultIf (← read).ambient
    let found ← inside (fun context ↦ targetContext (bodyContext isAsync isGenerator context))
      (block grammar)
    return some found
  else
    semicolon
    return none

/-- What follows the name of a function. -/
structure FunctionRest where
  parameters : List Pattern
  bounds : List Expression
  result : List Expression
  body : Option (List Statement)

/-- Type parameters, parameters, result type and body of a function. -/
def functionRest (grammar : Grammar) (isAsync isGenerator : Bool) : Reading FunctionRest := do
  let bounds ← Typing.typeParameters? grammar
  let parameters ← inside (parameterContext isAsync isGenerator) grammar.parameters
  let result ← Typing.returnType? grammar
  let body ← body? grammar isAsync isGenerator
  return { parameters, bounds, result, body }

/-- The function with these decorators. -/
def FunctionRest.define (rest : FunctionRest) (marks : List Expression) : Function :=
  .mk rest.parameters marks rest.body (rest.bounds ++ rest.result)

/-- A function behind its name, or only its signature. -/
def function (grammar : Grammar) (isAsync isGenerator : Bool) (marks : List Expression) :
    Reading Function := do
  return (← functionRest grammar isAsync isGenerator).define marks

/-- The body of an arrow function: statements in braces, or one expression. -/
def arrowBody (grammar : Grammar) (isAsync : Bool) : Reading (List Statement) := do
  if ← sees openBrace then
    inside (bodyContext isAsync false) (block grammar)
  else
    let value ← inside
      (fun context ↦
        { context with
          inFunction := true, inParameters := false, inAsync := isAsync, inGenerator := false })
      grammar.assignment
    return [.evaluate value]

/-! ### Keys of members -/

/-- The key of a member of a class: its expression, if it is computed, and its name, if it is
written as a word or a text. -/
structure Key where
  computed : Option Expression := none
  name : Option String := none
  isWord : Bool := false

/-- The key that is this word. -/
def Key.ofWord (name : String) : Key :=
  { name := some name, isWord := true }

/-- Whether a member with this key is the constructor. -/
def Key.isConstructor (key : Key) : Bool :=
  key.name == some "constructor"

/-- The key of a member of a class, which may be private. -/
def memberKey (grammar : Grammar) : Reading Key := do
  match ← currentToken with
  | .word name _ => advance; return .ofWord name
  | .text value => advance; return { name := value }
  | .privateName => advance; return {}
  | _ => return { computed := ← Typing.key grammar }

/-- Whether a method goes on here behind its key. -/
def seesMethod : Reading Bool :=
  seesOneOf ["(", "<"]

/-- Whether a field goes on or ends here behind its key, on the same line. -/
def seesField : Reading Bool :=
  seesOneOf ["!", ":", "=", closeBrace, ";"]

/-- Whether a field goes on or ends here behind its key, also with the line. -/
def seesFieldOrBreak : Reading Bool := do
  return (← seesField) || (← afterBreak) || (← currentToken) == .finish

/-! ### Members of classes -/

/-- What the words before the key of a member say about it. -/
structure Description where
  decorators : List Expression
  isStatic : Bool := false
  isFixed : Bool := false
  /-- An index signature cannot be described in this way. -/
  isRestricted : Bool := false

/-- The rest of a field whose key was passed. No field may have the name of the constructor. -/
def field (grammar : Grammar) (description : Description) (key : Key) : Reading ClassMember := do
  require !key.isConstructor
  let _ ← take? "!"
  let typing ← Typing.colonType? grammar
  let value ← if ← take? "=" then some <$> Binding.value grammar else pure none
  semicolon
  return .field key.computed value typing description.decorators

/-- The rest of a method whose key was passed. -/
def method (grammar : Grammar) (description : Description) (key : Key)
    (isAsync isGenerator : Bool) : Reading ClassMember := do
  let _ ← take? "?"
  return .method key.computed (← function grammar isAsync isGenerator description.decorators)

/-- The rest of the constructor. Its decorators and the types stated for it do not count. -/
def constructor (grammar : Grammar) : Reading ClassMember := do
  let _ ← Typing.typeParameters? grammar
  let parameters ← inside (fun context ↦ { context with allowIn := true })
    (Binding.constructorParameters grammar)
  let _ ← Typing.colonType? grammar
  return .constructor (.mk parameters [] (← body? grammar false false) [])

/-- A method that begins with the word `async`, which was passed. -/
def asyncMethod (grammar : Grammar) (description : Description) : Reading ClassMember := do
  let isGenerator ← take? "*"
  let key ← memberKey grammar
  require (!key.isConstructor && !description.isFixed)
  method grammar description key true isGenerator

/-- A member behind its key, which may turn out to be a word that describes another key. -/
def keyed (grammar : Grammar) (description : Description) (key : Key) : Reading ClassMember := do
  if !(← take? "?") && (← afterBreak) && (← sees "*") then
    field grammar description key
  else if ← seesMethod then
    require !description.isFixed
    if key.isConstructor && !description.isStatic then
      constructor grammar
    else
      method grammar description key false false
  else
    let isAccessor := key.isWord && (key.name == some "get" || key.name == some "set")
    if isAccessor && !(← seesField) then
      method grammar description (← memberKey grammar) false false
    else if ← seesFieldOrBreak then
      field grammar description key
    else
      require (key.isWord && key.name == some "async")
      asyncMethod grammar description

/-- A member whose describing words were passed, apart from `accessor`. -/
def describedMember (grammar : Grammar) (description : Description) : Reading ClassMember := do
  if ← takeWord? "accessor" then
    if ← seesMethod then
      method grammar description (.ofWord "accessor") false false
    else if ← seesFieldOrBreak then
      field grammar description (.ofWord "accessor")
    else
      field grammar description (← memberKey grammar)
  else if description.isStatic && (← sees openBrace) then
    return .initializer (← block grammar)
  else if !description.isRestricted && (← Typing.seesIndexSignature) then
    return .signature (← Typing.indexSignature grammar)
  else if ← take? "*" then
    method grammar description (← memberKey grammar) false true
  else
    keyed grammar description (← memberKey grammar)

/-- The member whose key is a word that was passed, if that word describes nothing. -/
def namedMember? (grammar : Grammar) (description : Description) (name : String)
    (seesEnd : Reading Bool) : Reading (Option ClassMember) := do
  if ← seesMethod then
    some <$> method grammar description (.ofWord name) false false
  else if ← seesEnd then
    some <$> field grammar description (.ofWord name)
  else
    return none

/-- A member whose decorators, `declare` and access were passed. -/
def staticMember (grammar : Grammar) (description : Description) : Reading ClassMember := do
  let isStatic ← takeWord? "static"
  if isStatic then
    if let some found ← namedMember? grammar description "static" seesField then
      return found
  let words ← many (do
    if ← seesWordBefore "static" (·.token.isMark openBrace) then
      return none
    takeModifier? ["abstract", "readonly", "override", "static"])
  describedMember grammar
    { description with
      isStatic := isStatic || words.contains "static"
      isFixed := words.contains "readonly"
      isRestricted :=
        description.isRestricted || words.contains "abstract" || words.contains "override" }

/-- A member of a class. -/
def classMember (grammar : Grammar) : Reading ClassMember := do
  let decorators ← Binding.decorators grammar
  let first ← takeWord? "declare"
  let access ← takeModifier? ["public", "protected", "private"]
  let second ← if first then pure false else takeWord? "declare"
  let description := { decorators, isRestricted := access.isSome }
  if first || second then
    if let some found ← namedMember? grammar description "declare" seesFieldOrBreak then
      return found
  staticMember grammar description

/-- Whether a member is a constructor with a body; without one it only states types. -/
def isWholeConstructor : ClassMember → Bool
  | .constructor (.mk _ _ (some _) _) => true
  | _ => false

/-- Members of a class in braces. Every constructor behind the first is a fault, except in an
ambient declaration. -/
def classMembers (grammar : Grammar) : Reading (List ClassMember) := do
  expect openBrace
  let members ← many (do
    if ← take? closeBrace then
      return none
    else if ← take? ";" then
      return some []
    else
      return some [← classMember grammar])
  let found := members.flatten
  if !(← read).ambient then
    addFaults ((found.filter isWholeConstructor).length - 1)
  return found

/-! ### Classes -/

/-- Takes the types given to a value apart from it. -/
def splitTypes : Expression → Expression × List Expression
  | .typed value typing => (value, typing)
  | plain => (plain, [])

/-- The expression that a class extends, and the types given to it. -/
def parent? (grammar : Grammar) : Reading (Option Expression × List Expression) := do
  if ← takeWord? "extends" then
    let (parent, types) := splitTypes (← grammar.operand)
    if ← sees "<" then
      return (some parent, types ++ (← Typing.typeArguments grammar))
    else
      return (some parent, types)
  else
    return (none, [])

/-- One type that a class implements or an interface extends: words joined by dots, with the types
given to them. -/
def heritageItem (grammar : Grammar) : Reading (List Expression) := do
  Typing.dottedWords
  if ← sees "<" then Typing.typeArguments grammar else return []

/-- Types separated by commas, up to what follows such a list; there may be none. -/
def heritage (grammar : Grammar) : Reading (List Expression) := do
  let types ← many (do
    if ← ends then
      return none
    let item ← heritageItem grammar
    if !(← take? ",") then
      require (← ends)
    return some item)
  return types.flatten
where
  /-- Whether the list ends here. -/
  ends : Reading Bool := do
    return (← sees openBrace) || (← seesWord "implements") || (← seesWord "extends")

/-- A class whose keyword and name were passed. -/
def classRest (grammar : Grammar) (marks : List Expression) : Reading Class :=
  inside (fun context ↦ { targetContext context with allowIn := true, awaitsColon := false }) do
    let bounds ← Typing.typeParameters? grammar
    let (parent, types) ← parent? grammar
    let interfaces ← if ← takeWord? "implements" then heritage grammar else pure []
    let members ← classMembers grammar
    return .mk marks members parent (bounds ++ types ++ interfaces)

/-- The name of a class, if it has one. -/
def className? : Reading (Option String) := do
  if (← currentToken).isReference || (← seesWord "this") then
    return some (← boundName)
  else
    return none

end ComponentGraph.Source.Definition
