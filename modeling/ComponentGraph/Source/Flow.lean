import ComponentGraph.Source.Declaration

/-!
Statements. A few that the language does not allow in their place are put up with as faults: a
return outside a function, a jump without a target, a label within one of the same name, a `with`, a
`try` without a handler, and a function or a class as the body of another statement. Decorators may
stand before any statement, but they count only before a function or a class.
-/

set_option autoImplicit false
set_option relaxedAutoImplicit false

namespace ComponentGraph.Source.Flow

/-! ### Parts -/

/-- An expression in parentheses. -/
def parenthesized (grammar : Grammar) : Reading Expression := do
  expect "("
  let value ← grammar.expression
  expect ")"
  return value

/-- The surroundings in the body of a loop. -/
def loopContext (context : Context) : Context :=
  { context with breakable := true, continuable := true }

/-- The body of a loop. -/
def loopBody (grammar : Grammar) : Reading Statement :=
  inside loopContext (grammar.statement false)

/-! ### Loops -/

/-- Surroundings in which the operator `in` may stand. -/
def allowingIn (context : Context) : Context :=
  { context with allowIn := true }

/-- The rest of a loop over a collection whose target was read. Only a loop over the items
themselves can await them. -/
def forEachRest (grammar : Grammar) (awaits : Bool) (target : Statement) : Reading Statement := do
  let subject ←
    if ← takeWord? "of" then
      inside allowingIn grammar.assignment
    else
      require !awaits
      expectWord "in"
      inside allowingIn grammar.expression
  expect ")"
  return .forEach target subject (← loopBody grammar)

/-- The rest of a counting loop whose first part was read; it cannot await. -/
def forLoopRest (grammar : Grammar) (awaits : Bool) (start : Option Statement) :
    Reading Statement := do
  require !awaits
  expect ";"
  let test ←
    if ← sees ";" then pure none else some <$> inside allowingIn grammar.expression
  expect ";"
  let update ←
    if ← sees ")" then pure none else some <$> inside allowingIn grammar.expression
  expect ")"
  return .forLoop start test update (← loopBody grammar)

/-- The rest of a loop of either kind, whose first part was read. -/
def forRest (grammar : Grammar) (awaits : Bool) (start : Statement) : Reading Statement := do
  if ← Declaration.seesLoopWord then
    forEachRest grammar awaits start
  else
    forLoopRest grammar awaits (some start)

/-- Variables declared in the head of a loop. Only those of a `var` leave the operator `in` to the
loop. -/
def loopVariables (grammar : Grammar) (kind : Declaration.VariableKind) : Reading Statement := do
  advance
  let parts ← inside (fun context ↦ { context with allowIn := kind != .changing })
    (Declaration.declarators grammar kind true)
  require (!(← Declaration.seesLoopWord) || parts.length == 1)
  return .variableDeclaration parts

/-- The variable of a loop that is released after each turn: a name behind `using` or `await using`
and before the word of the loop. -/
def loopResource : Reading Statement := do
  let _ ← takeWord? "await"
  expectWord "using"
  require !(← seesWord "of")
  let name ← boundName
  require (← Declaration.seesLoopWord)
  return .resourceDeclaration [.mk (.name name []) none]

/-- The word `async` as the target of a loop, where it does not begin an arrow function. It is a
fault in a loop that does not await. -/
def asyncTarget (awaits : Bool) : Reading Expression := do
  expectWord "async"
  require (!(← afterBreak) && (← seesWord "of"))
  require !(← following).token.isMark "=>"
  faultIf !awaits
  return .identifier "async"

/-- A `for` loop of any kind. -/
def forStatement (grammar : Grammar) : Reading Statement := do
  expectWord "for"
  let awaits ← takeWord? "await"
  expect "("
  match ← Declaration.variableKind? with
  | some kind => forRest grammar awaits (← loopVariables grammar kind)
  | none =>
      if ← sees ";" then
        forLoopRest grammar awaits none
      else
        match ← attempt loopResource with
        | some start => forRest grammar awaits start
        | none =>
            match ← attempt (asyncTarget awaits) with
            | some target => forEachRest grammar awaits (.evaluate target)
            | none =>
                let start ← inside (fun context ↦ { context with allowIn := false })
                  grammar.expression
                forRest grammar awaits (.evaluate start)

/-- A loop that tests before its body. -/
def whileStatement (grammar : Grammar) : Reading Statement := do
  expectWord "while"
  let test ← parenthesized grammar
  return .whileLoop test (← loopBody grammar)

/-- A loop that tests behind its body. -/
def doStatement (grammar : Grammar) : Reading Statement := do
  expectWord "do"
  let body ← loopBody grammar
  expectWord "while"
  let test ← parenthesized grammar
  let _ ← take? ";"
  return .doLoop body test

/-! ### Choices -/

/-- A conditional statement. -/
def ifStatement (grammar : Grammar) : Reading Statement := do
  expectWord "if"
  let test ← parenthesized grammar
  let consequent ← grammar.statement false
  let alternate ←
    if ← takeWord? "else" then some <$> grammar.statement false else pure none
  return .branch test consequent alternate

/-- Whether a case is the default one. -/
def isDefault : SwitchCase → Bool
  | .mk none _ => true
  | .mk (some _) _ => false

/-- One case of a switch. -/
def switchCase (grammar : Grammar) : Reading SwitchCase := do
  let test ←
    if ← takeWord? "default" then
      pure none
    else
      expectWord "case"
      some <$> grammar.expression
  expect ":"
  let body ← many (do
    if (← seesWord "case") || (← seesWord "default") || (← sees closeBrace) then
      return none
    else
      return some (← grammar.statement true))
  return .mk test body

/-- A switch, which has at most one default case. -/
def switchStatement (grammar : Grammar) : Reading Statement := do
  expectWord "switch"
  let subject ← parenthesized grammar
  expect openBrace
  let cases ← inside (fun context ↦ { context with breakable := true }) (many (do
    if ← take? closeBrace then
      return none
    else
      return some (← switchCase grammar)))
  require ((cases.filter isDefault).length ≤ 1)
  return .switch subject cases

/-! ### Jumps -/

/-- A value that a function returns. -/
def returnStatement (grammar : Grammar) : Reading Statement := do
  expectWord "return"
  faultIf (!(← read).inFunction)
  if ← takeSemicolon? then
    return .empty
  let value ← grammar.expression
  semicolon
  return .evaluate value

/-- A thrown value, which has to stand on the line of the keyword. -/
def throwStatement (grammar : Grammar) : Reading Statement := do
  expectWord "throw"
  require !(← afterBreak)
  let value ← grammar.expression
  semicolon
  return .evaluate value

/-- A jump out of or to the next turn of a loop. -/
def jump (leaves : Bool) : Reading Statement := do
  advance
  let context ← read
  let label ←
    if (← currentToken).isName && !(← afterBreak) then some <$> plainName else pure none
  semicolon
  let known := label.all context.labels.contains
  if leaves then
    faultIf (if label.isSome then !known else !context.breakable)
  else
    faultIf (!context.continuable || !known)
  return .empty

/-! ### Other statements -/

/-- What is done when a `try` fails: the parameter and the statements. -/
def handler? (grammar : Grammar) : Reading (Option (Option Pattern × List Statement)) := do
  if ← takeWord? "catch" then
    let parameter ←
      if ← take? "(" then
        let plain ← grammar.target
        let typing ← Typing.colonType? grammar
        expect ")"
        pure (some (Binding.annotate typing plain))
      else
        pure none
    return some (parameter, ← Definition.block grammar)
  else
    return none

/-- Statements with a handler, a final part, or both. -/
def tryStatement (grammar : Grammar) : Reading Statement := do
  expectWord "try"
  let body ← Definition.block grammar
  let handler ← handler? grammar
  let finalizer ←
    if ← takeWord? "finally" then some <$> Definition.block grammar else pure none
  faultIf (handler.isNone && finalizer.isNone)
  let (parameter, handling) := handler.getD (none, [])
  return .attempt body parameter handling (finalizer.getD [])

/-- A statement within the scope of an object, which modules may not have. It is read as if it stood
in a function. -/
def withStatement (grammar : Grammar) : Reading Statement := do
  expectWord "with"
  fault
  let subject ← parenthesized grammar
  let body ← inside (fun context ↦ { context with inFunction := true })
    (grammar.statement false)
  return .within subject body

/-- A statement with a label. Every label of the same name around it is a fault. -/
def labelled (grammar : Grammar) (name : String) : Reading Statement := do
  advance
  expect ":"
  addFaults ((← read).labels.count name)
  let body ← inside (fun context ↦ { context with labels := name :: context.labels })
    (grammar.statement false)
  return .labelled body

/-- A statement that evaluates an expression. Behind one that begins with an import nothing has to
show that it ends. -/
def evaluation (grammar : Grammar) : Reading Statement := do
  let imports ← seesWord "import"
  let value ← grammar.expression
  let ended ← takeSemicolon?
  require (ended || imports)
  return .evaluate value

/-- The statement that begins with this keyword. -/
def keyworded? (grammar : Grammar) (name : String) : Option (Reading Statement) :=
  if name == "if" then some (ifStatement grammar)
  else if name == "return" then some (returnStatement grammar)
  else if name == "for" then some (forStatement grammar)
  else if name == "while" then some (whileStatement grammar)
  else if name == "do" then some (doStatement grammar)
  else if name == "switch" then some (switchStatement grammar)
  else if name == "throw" then some (throwStatement grammar)
  else if name == "try" then some (tryStatement grammar)
  else if name == "break" then some (jump true)
  else if name == "continue" then some (jump false)
  else if name == "with" then some (withStatement grammar)
  else if name == "debugger" then some (do advance; semicolon; return .empty)
  else none

/-- A declaration, if one begins here. Where declarations may not stand, a function or a class is a
fault, and variables are declared by `var` alone. -/
def declaration? (grammar : Grammar) (declarations : Bool) (marks : List Expression) :
    Reading (Option Statement) := do
  if ← Declaration.seesConstantEnumeration then
    some <$> Declaration.constantEnumeration grammar
  else if ← seesWord "function" then
    faultIf (!declarations)
    some <$> Declaration.function grammar false marks
  else if ← seesWord "class" then
    faultIf (!declarations)
    some <$> Declaration.classStatement grammar marks
  else if ← Declaration.seesAsyncFunction then
    advance
    some <$> Declaration.function grammar true marks
  else if declarations || (← seesWord "var") then
    match ← Declaration.variableKind?, ← Declaration.resourceWords? with
    | some kind, _ => some <$> Declaration.variableStatement grammar kind
    | none, some words => some <$> Declaration.resourceStatement grammar words
    | none, none => Declaration.ordinary? grammar marks
  else
    Declaration.ordinary? grammar marks

/-- A labelled statement or an expression that begins with this word. -/
def plain (grammar : Grammar) (name : String) : Reading Statement := do
  let isLabel := !reservedWords.contains name && name != "await" && name != "yield"
  if isLabel && (← following).token.isMark ":" then
    labelled grammar name
  else
    evaluation grammar

/-- A statement behind its decorators. -/
def decorated (grammar : Grammar) (declarations : Bool) (marks : List Expression) :
    Reading Statement := do
  match ← currentToken with
  | .mark symbol =>
      if symbol == openBrace then
        return .block (← Definition.block grammar)
      else if symbol == ";" then
        advance
        return .empty
      else
        evaluation grammar
  | .word name false =>
      match keyworded? grammar name with
      | some reading => reading
      | none =>
          match ← declaration? grammar declarations marks with
          | some found => return found
          | none => plain grammar name
  | _ => evaluation grammar

/-- A statement. -/
def statement (grammar : Grammar) (declarations : Bool) : Reading Statement := do
  let marks ← Binding.decorators grammar
  decorated grammar declarations marks

end ComponentGraph.Source.Flow
