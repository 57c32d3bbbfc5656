import ComponentGraph.Source.Operand

/-!
Operators, conditional expressions and assignments. Operators between operands are read by rank: an
operand takes the operators behind it as long as they bind more tightly than the one before it.
-/

set_option autoImplicit false
set_option relaxedAutoImplicit false

namespace ComponentGraph.Source.Operation

/-! ### Targets of assignments -/

/-- Whether a value can be assigned to the expression as it stands. -/
def isSimple : Expression → Bool
  | .identifier name => name != "eval" && name != "arguments"
  | .member _ _ => true
  | .parenthesized inner => isSimple inner
  | .typed value _ => isSimple value
  | _ => false

mutual

/-- Whether an expression that is read as a pattern holds a method, which cannot be assigned to. -/
def holdsMethod : Expression → Bool
  | .array items => anyHoldsMethod items
  | .object members => anyIsMethod members
  | .assignment target _ => holdsMethod target
  | _ => false

/-- Whether one of the expressions that are read as patterns holds a method. -/
def anyHoldsMethod : List Expression → Bool
  | [] => false
  | first :: later => holdsMethod first || anyHoldsMethod later

/-- Whether a member of an object that is read as a pattern is or holds a method. -/
def isMethod : ObjectMember → Bool
  | .property _ value => holdsMethod value
  | .shorthand _ _ => false
  | .spread value => holdsMethod value
  | .method _ _ => true
  | .getter _ _ _ => true
  | .setter _ _ _ => true

/-- Whether one of the members of an object that is read as a pattern is or holds a method. -/
def anyIsMethod : List ObjectMember → Bool
  | [] => false
  | first :: later => isMethod first || anyIsMethod later

end

/-- Whether an expression may stand left of an assignment: patterns only left of a plain one. -/
def mayAssign (operator : String) : Expression → Bool
  | .identifier _ => true
  | .member _ _ => true
  | .optional _ => true
  | .parenthesized _ => true
  | .typed _ _ => true
  | .array items => operator == "=" && !anyHoldsMethod items
  | .object members => operator == "=" && !anyIsMethod members
  | _ => false

/-- Whether an expression is read as a pattern left of a plain assignment. -/
def isPattern : Expression → Bool
  | .array _ => true
  | .object _ => true
  | _ => false

/-! ### Operators before and behind an operand -/

/-- How an expression is held together, as far as the operators next to it ask. -/
inductive Bond where
  /-- By nothing that matters. -/
  | loose
  /-- By an operator before its only operand. -/
  | leading
  /-- By `&&` or `||`. -/
  | logical
  /-- By `??`. -/
  | nullish
  deriving DecidableEq

/-- An expression and how it is held together. -/
structure Joined where
  value : Expression
  bond : Bond

/-- An awaited value. It is a fault in a function that is not asynchronous, and among parameters. -/
def awaited (grammar : Grammar) : Reading Joined := do
  expectWord "await"
  let context ← read
  if !context.inAsync && (← seesOneOf [")", "]"]) then
    fault
    return ⟨.identifier "await", .loose⟩
  faultIf ((context.inFunction && !context.inAsync) || context.inParameters)
  return ⟨.combined [← grammar.unary], .leading⟩

/-- Marks that stand before an operand. -/
def leadingMarks : List String := ["!", "~", "+", "-"]

/-- Words that stand before an operand. What is deleted may be a plain name, without a fault. -/
def leadingWords : List String := ["delete", "typeof", "void"]

/-- A value cast to a type in angle brackets before it. -/
def cast (grammar : Grammar) : Reading Expression := do
  expect "<"
  let types ← if ← takeWord? "const" then pure [] else grammar.type
  expect ">"
  let value ← grammar.unary
  return .typed value types

/-- An operand that may be counted up or down behind it. -/
def counted (grammar : Grammar) (opens : Bool) : Reading Expression := do
  let operand ← Operand.operand grammar opens
  if !Operand.isArrow operand && (← seesOneOf ["++", "--"]) && !(← afterBreak) then
    faultIf (!isSimple operand)
    advance
    return .combined [operand]
  else
    return operand

/-- An operand with the operators before and behind it; it may be an arrow function where one
`opens`. -/
def prefixed (grammar : Grammar) (opens : Bool) : Reading Joined := do
  let token ← currentToken
  if token.isOneOf leadingMarks then
    advance
    return ⟨.combined [← grammar.unary], .leading⟩
  else if token.isOneOf ["++", "--"] then
    advance
    let operand ← grammar.unary
    faultIf (!isSimple operand)
    return ⟨.combined [operand], .loose⟩
  else if token.isMark "<" then
    if (← read).markup then
      return ⟨← Markup.rooted grammar, .loose⟩
    else
      return ⟨← cast grammar, .loose⟩
  else
    match token with
    | .word name false =>
        if leadingWords.contains name then
          advance
          return ⟨.combined [← grammar.unary], .leading⟩
        else if name == "await" then
          awaited grammar
        else
          return ⟨← counted grammar opens, .loose⟩
    | _ => return ⟨← counted grammar opens, .loose⟩

/-- An operand with its leading operators. -/
def unary (grammar : Grammar) : Reading Expression := do
  return (← prefixed grammar false).value

/-! ### Operators between operands -/

/-- The operator that begins with `>`, given the text behind that mark, and the text behind the
operator. -/
def angleOperator : List Char → String × List Char
  | '>' :: '>' :: '=' :: rest => (">>>=", rest)
  | '>' :: '>' :: rest => (">>>", rest)
  | '>' :: '=' :: rest => (">>=", rest)
  | '>' :: rest => (">>", rest)
  | '=' :: rest => (">=", rest)
  | rest => (">", rest)

/-- The operator at the cursor; words between operands count as operators. -/
def currentOperator : Reading String := do
  let cursor ← get
  match cursor.token with
  | .mark symbol => return if symbol == ">" then (angleOperator cursor.rest).1 else symbol
  | .word name false => return if name == "in" || name == "instanceof" then name else ""
  | _ => return ""

/-- Passes the operator at the cursor. -/
def passOperator : Reading Unit := do
  let cursor ← get
  if cursor.token.isMark ">" then
    setRawText (angleOperator cursor.rest).2
  advance

/-- How tightly an operator between two operands binds; nothing if it is none. -/
def rank? (operator : String) : Option Nat :=
  if ["??", "||"].contains operator then some 1
  else if operator == "&&" then some 2
  else if operator == "|" then some 3
  else if operator == "^" then some 4
  else if operator == "&" then some 5
  else if ["==", "!=", "===", "!=="].contains operator then some 6
  else if ["<", ">", "<=", ">=", "instanceof", "in"].contains operator then some 7
  else if ["<<", ">>", ">>>"].contains operator then some 8
  else if ["+", "-"].contains operator then some 9
  else if ["*", "/", "%"].contains operator then some 10
  else if operator == "**" then some 11
  else none

/-- The rank of a type stated behind `as`. -/
def typeRank : Nat := 7

/-- How two operands are held together by an operator. -/
def bondOf (operator : String) : Bond :=
  if operator == "??" then .nullish
  else if operator == "&&" || operator == "||" then .logical
  else .loose

/-- Whether `??` stands next to another logical operator without parentheses. -/
def mixesLogic (left operator right : Bond) : Bool :=
  match operator with
  | .nullish => left == .logical || right == .logical
  | .logical => left == .nullish
  | _ => false

/-- The type behind `as` or `satisfies` on the same line, if one is stated there. Behind an operator
that binds at least as tightly as `as` only `satisfies` belongs to the operand. -/
def statedType? (grammar : Grammar) (minimum : Nat) : Reading (Option (List Expression)) := do
  let stated := (minimum < typeRank && (← seesWord "as")) || (← seesWord "satisfies")
  if stated && !(← afterBreak) then
    let isConstant ← seesWordBefore "as" (·.token.isWord "const")
    advance
    if isConstant then
      advance
      return some []
    else
      return some (← grammar.type)
  else
    return none

/-- The operator at the cursor if it binds more tightly than the minimum, with its rank. The
operator `in` may be kept for the head of a loop. -/
def tighterOperator? (minimum : Nat) : Reading (Option (String × Nat)) := do
  let operator ← currentOperator
  match rank? operator with
  | none => return none
  | some rank =>
      if rank ≤ minimum || (operator == "in" && !(← read).allowIn) then
        return none
      else
        return some (operator, rank)

/-- Extends an operand by the operators behind it that bind more tightly than the minimum. A power
nests to the right, and its base must not have an operator before it. -/
def extend (grammar : Grammar) : Nat → Nat → Joined → Reading Joined
  | 0, _, _ => failure
  | fuel + 1, minimum, left => do
      match ← statedType? grammar minimum with
      | some types => extend grammar fuel minimum ⟨.typed left.value types, .loose⟩
      | none =>
          match ← tighterOperator? minimum with
          | none => return left
          | some (operator, rank) =>
              require (operator != "**" || left.bond != .leading)
              passOperator
              let operand ← prefixed grammar false
              let right ← extend grammar fuel (if operator == "**" then rank - 1 else rank) operand
              faultIf (mixesLogic left.bond (bondOf operator) right.bond)
              extend grammar fuel minimum
                ⟨.combined [left.value, right.value], bondOf operator⟩

/-- Operands joined by operators. -/
def binary (grammar : Grammar) : Reading Expression := do
  let first ← prefixed grammar true
  if Operand.isArrow first.value then
    return first.value
  else
    return (← extend grammar (← read).limit 0 first).value

/-- A conditional expression, or one that is none. -/
def conditional (grammar : Grammar) : Reading Expression := do
  let test ← binary grammar
  if !Operand.isArrow test && (← sees "?") then
    advance
    let consequent ← inside
      (fun context ↦ { context with allowIn := true, awaitsColon := true }) grammar.assignment
    expect ":"
    let alternate ← inside (fun context ↦ { context with awaitsColon := false })
      grammar.assignment
    return .combined [test, consequent, alternate]
  else
    return test

/-! ### Assignments -/

/-- Operators that assign. -/
def assignmentOperators : List String :=
  ["=", "+=", "-=", "*=", "/=", "%=", "**=", "<<=", ">>=", ">>>=", "&=", "|=", "^=", "&&=", "||=",
    "??="]

/-- A value that a generator yields. Its parameters are evaluated before it can yield anything. -/
def yielded (grammar : Grammar) : Reading Expression := do
  expectWord "yield"
  require !(← read).inParameters
  let cursor ← get
  let isBare := cursor.afterBreak || cursor.token == .finish ||
    cursor.token.isOneOf [";", closeBrace] ||
    !(cursor.token.isOneOf ["*", "/", "/="] || Operand.beginsExpression cursor.token)
  if isBare then
    return .literal
  let _ ← take? "*"
  return .combined [← grammar.assignment]

/-- An expression with the assignment behind it, if there is one. -/
def assigned (grammar : Grammar) (left : Expression) : Reading Expression := do
  let operator ← currentOperator
  if !Operand.isArrow left && assignmentOperators.contains operator then
    require (mayAssign operator left)
    faultIf (!isPattern left && !isSimple left)
    passOperator
    return .assignment left (← grammar.assignment)
  else
    return left

/-- One expression without commas, whose type parameters were read if it is an arrow function that
has some. -/
def plainAssignment (grammar : Grammar) : Reading Expression := do
  if (← read).inGenerator && (← seesWord "yield") then
    yielded grammar
  else
    assigned grammar (← conditional grammar)

/-- An arrow function with type parameters. Where elements may stand, the type parameters must not
look like a tag. -/
def genericArrow (grammar : Grammar) : Reading Expression := do
  let bounds ← Typing.parameterList grammar
  require !((← read).markup && Typing.resembleTag bounds)
  match ← plainAssignment grammar with
  | .arrow parameters body typing =>
      return .arrow parameters body (bounds.flatMap Typing.TypeParameter.typing ++ typing)
  | _ => failure

/-- One expression without commas. -/
def assignment (grammar : Grammar) : Reading Expression := do
  if (← sees "<") && (← following).token.isAnyWord then
    match ← attempt (genericArrow grammar) with
    | some function => return function
    | none => plainAssignment grammar
  else
    plainAssignment grammar

/-- Expressions separated by commas. -/
def expression (grammar : Grammar) : Reading Expression := do
  match ← separated "," grammar.assignment with
  | [single] => return single
  | several => return .combined several

end ComponentGraph.Source.Operation
