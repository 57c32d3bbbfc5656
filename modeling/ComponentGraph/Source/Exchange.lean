import ComponentGraph.Source.Flow

/-!
Imports and exports. An import tells the names that it brings into the module; an export only
matters for the declaration or the expression that it holds, and for its attributes.
-/

set_option autoImplicit false
set_option relaxedAutoImplicit false

namespace ComponentGraph.Source.Exchange

/-! ### Names and sources -/

/-- A name in a list of names: a word, or a quoted text; the last part tells which. -/
def listedName : Reading (String × Bool) := do
  match ← currentToken with
  | .word name _ => advance; return (name, true)
  | .text value => advance; return (value.getD "", false)
  | _ => failure

/-- The source of an import behind `from`. -/
def fromSource : Reading (Option String) := do
  expectWord "from"
  match ← currentToken with
  | .text value => advance; return value
  | _ => failure

/-- Attributes of an import, an object behind `with` or `assert` on the same line. -/
def importAttributes (grammar : Grammar) : Reading Unit := do
  if ((← seesWord "with") || (← seesWord "assert")) && !(← afterBreak) then
    advance
    let _ ← grammar.object

/-- Attributes of an export, which count; `with` may also begin a line. -/
def exportAttributes (grammar : Grammar) : Reading Statement := do
  if (← seesWord "with") || ((← seesWord "assert") && !(← afterBreak)) then
    advance
    return .evaluate (← grammar.object)
  else
    return .empty

/-! ### Import lists -/

/-- The local name of an item behind `type`. The words `type` and `as` may themselves be names:
`type as` imports `as`, `type as as` renames `type`, and `type as as X` renames `as`. -/
def typeItem : Reading String := do
  let (first, isWord) ← listedName
  if isWord && first == "as" then
    if (← currentToken).isAnyWord then
      let second ← boundName
      if second == "as" && (← currentToken).isAnyWord then boundName else return second
    else
      return "as"
  else if ← takeWord? "as" then
    boundName
  else
    require isWord
    return first

/-- The local name of one item of an import list. A quoted name needs another one. -/
def importItem : Reading String := do
  let (name, isWord) ← listedName
  let next ← currentToken
  if isWord && name == "type" && (next.isAnyWord || next.isText) then
    typeItem
  else if ← takeWord? "as" then
    boundName
  else
    require isWord
    return name

/-- The bindings of an import behind its default name: everything under one name, a list, or
none. -/
def listedBindings : Reading (List ImportBinding) := do
  if ← take? "*" then
    expectWord "as"
    return [.everything (← boundName)]
  else if ← take? openBrace then
    return (← commaList closeBrace importItem).map .named
  else
    return []

/-! ### Import declarations -/

/-- A name for a part of a namespace or for a required module, behind the equals sign. -/
def importedAlias : Reading Statement := do
  expect "="
  if ← seesWordBefore "require" (·.token.isMark "(") then
    advance
    advance
    require (← currentToken).isText
    advance
    expect ")"
  else
    Typing.dottedName
  semicolon
  return .empty

/-- Whether the current word describes the import and is not itself the imported name: one of these
marks follows it, or a name. -/
def describesImport (name : String) (marks : List String) : Reading Bool := do
  if !(← seesWord name) then
    return false
  let next ← following
  match next.token with
  | .mark symbol => return marks.contains symbol
  | .word word _ =>
      let last := (Lexeme.read next.rest).token
      return word != "from" || last.isWord "from" || last.isMark "="
  | _ => return false

/-- Passes the word that describes the import, if there is one. Of a deferred module there is only
everything, and a source is a single name. -/
def passDescription : Reading Unit := do
  if (← describesImport "type" [openBrace, "*"]) || (← describesImport "defer" ["*"]) ||
      (← describesImport "source" []) then
    advance

/-- The source of an import with these bindings, and what follows it. -/
def importEnd (grammar : Grammar) (bindings : List ImportBinding) : Reading Statement := do
  let source ← fromSource
  importAttributes grammar
  semicolon
  return .importDeclaration ⟨source, bindings⟩

/-- An import declaration whose keyword was passed. -/
def importRest (grammar : Grammar) : Reading Statement := do
  match ← currentToken with
  | .text source =>
      advance
      importAttributes grammar
      semicolon
      return .importDeclaration ⟨source, []⟩
  | _ =>
      passDescription
      if (← currentToken).isReference then
        let name ← boundName
        if ← sees "=" then
          importedAlias
        else
          if !(← seesWord "from") then
            expect ","
          importEnd grammar (.default name :: (← listedBindings))
      else
        importEnd grammar (← listedBindings)

/-! ### Export lists -/

/-- Passes the new name of an item behind `as`, if it gets one. -/
def newName? : Reading Unit := do
  if ← takeWord? "as" then
    let _ ← listedName

/-- An item behind `type`. As in an import, the words `type` and `as` may themselves be names. -/
def typeExport : Reading Unit := do
  let (first, isWord) ← listedName
  if isWord && first == "as" then
    if (← currentToken).isAnyWord then
      let second ← anyWord
      if second == "as" && (← currentToken).isAnyWord then
        let _ ← anyWord
  else
    newName?

/-- One item of an export list. -/
def exportItem : Reading Unit := do
  let (name, isWord) ← listedName
  let next ← currentToken
  if isWord && name == "type" && (next.isAnyWord || next.isText) then typeExport else newName?

/-- The source of an export and its attributes. -/
def exportSource (grammar : Grammar) : Reading Statement := do
  let _ ← fromSource
  let attributes ← exportAttributes grammar
  semicolon
  return attributes

/-- An export list in braces, with the source if the names come from another module; without one,
nothing has to show that it ends. Or everything of another module. -/
def exportList (grammar : Grammar) : Reading Statement := do
  if ← take? "*" then
    newName?
    exportSource grammar
  else
    expect openBrace
    let _ ← commaList closeBrace exportItem
    if ← seesWord "from" then
      exportSource grammar
    else
      let _ ← takeSemicolon?
      return .empty

/-! ### Export declarations -/

/-- The decorators of an export, before or behind its keyword but not in both places. -/
def exportDecorators (grammar : Grammar) (marks : List Expression) :
    Reading (List Expression) := do
  if ← sees "@" then
    require marks.isEmpty
    Binding.decorators grammar
  else
    return marks

/-- A function with or without a name as the default export. A named one counts as declared. -/
def defaultFunction (grammar : Grammar) (isAsync : Bool) (marks : List Expression) :
    Reading Statement := do
  expectWord "function"
  let isGenerator ← take? "*"
  if (← currentToken).isAnyWord then
    let name ← boundName
    return .functionDeclaration name (← Definition.function grammar isAsync isGenerator marks)
  else
    let definition ← Definition.function grammar isAsync isGenerator marks
    return .evaluate (.functionValue definition)

/-- A class with or without a name as the default export. -/
def defaultClass (grammar : Grammar) (marks : List Expression) : Reading Statement := do
  expectWord "class"
  let _ ← Definition.className?
  return .classDeclaration (← Definition.classRest grammar marks)

/-- The default export behind its two keywords, with the decorators before them. -/
def exportDefault (grammar : Grammar) (outer : List Expression) : Reading Statement := do
  let marks ← exportDecorators grammar outer
  if ← seesWordBefore "abstract" (fun next ↦ next.token.isWord "class" && !next.afterBreak) then
    advance
    defaultClass grammar marks
  else if ← takeWord? "interface" then
    Declaration.interface grammar
  else if ← seesWord "class" then
    defaultClass grammar marks
  else if ← Declaration.seesAsyncFunction then
    advance
    defaultFunction grammar true marks
  else if ← seesWord "function" then
    defaultFunction grammar false marks
  else
    let value ← grammar.assignment
    semicolon
    return .evaluate value

/-- An exported class, function, enumeration or variable, if one begins here. -/
def exportedDeclaration? (grammar : Grammar) (marks : List Expression) :
    Reading (Option Statement) := do
  if ← seesWord "class" then
    some <$> Declaration.classStatement grammar marks
  else if ← Declaration.seesAsyncFunction then
    advance
    some <$> Declaration.function grammar true marks
  else if ← seesWord "function" then
    some <$> Declaration.function grammar false marks
  else if ← Declaration.seesConstantEnumeration then
    some <$> Declaration.constantEnumeration grammar
  else
    match ← Declaration.variableKind? with
    | some kind => some <$> Declaration.variableStatement grammar kind
    | none => return none

/-- An export that declares nothing with an ordinary word. -/
def plainExport (grammar : Grammar) (outer : List Expression) : Reading Statement := do
  if ← takeWord? "import" then
    if ← seesWordBefore "type" (·.token.isReference) then
      advance
    let _ ← anyWord
    importedAlias
  else if ← take? "=" then
    let value ← grammar.expression
    semicolon
    return .evaluate value
  else if ← takeWord? "as" then
    expectWord "namespace"
    let _ ← boundName
    semicolon
    return .empty
  else if ← takeWord? "default" then
    exportDefault grammar outer
  else if ← takeWord? "type" then
    exportList grammar
  else
    let marks ← exportDecorators grammar outer
    match ← exportedDeclaration? grammar marks with
    | some found => return found
    | none => exportList grammar

/-- The declaration that an export holds, if it begins with an ordinary word. -/
def exportedWord? (grammar : Grammar) (marks : List Expression) : Reading (Option Statement) := do
  return (← attempt (Declaration.declared? grammar marks)).join

/-- An export whose keyword was passed, with the decorators that stood before it. -/
def exportRest (grammar : Grammar) (marks : List Expression) : Reading Statement := do
  if ← takeWord? "declare" then
    if let some found ← Declaration.ambient? grammar marks then
      return found
  match ← exportedWord? grammar marks with
  | some found => return found
  | none => plainExport grammar marks

/-! ### Items -/

/-- An item of a module or a namespace: an import, an export or a statement, with the decorators
before it. -/
def item (grammar : Grammar) : Reading Statement := do
  let marks ← Binding.decorators grammar
  if ← seesWordBefore "import" (!·.token.isOneOf ["(", "."]) then
    advance
    importRest grammar
  else if ← takeWord? "export" then
    exportRest grammar marks
  else
    Flow.decorated grammar true marks

end ComponentGraph.Source.Exchange
