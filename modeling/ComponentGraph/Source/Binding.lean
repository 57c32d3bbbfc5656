import ComponentGraph.Source.Typing

/-!
Targets of bindings: names, array patterns and object patterns, as they stand in declarations and
parameters.
-/

set_option autoImplicit false
set_option relaxedAutoImplicit false

namespace ComponentGraph.Source.Binding

/-! ### Patterns -/

/-- A value behind an equals sign, where the operator `in` may stand. -/
def value (grammar : Grammar) : Reading Expression :=
  inside (fun context ↦ { context with allowIn := true, awaitsColon := false }) grammar.assignment

/-- A target with a value to fall back to, if one follows. -/
def withFallback (grammar : Grammar) (target : Pattern) : Reading Pattern := do
  if ← take? "=" then
    return .fallback target (← value grammar)
  else
    return target

/-- A target and the value that it falls back to. -/
def element (grammar : Grammar) : Reading Pattern := do
  withFallback grammar (← grammar.target)

/-- Items of an array pattern up to the closing bracket; places may be left out. -/
def arrayItems (grammar : Grammar) : Reading (List Pattern) := do
  let items ← commaList "]" (do
    if ← sees "," then
      return []
    else if ← take? "..." then
      return [.rest (← grammar.target) []]
    else
      return [← element grammar])
  return items.flatten

/-- A field of an object pattern: the rest of the object, a key with a target, or any word alone. -/
def field (grammar : Grammar) : Reading PatternField := do
  if ← take? "..." then
    return .rest (← grammar.target)
  let token ← currentToken
  let key ← Typing.key grammar
  if ← take? ":" then
    return .keyed key (← element grammar)
  require token.isAnyWord
  if ← take? "=" then
    return .short (some (← value grammar))
  else
    return .short none

/-- Whether the rest of an object is bound to a pattern, which only a name can be. -/
def bindsRestToPattern : List PatternField → Bool
  | [] => false
  | [.rest (.name _ _)] => false
  | [.rest _] => true
  | _ :: later => bindsRestToPattern later

/-- A name, an array pattern or an object pattern. -/
def target (grammar : Grammar) : Reading Pattern := do
  if ← take? "[" then
    return .array (← arrayItems grammar) []
  else if ← take? openBrace then
    let fields ← commaList closeBrace (field grammar)
    require !(bindsRestToPattern fields)
    return .object fields []
  else
    return .name (← boundName) []

/-- Puts a type on a target. -/
def annotate (typing : List Expression) : Pattern → Pattern
  | .name name _ => .name name typing
  | .array items _ => .array items typing
  | .object fields _ => .object fields typing
  | .rest target _ => .rest target typing
  | other => other

/-! ### Arguments and decorators -/

/-- Arguments of a call in parentheses; an argument may be spread. -/
def arguments (grammar : Grammar) : Reading (List Expression) := do
  expect "("
  commaList ")" (do
    let _ ← take? "..."
    value grammar)

/-- Decorators, if there are any. -/
def decorators (grammar : Grammar) : Reading (List Expression) :=
  many do
    if ← take? "@" then
      return some (← grammar.decoration)
    else
      return none

/-- A target with the decorators before it. -/
def decorate (marks : List Expression) (target : Pattern) : Pattern :=
  if marks.isEmpty then target else .decorated marks target

/-! ### Parameters -/

/-- All parameters that are left, whose three dots were passed. -/
def restParameter (grammar : Grammar) : Reading Pattern := do
  let plain ← grammar.target
  return .rest plain (← Typing.colonType? grammar)

/-- A single parameter: target, type and the value that it falls back to. A word that describes a
field has no place before it. -/
def plainParameter (grammar : Grammar) : Reading Pattern := do
  faultIf (← Typing.takeDescription?)
  let plain ← grammar.target
  let _ ← take? "?"
  let typing ← Typing.colonType? grammar
  withFallback grammar (annotate typing plain)

/-- One parameter of a function, with its decorators. -/
def parameter (grammar : Grammar) : Reading Pattern := do
  let marks ← decorators grammar
  let found ← if ← take? "..." then restParameter grammar else plainParameter grammar
  return decorate marks found

/-- Parameters in parentheses. -/
def parameters (grammar : Grammar) : Reading (List Pattern) := do
  expect "("
  commaList ")" (parameter grammar)

/-- Whether a parameter can be a field of the class as well: its target is a name, or it has a value
to fall back to. -/
def mayBeField : Pattern → Bool
  | .name _ _ => true
  | .fallback _ _ => true
  | _ => false

/-- Passes the words that make a parameter of a constructor a field of its class, and tells whether
there were any. -/
def takeFieldWords? : Reading Bool := do
  let access ← takeModifier? ["public", "protected", "private"]
  let overriding ← takeModifier? ["override"]
  let fixed ← takeModifier? ["readonly"]
  return access.isSome || overriding.isSome || fixed.isSome

/-- One parameter of a constructor, which may also be a field of the class. -/
def constructorParameter (grammar : Grammar) : Reading Pattern := do
  let marks ← decorators grammar
  if ← take? "..." then
    return decorate marks (← restParameter grammar)
  let isField ← takeFieldWords?
  let found ← plainParameter grammar
  require (!isField || mayBeField found)
  return decorate marks found

/-- Parameters of a constructor in parentheses. -/
def constructorParameters (grammar : Grammar) : Reading (List Pattern) := do
  expect "("
  commaList ")" (constructorParameter grammar)

end ComponentGraph.Source.Binding
