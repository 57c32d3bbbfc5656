import ComponentGraph.Name
import ComponentGraph.Source.Tree

/-!
What a module tells the graph, as an ordered list of events: significant names that it declares,
sources that it imports together with the significant names they bring, and significant elements
that it renders. `Module.events` walks the tree in the order of the text, with these exceptions: a
`do` loop gives its test before its body, a class its members before the expression that it
extends, a field its value before its decorators, a method its parameters before its decorators,
and what is stated about types mostly comes last. All names of one variable declaration come before
anything that stands in its patterns and values.
-/

set_option autoImplicit false
set_option relaxedAutoImplicit false

namespace ComponentGraph.Source

/-- One contribution of a module to the graph. -/
inductive Event where
  | declared (name : String)
  | imported (source : String) (names : List String)
  | rendered (name : String)
  deriving Repr, DecidableEq

/-! ### Single constructs -/

/-- A function declaration counts if its name looks like a component or a hook. -/
def functionEvents (name : String) : List Event :=
  if Name.declaresFunction name then [.declared name] else []

/-- The name that a declarator binds as a whole; a pattern binds none. -/
def Declarator.plainName? : Declarator → Option String
  | .mk (.name name _) _ => some name
  | .mk _ _ => none

/-- Every plain name of a variable declaration counts if it is significant. -/
def variableEvents (declarators : List Declarator) : List Event :=
  ((declarators.filterMap Declarator.plainName?).filter Name.isSignificant).map .declared

/-- The local name that is tracked for a binding; a namespace binding is not tracked. -/
def ImportBinding.tracked? : ImportBinding → Option String
  | .default name => some name
  | .named name => some name
  | .everything _ => none

/-- An import gives one event, unless its source is not well formed. -/
def Import.events (declaration : Import) : List Event :=
  match declaration.source with
  | none => []
  | some source =>
      [.imported source
        ((declaration.bindings.filterMap ImportBinding.tracked?).filter Name.isSignificant)]

/-- An element counts if its tag is one plain, significant name that begins with upper case. -/
def Tag.events : Tag → List Event
  | .plain name =>
      if Name.startsUppercase name && Name.isSignificant name then [.rendered name] else []
  | .path _ _ => []
  | .qualified _ _ => []

/-! ### The walk -/

mutual

/-- The events of an expression. -/
def Expression.events : Expression → List Event
  | .literal => []
  | .identifier _ => []
  | .combined operands => expressionEvents operands
  | .member subject none => subject.events
  | .member subject (some index) => subject.events ++ index.events
  | .optional operands => expressionEvents operands
  | .typed value typing => value.events ++ expressionEvents typing
  | .signature parameters typing => patternEvents parameters ++ expressionEvents typing
  | .parenthesized inner => inner.events
  | .array items => expressionEvents items
  | .object members => memberEvents members
  | .template holes => expressionEvents holes
  | .assignment target value => target.events ++ value.events
  | .functionValue definition => definition.events
  | .arrow parameters body typing =>
      patternEvents parameters ++ statementEvents body ++ expressionEvents typing
  | .classValue definition => definition.events
  | .element tag attributes children =>
      tag.events ++ expressionEvents attributes ++ expressionEvents children
  | .fragment children => expressionEvents children

/-- The events of expressions, one after the other. -/
def expressionEvents : List Expression → List Event
  | [] => []
  | first :: later => first.events ++ expressionEvents later

/-- The events of a member of an object. -/
def ObjectMember.events : ObjectMember → List Event
  | .property none value => value.events
  | .property (some key) value => key.events ++ value.events
  | .shorthand _ fallback => optionalEvents fallback
  | .method none definition => definition.events
  | .method (some key) definition => key.events ++ definition.events
  | .getter key typing body =>
      optionalEvents key ++ expressionEvents typing ++ statementEvents body
  | .setter key parameters body =>
      optionalEvents key ++ patternEvents parameters ++ statementEvents body
  | .spread value => value.events

/-- The events of the members of an object. -/
def memberEvents : List ObjectMember → List Event
  | [] => []
  | first :: later => first.events ++ memberEvents later

/-- The events of a binding target. -/
def Pattern.events : Pattern → List Event
  | .name _ typing => expressionEvents typing
  | .array items typing => patternEvents items ++ expressionEvents typing
  | .object fields typing => fieldEvents fields ++ expressionEvents typing
  | .fallback target value => target.events ++ value.events
  | .rest target typing => target.events ++ expressionEvents typing
  | .decorated decorators target => expressionEvents decorators ++ target.events

/-- The events of binding targets. -/
def patternEvents : List Pattern → List Event
  | [] => []
  | first :: later => first.events ++ patternEvents later

/-- The events of a field of an object pattern. -/
def PatternField.events : PatternField → List Event
  | .keyed none target => target.events
  | .keyed (some key) target => key.events ++ target.events
  | .short none => []
  | .short (some fallback) => fallback.events
  | .rest target => target.events

/-- The events of the fields of an object pattern. -/
def fieldEvents : List PatternField → List Event
  | [] => []
  | first :: later => first.events ++ fieldEvents later

/-- The events of a function: parameters, decorators, body. -/
def Function.events : Function → List Event
  | .mk parameters decorators none typing =>
      patternEvents parameters ++ expressionEvents decorators ++ expressionEvents typing
  | .mk parameters decorators (some body) typing =>
      patternEvents parameters ++ expressionEvents decorators ++ statementEvents body ++
        expressionEvents typing

/-- The events of a class: decorators, members, the expression that it extends. -/
def Class.events : Class → List Event
  | .mk decorators members none typing =>
      expressionEvents decorators ++ classMemberEvents members ++ expressionEvents typing
  | .mk decorators members (some parent) typing =>
      expressionEvents decorators ++ classMemberEvents members ++ parent.events ++
        expressionEvents typing

/-- The events of a member of a class. -/
def ClassMember.events : ClassMember → List Event
  | .constructor definition => definition.events
  | .method none definition => definition.events
  | .method (some key) definition => key.events ++ definition.events
  | .field none none typing decorators =>
      expressionEvents typing ++ expressionEvents decorators
  | .field none (some value) typing decorators =>
      value.events ++ expressionEvents typing ++ expressionEvents decorators
  | .field (some key) none typing decorators =>
      key.events ++ expressionEvents typing ++ expressionEvents decorators
  | .field (some key) (some value) typing decorators =>
      key.events ++ value.events ++ expressionEvents typing ++ expressionEvents decorators
  | .initializer body => statementEvents body
  | .signature typing => expressionEvents typing

/-- The events of the members of a class. -/
def classMemberEvents : List ClassMember → List Event
  | [] => []
  | first :: later => first.events ++ classMemberEvents later

/-- The events that stand in a declarator: those of its target, then those of its value. -/
def Declarator.events : Declarator → List Event
  | .mk target none => target.events
  | .mk target (some value) => target.events ++ value.events

/-- The events that stand in declarators. -/
def declaratorEvents : List Declarator → List Event
  | [] => []
  | first :: later => first.events ++ declaratorEvents later

/-- The events of a case of a switch. -/
def SwitchCase.events : SwitchCase → List Event
  | .mk none body => statementEvents body
  | .mk (some test) body => test.events ++ statementEvents body

/-- The events of the cases of a switch. -/
def caseEvents : List SwitchCase → List Event
  | [] => []
  | first :: later => first.events ++ caseEvents later

/-- The events of an optional expression. -/
def optionalEvents : Option Expression → List Event
  | none => []
  | some value => value.events

/-- The events of a statement. -/
def Statement.events : Statement → List Event
  | .empty => []
  | .evaluate value => value.events
  | .block body => statementEvents body
  | .branch test consequent none => test.events ++ consequent.events
  | .branch test consequent (some alternate) =>
      test.events ++ consequent.events ++ alternate.events
  | .whileLoop test body => test.events ++ body.events
  | .doLoop body test => test.events ++ body.events
  | .forLoop none test update body =>
      optionalEvents test ++ optionalEvents update ++ body.events
  | .forLoop (some start) test update body =>
      start.events ++ optionalEvents test ++ optionalEvents update ++ body.events
  | .forEach target subject body => target.events ++ subject.events ++ body.events
  | .switch subject cases => subject.events ++ caseEvents cases
  | .attempt body none handler finalizer =>
      statementEvents body ++ statementEvents handler ++ statementEvents finalizer
  | .attempt body (some parameter) handler finalizer =>
      statementEvents body ++ parameter.events ++ statementEvents handler ++
        statementEvents finalizer
  | .labelled body => body.events
  | .within subject body => subject.events ++ body.events
  | .variableDeclaration declarators => variableEvents declarators ++ declaratorEvents declarators
  | .resourceDeclaration declarators => declaratorEvents declarators
  | .functionDeclaration name definition => functionEvents name ++ definition.events
  | .classDeclaration definition => definition.events
  | .importDeclaration declaration => declaration.events
  | .typeDeclaration expressions => expressionEvents expressions
  | .namespaceDeclaration body => statementEvents body

/-- The events of statements, one after the other. -/
def statementEvents : List Statement → List Event
  | [] => []
  | first :: later => first.events ++ statementEvents later

end

/-- The events of a module. -/
def Module.events (module : Module) : List Event :=
  statementEvents module.items

end ComponentGraph.Source
