/-!
The tree of a source module, as far as the graph needs it. Every construct that can hold a
declaration, an import or an element is kept in its place; literals, operators and names of
properties are not told apart. A type contributes only the expressions that stand in it, the
computed keys of its members and what stands in the parameters of its signatures, so the typing of a
construct is a list of expressions.
-/

set_option autoImplicit false
set_option relaxedAutoImplicit false

namespace ComponentGraph.Source

/-- The name of an element: one plain name, a path such as `ui.Button`, or a name within a
namespace such as `svg:rect`. -/
inductive Tag where
  | plain (name : String)
  | path (root : String) (names : List String)
  | qualified (space name : String)
  deriving Repr, DecidableEq

/-- A name that an import brings into the module. -/
inductive ImportBinding where
  | default (name : String)
  | named (name : String)
  | everything (name : String)
  deriving Repr, DecidableEq

/-- An import declaration. The source is absent if the text of its string is not well formed. -/
structure Import where
  source : Option String
  bindings : List ImportBinding
  deriving Repr, DecidableEq

mutual

/-- An expression. -/
inductive Expression where
  /-- A literal or a fixed word: nothing stands inside it. -/
  | literal
  | identifier (name : String)
  /-- An operator, a call or another form that holds its operands in the order given. -/
  | combined (operands : List Expression)
  /-- A property of a value, computed by the second expression if there is one. -/
  | member (subject : Expression) (index : Option Expression)
  /-- An access or a call that is skipped where its first operand has no value. -/
  | optional (operands : List Expression)
  /-- A value with a type or types stated for it. -/
  | typed (value : Expression) (typing : List Expression)
  /-- A signature in a type, with the expressions in its result and its bounds. -/
  | signature (parameters : List Pattern) (typing : List Expression)
  | parenthesized (inner : Expression)
  | array (items : List Expression)
  | object (members : List ObjectMember)
  | template (holes : List Expression)
  | assignment (target value : Expression)
  | functionValue (definition : Function)
  | arrow (parameters : List Pattern) (body : List Statement) (typing : List Expression)
  | classValue (definition : Class)
  /-- An element with its attribute values and children, both in the order of the text. -/
  | element (tag : Tag) (attributes children : List Expression)
  | fragment (children : List Expression)

/-- A member of an object literal. A key counts only if it is computed. -/
inductive ObjectMember where
  | property (key : Option Expression) (value : Expression)
  /-- A name alone. In a pattern it may have a value to fall back to. -/
  | shorthand (name : String) (fallback : Option Expression)
  | method (key : Option Expression) (definition : Function)
  | getter (key : Option Expression) (typing : List Expression) (body : List Statement)
  | setter (key : Option Expression) (parameters : List Pattern) (body : List Statement)
  | spread (value : Expression)

/-- The target of a binding, such as a parameter or the left side of a declarator. -/
inductive Pattern where
  | name (name : String) (typing : List Expression)
  | array (items : List Pattern) (typing : List Expression)
  | object (fields : List PatternField) (typing : List Expression)
  | fallback (target : Pattern) (value : Expression)
  | rest (target : Pattern) (typing : List Expression)
  | decorated (decorators : List Expression) (target : Pattern)

/-- A field of an object pattern. -/
inductive PatternField where
  | keyed (key : Option Expression) (target : Pattern)
  | short (fallback : Option Expression)
  | rest (target : Pattern)

/-- Parameters, decorators and body of a function; a signature has no body. -/
inductive Function where
  | mk (parameters : List Pattern) (decorators : List Expression)
      (body : Option (List Statement)) (typing : List Expression)

/-- A class with its decorators, members and the expression that it extends. -/
inductive Class where
  | mk (decorators : List Expression) (members : List ClassMember) (parent : Option Expression)
      (typing : List Expression)

/-- A member of a class. A key counts only if it is computed. -/
inductive ClassMember where
  | constructor (definition : Function)
  | method (key : Option Expression) (definition : Function)
  | field (key value : Option Expression) (typing decorators : List Expression)
  | initializer (body : List Statement)
  | signature (typing : List Expression)

/-- One part of a variable declaration: its target and its initial value. -/
inductive Declarator where
  | mk (target : Pattern) (value : Option Expression)

/-- One case of a switch; the default case has no test. -/
inductive SwitchCase where
  | mk (test : Option Expression) (body : List Statement)

/-- A statement or another item of a module. -/
inductive Statement where
  /-- A statement without parts, such as `break` or `debugger`. -/
  | empty
  | evaluate (value : Expression)
  | block (body : List Statement)
  | branch (test : Expression) (consequent : Statement) (alternate : Option Statement)
  | whileLoop (test : Expression) (body : Statement)
  | doLoop (body : Statement) (test : Expression)
  | forLoop (start : Option Statement) (test update : Option Expression) (body : Statement)
  | forEach (target : Statement) (subject : Expression) (body : Statement)
  | switch (subject : Expression) (cases : List SwitchCase)
  | attempt (body : List Statement) (parameter : Option Pattern)
      (handler finalizer : List Statement)
  | labelled (body : Statement)
  | within (subject : Expression) (body : Statement)
  | variableDeclaration (declarators : List Declarator)
  /-- Variables that are released at the end of their block; they declare nothing. -/
  | resourceDeclaration (declarators : List Declarator)
  | functionDeclaration (name : String) (definition : Function)
  | classDeclaration (definition : Class)
  | importDeclaration (declaration : Import)
  /-- A type, an interface or an enumeration with the expressions that stand in it. -/
  | typeDeclaration (expressions : List Expression)
  | namespaceDeclaration (body : List Statement)

end

/-- A source module: its items in the order of the text. -/
structure Module where
  items : List Statement

end ComponentGraph.Source
