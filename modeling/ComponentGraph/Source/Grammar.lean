import ComponentGraph.Source.Reading
import ComponentGraph.Source.Tree

/-!
The constructs that may hold each other. The parts of the grammar are written over a `Grammar`, a
record of readings for the constructs that can stand inside one another, so each part is an ordinary
definition; the record itself is built in stages, where a stage reads nested constructs by the stage
before it.
-/

set_option autoImplicit false
set_option relaxedAutoImplicit false

namespace ComponentGraph.Source

/-- Readings for the constructs that can be nested. -/
structure Grammar where
  /-- Expressions separated by commas. -/
  expression : Reading Expression
  /-- One expression without commas. -/
  assignment : Reading Expression
  /-- An operand with its leading operators. -/
  unary : Reading Expression
  /-- An operand with its calls and accesses. -/
  operand : Reading Expression
  /-- The expression of a decorator behind its at sign. -/
  decoration : Reading Expression
  /-- What follows `new`, up to its arguments. -/
  construction : Reading Expression
  /-- An element whose opening bracket is the current token; the text behind it is left uncut. -/
  element : Reading Expression
  /-- An object literal whose opening brace is the current token. -/
  object : Reading Expression
  /-- A type, as the expressions that stand in it. -/
  type : Reading (List Expression)
  /-- A type that is no conditional type. -/
  plainType : Reading (List Expression)
  /-- A name, an array pattern or an object pattern. -/
  target : Reading Pattern
  /-- The parameters of a function in parentheses. -/
  parameters : Reading (List Pattern)
  /-- A statement; the flag tells whether declarations may stand here. -/
  statement : Bool → Reading Statement
  /-- An item of a module or a namespace. -/
  item : Reading Statement

/-- The grammar in which nothing can be read. -/
def Grammar.barren : Grammar where
  expression := failure
  assignment := failure
  unary := failure
  operand := failure
  decoration := failure
  construction := failure
  element := failure
  object := failure
  type := failure
  plainType := failure
  target := failure
  parameters := failure
  statement := fun _ ↦ failure
  item := failure

end ComponentGraph.Source
