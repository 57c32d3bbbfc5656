import ComponentGraph.Source.Event
import ComponentGraph.Source.Exchange
import ComponentGraph.Source.Operation
import ComponentGraph.Text.Search

/-!
A whole source text. `parse` gives the tree of the module and the number of faults that were put up
with, or nothing if the text is not of the analysed language. A path that ends with `.ts` holds
plain source; in every other file elements may be written. The stages of the grammar are bounded by
the length of the text, which exceeds how deep constructs can nest.
-/

set_option autoImplicit false
set_option relaxedAutoImplicit false

namespace ComponentGraph.Source

/-- The grammar in which constructs nest at most `depth` deep. -/
def Grammar.stage : Nat → Grammar
  | 0 => .barren
  | depth + 1 =>
      { expression := fun context cursor ↦ Operation.expression (stage depth) context cursor
        assignment := fun context cursor ↦ Operation.assignment (stage depth) context cursor
        unary := fun context cursor ↦ Operation.unary (stage depth) context cursor
        operand := fun context cursor ↦ Operand.operand (stage depth) false context cursor
        decoration := fun context cursor ↦ Operand.decoration (stage depth) context cursor
        construction := fun context cursor ↦ Operand.construction (stage depth) context cursor
        element := fun context cursor ↦ Markup.element (stage depth) context cursor
        object := fun context cursor ↦ Operand.object (stage depth) context cursor
        type := fun context cursor ↦ Typing.type (stage depth) context cursor
        plainType := fun context cursor ↦ Typing.plainType (stage depth) context cursor
        target := fun context cursor ↦ Binding.target (stage depth) context cursor
        parameters := fun context cursor ↦ Binding.parameters (stage depth) context cursor
        statement := fun declarations context cursor ↦
          Flow.statement (stage depth) declarations context cursor
        item := fun context cursor ↦ Exchange.item (stage depth) context cursor }

/-- The items of a module up to the end of the text. -/
def moduleItems (grammar : Grammar) : Reading (List Statement) :=
  many do
    if (← currentToken) == .finish then
      return none
    else
      return some (← grammar.item)

/-- The text behind a byte order mark and a first line that names an interpreter. -/
def skipPreamble (text : List Char) : List Char :=
  let unmarked :=
    match text with
    | first :: rest => if first.toNat == 0xFEFF then rest else text
    | [] => []
  match unmarked with
  | '#' :: '!' :: rest => rest.dropWhile (fun character ↦ !isLineBreak character)
  | plain => plain

/-- A module that was read, with the number of faults that were put up with. -/
structure Parsed where
  module : Module
  faults : Nat

/-- A way to read source texts: it is given the path of a file and its text, and makes a module of
them or nothing. -/
abbrev Parser := String → String → Option Parsed

/-- Whether elements may be written in the file of this path. -/
def allowsMarkup (path : String) : Bool :=
  !Text.Search.endsWith path ".ts"

/-- Reads the text of a module, with or without elements. -/
def parseText (markup : Bool) (text : String) : Option Parsed :=
  let characters := skipPreamble text.toList
  let limit := characters.length + 2
  match moduleItems (Grammar.stage (16 * limit)) { limit, markup } (Cursor.enter characters 0) with
  | none => none
  | some (items, cursor) => some ⟨⟨items⟩, cursor.faults⟩

/-- Reads the source text of the file at this path. -/
def parse : Parser :=
  fun path text ↦ parseText (allowsMarkup path) text

/-! ### Properties of parsers -/

/-- The parser looks at a path only for whether elements may be written in the file. -/
def Parser.GoesByEnding (parse : Parser) : Prop :=
  ∀ path path', allowsMarkup path = allowsMarkup path' → parse path = parse path'

/-- The parser makes a module without events of an empty text, and finds no fault with it. -/
def Parser.TakesEmpty (parse : Parser) : Prop :=
  ∀ path, ∃ parsed, parse path "" = some parsed ∧ parsed.module.events = [] ∧ parsed.faults = 0

theorem goesByEnding_parse : parse.GoesByEnding := by
  intro path path' hmarkup
  funext text
  rw [parse, parse, hmarkup]

theorem takesEmpty_parse : parse.TakesEmpty := by
  intro path
  rw [parse]
  cases allowsMarkup path <;> exact ⟨_, rfl, rfl, rfl⟩

end ComponentGraph.Source
