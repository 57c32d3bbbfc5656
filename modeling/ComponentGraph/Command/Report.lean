import ComponentGraph.Command.Run
import ComponentGraph.Text.Paint
import ComponentGraph.Text.Width

/-!
What a command writes. Nodes are listed as a table, one row each, with a further line for the names
a node depends on; or they are written as JSON, and then nothing else goes to the output, so that it
can be read by a program. Diagnostics always go to the errors, in full if details are asked for.

A table can break off: the blanks behind a name are counted by a number of sixteen bits, and the
program crashes in front of the first row that needs more of them. What was written by then stays
written, and nothing is written after it.
-/

set_option autoImplicit false
set_option relaxedAutoImplicit false

namespace ComponentGraph.Command

open Text.Paint (Look paint)

/-- What was written to the output and to the errors. -/
structure Written where
  output : String := ""
  errors : String := ""
  deriving Repr, DecidableEq

/-! ### The table of nodes -/

/-- The mark of success. -/
def successMark : String := "✓"

/-- The mark of failure. -/
def failureMark : String := "✘"

/-- So many blanks. -/
def blanks (count : Nat) : String :=
  String.ofList (List.replicate count ' ')

/-- The width of the column of categories. -/
def kindWidth : Nat := 9

/-- The colour of a category. -/
def kindLook : Name.Kind → Look
  | .component => .cyan
  | .hook => .magenta
  | .util => .yellow
  | .constant => .blue

/-- A category, filled up to the width of its column. -/
def kindCell (kind : Name.Kind) : String :=
  kind.label ++ blanks (kindWidth - kind.label.toList.length)

/-- The widths of the columns of a table. -/
structure Columns where
  name : Nat
  count : Nat
  deriving Repr, DecidableEq

/-- The widths that nodes need, measured by a function. -/
def columnsOf (width : String → Nat) (nodes : List Node) : Columns where
  name := (nodes.map (fun node ↦ width node.id)).foldl max 0
  count := ((nodes.map (fun node ↦ (toString node.usedCount).toList.length)).max?).getD 1

/-- The blanks that fill up a name. -/
def nameFill (width : String → Nat) (columns : Columns) (node : Node) : String :=
  blanks (columns.name - width node.id)

/-- A count, filled up from the left. -/
def countCell (columns : Columns) (node : Node) : String :=
  blanks (columns.count - (toString node.usedCount).toList.length) ++ toString node.usedCount

/-- The row of a node. -/
def row (colours : Bool) (width : String → Nat) (columns : Columns) (node : Node) : String :=
  paint colours [kindLook node.kind] (kindCell node.kind) ++ "  " ++
    paint colours [.bold] node.id ++ nameFill width columns node ++ "  " ++
    countCell columns node ++ "  " ++ paint colours [.dimmed] node.filePath ++ "\n"

/-- The line of the names that a node depends on, if there are any. -/
def childrenLine (colours : Bool) (node : Node) : String :=
  if node.children.isEmpty then ""
  else
    blanks (kindWidth + 2) ++ paint colours [.blue] "->" ++ " " ++
      ", ".intercalate node.children ++ "\n"

/-- The rows of nodes, each with the line of the names that the node depends on. -/
def rows (colours : Bool) (width : String → Nat) (columns : Columns) (nodes : List Node) : String :=
  String.join (nodes.map (fun node ↦
    row colours width columns node ++ childrenLine colours node))

/-- The most blanks that can fill up a name. The counts need no such limit, their numbers have
twenty digits at most. -/
def widestFill : Nat := 65535

/-- Whether the name of a node can be filled up. -/
def canFill (width : String → Nat) (columns : Columns) (node : Node) : Bool :=
  decide (columns.name - width node.id ≤ widestFill)

/-- Whether all names of a table can be filled up. -/
def canFillAll (width : String → Nat) (nodes : List Node) : Bool :=
  nodes.all (canFill width (columnsOf width nodes))

/-- The table of nodes, with the display width of a text given by a function. It breaks off in front
of the first row whose name cannot be filled up; the error is what was written by then. -/
def table (colours : Bool) (width : String → Nat) (nodes : List Node) : Except String String :=
  let columns := columnsOf width nodes
  if canFillAll width nodes then .ok (rows colours width columns nodes)
  else .error (rows colours width columns (nodes.takeWhile (canFill width columns)))

/-! ### Diagnostics and summaries -/

/-- The word in front of a warning. -/
def warning (colours : Bool) : String :=
  paint colours [.bold, .yellow] "warning:"

/-- The line of a diagnostic. -/
def diagnosticLine (colours : Bool) (diagnostic : Ledger.Diagnostic) : String :=
  warning colours ++ " [" ++ diagnostic.step.label ++ "] " ++ diagnostic.file ++ ": " ++
    diagnostic.message ++ "\n"

/-- The diagnostics in full, or how many there are. -/
def diagnosticLines (colours verbose : Bool) (diagnostics : List Ledger.Diagnostic) : String :=
  if diagnostics.isEmpty then ""
  else if verbose then String.join (diagnostics.map (diagnosticLine colours))
  else
    warning colours ++ " " ++ toString diagnostics.length ++
      " problem(s) while analyzing files (use " ++ paint colours [.cyan] "-v" ++ " for details)\n"

/-- A marked line in one colour. -/
def markedLine (colours : Bool) (look : Look) (mark text : String) : String :=
  paint colours [look] mark ++ " " ++ paint colours [look] text ++ "\n"

/-- The line of a summary. -/
def summaryLine (colours : Bool) (summary : Project.Summary) : String :=
  match summary with
  | .completed .. => markedLine colours .green successMark summary.message
  | .failed _ => markedLine colours .red failureMark summary.message

/-! ### Reports -/

/-- The report of machine output: the value alone on the output, everything else on the errors. -/
def machineReport (colours verbose : Bool) (outcome : Project.Outcome) (value : Json) :
    Written where
  output := value.print ++ "\n"
  errors :=
    diagnosticLines colours verbose outcome.diagnostics ++ summaryLine colours outcome.summary

/-- The report for people: the table and a summary of success on the output. Nothing comes after a
table that breaks off. -/
def tableReport (colours verbose : Bool) (outcome : Project.Outcome) : Written :=
  let diagnostics := diagnosticLines colours verbose outcome.diagnostics
  let summary := summaryLine colours outcome.summary
  match table colours Text.Width.ofString outcome.nodes with
  | .error begun => ⟨begun, ""⟩
  | .ok nodes =>
      if outcome.isFailure then ⟨nodes, diagnostics ++ summary⟩ else ⟨nodes ++ summary, diagnostics⟩

/-- What the result of a command writes, up to a crash if there is one. -/
def report (colours verbose : Bool) : Result → Written
  | .listing outcome .text => tableReport colours verbose outcome
  | .listing outcome .json => machineReport colours verbose outcome (Node.listToJson outcome.nodes)
  | .drawing outcome drawn => machineReport colours verbose outcome drawn.toJson
  | .configuration path true =>
      { output := markedLine colours .green successMark ("Created " ++ path.text) }
  | .configuration path false =>
      { errors := paint colours [.bold, .red] "error:" ++ " " ++ path.text ++ " already exists\n" }

/-- Whether the report of a result breaks off. -/
def Result.breaksOff : Result → Bool
  | .listing outcome .text => !canFillAll Text.Width.ofString outcome.nodes
  | _ => false

/-! ### The program -/

/-- How the program ends. -/
inductive Ending where
  | misused (error : UsageError)
  | unnamed
  | failed (failure : Failure)
  | finished (written : Written) (succeeded : Bool)
  | crashed (written : Written)

/-- How the program ends with the result of a command. -/
def Result.ending (colours verbose : Bool) (result : Result) : Ending :=
  let written := report colours verbose result
  if result.breaksOff then .crashed written else .finished written result.succeeded

/-- Carries out the arguments of the program in a tree; gives the tree as it is afterwards. -/
def execute (parse : Source.Parser) (tree : FileTree) (colours : Bool) (arguments : List String) :
    Ending × FileTree :=
  match parse? arguments with
  | .error error => (.misused error, tree)
  | .ok none => (.unnamed, tree)
  | .ok (some command) =>
      match run parse tree command with
      | .error failure => (.failed failure, tree)
      | .ok (result, changed) => (result.ending colours command.verbose, changed)

/-- Whether a request is for information only. -/
def UsageError.isRequest : UsageError → Bool
  | .helpRequested => true
  | .versionRequested => true
  | _ => false

/-- The exit status of the program: zero for success, one for a command that could not do its job,
two for arguments or surroundings it could not work with, a hundred and one for a crash. -/
def Ending.status : Ending → Nat
  | .misused error => if error.isRequest then 0 else 2
  | .unnamed => 0
  | .failed _ => 2
  | .finished _ succeeded => if succeeded then 0 else 1
  | .crashed _ => 101

end ComponentGraph.Command
