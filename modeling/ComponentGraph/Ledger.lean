import ComponentGraph.Name
import ComponentGraph.Path

/-!
What an analysis has found so far. A ledger holds a record for every name met, in the order in which
the names were first met, the files that were parsed and those that were skipped, and the
diagnostics. Names are not tied to files: two files that declare one name share its record, and the
first of them is its source. Records are only ever added to; nothing in them is taken back.
-/

set_option autoImplicit false
set_option relaxedAutoImplicit false

namespace ComponentGraph

namespace Ledger

/-- What is known about a name. -/
structure Record where
  kind : Name.Kind
  /-- The first file that declares the name. -/
  source : Option Path
  /-- How often the name was imported or rendered. -/
  uses : Nat
  /-- The names that were used while this one was being declared, in the order of first use. -/
  dependencies : List String
  deriving Repr, DecidableEq

/-- The record of a name that was just met. -/
def Record.fresh (name : String) : Record :=
  ⟨Name.kind name, none, 0, []⟩

/-- The step of an analysis in which something went wrong. -/
inductive Step where
  | walk
  | read
  | parse
  deriving Repr, DecidableEq

/-- The written form of a step. -/
def Step.label : Step → String
  | .walk => "walk"
  | .read => "read"
  | .parse => "parse"

/-- Something that went wrong with a file and did not end the analysis. -/
structure Diagnostic where
  file : String
  step : Step
  message : String
  deriving Repr, DecidableEq

end Ledger

/-- The findings of an analysis. -/
structure Ledger where
  parsed : List Path := []
  skipped : List Path := []
  records : List (String × Ledger.Record) := []
  diagnostics : List Ledger.Diagnostic := []
  deriving Repr, DecidableEq, Inhabited

namespace Ledger

/-! ### Files -/

/-- Whether a path is among paths, up to spelling. -/
def listed (paths : List Path) (path : Path) : Bool :=
  paths.any (fun other ↦ other.sameKey path)

/-- The paths without one, whatever its spelling. -/
def dropPath (paths : List Path) (path : Path) : List Path :=
  paths.filter (fun other ↦ !other.sameKey path)

/-- The paths with one more, unless it is there in some spelling. -/
def addPath (paths : List Path) (path : Path) : List Path :=
  if listed paths path then paths else paths ++ [path]

/-- Whether a file has been parsed or skipped. -/
def isVisited (ledger : Ledger) (path : Path) : Bool :=
  listed ledger.parsed path || listed ledger.skipped path

/-- Marks a file as parsed. -/
def markParsed (ledger : Ledger) (path : Path) : Ledger :=
  { ledger with
    parsed := addPath ledger.parsed path
    skipped := dropPath ledger.skipped path }

/-- Marks a file as skipped. -/
def markSkipped (ledger : Ledger) (path : Path) : Ledger :=
  { ledger with
    parsed := dropPath ledger.parsed path
    skipped := addPath ledger.skipped path }

/-! ### Records -/

/-- The records with the one of this name changed; a name not met before gets a fresh record at the
end, which is changed too. -/
def changeRecord (name : String) (change : Record → Record) :
    List (String × Record) → List (String × Record)
  | [] => [(name, change (.fresh name))]
  | (other, record) :: rest =>
      if other = name then (other, change record) :: rest
      else (other, record) :: changeRecord name change rest

/-- The ledger with the record of a name changed. -/
def update (ledger : Ledger) (name : String) (change : Record → Record) : Ledger :=
  { ledger with records := changeRecord name change ledger.records }

/-- The record of a name. -/
def record? (ledger : Ledger) (name : String) : Option Record :=
  ledger.records.lookup name

/-- Notes that a file declares a name. The first such file stays the source. -/
def declare (ledger : Ledger) (name : String) (file : Path) : Ledger :=
  ledger.update name (fun record ↦ { record with source := record.source.or (some file) })

/-- Counts one use of a name. -/
def recordUse (ledger : Ledger) (name : String) : Ledger :=
  ledger.update name (fun record ↦ { record with uses := record.uses + 1 })

/-- The names with one more at the end, unless it is there. -/
def addName (names : List String) (name : String) : List String :=
  if names.contains name then names else names ++ [name]

/-- Notes that a declaration depends on a name. The name gets a record before its dependent does. -/
def addDependency (ledger : Ledger) (owner name : String) : Ledger :=
  (ledger.update name id).update owner
    (fun record ↦ { record with dependencies := addName record.dependencies name })

/-! ### Diagnostics -/

/-- Adds a diagnostic. -/
def diagnose (ledger : Ledger) (file : Path) (step : Step) (message : String) : Ledger :=
  { ledger with diagnostics := ledger.diagnostics ++ [⟨file.text, step, message⟩] }

/-- The causes of a failure as one message, the outermost first. -/
def chain (causes : List String) : String :=
  ": ".intercalate causes

/-- Takes the result of a step that may fail. A failure, given by its causes, is diagnosed. -/
def attempt {α : Type} (ledger : Ledger) (file : Path) (step : Step)
    (outcome : Except (List String) α) : Ledger × Option α :=
  match outcome with
  | .ok value => (ledger, some value)
  | .error causes => (ledger.diagnose file step (chain causes), none)

end Ledger

end ComponentGraph
