import ComponentGraph.Command.Usage
import ComponentGraph.Path

/-!
The commands and their arguments. `analyze` lists what a project is made of, `focus` does so around
one component, `graph` gives nodes and links for drawing, and `init` writes a configuration file.
-/

set_option autoImplicit false
set_option relaxedAutoImplicit false

namespace ComponentGraph

namespace Command

/-- How a list of nodes is written. -/
inductive Format where
  | text
  | json
  deriving Repr, DecidableEq

/-- The arguments that all analyses share. -/
structure Shared where
  path : Path := ⟨"."⟩
  maxNodes : Option Nat := none
  importDepth : Option Nat := none
  includeLibraries : Bool := false
  verbose : Bool := false
  deriving Repr, DecidableEq

end Command

/-- A command with its arguments. -/
inductive Command where
  | analyze (shared : Command.Shared) (focus : Option String) (format : Command.Format)
  | focus (component : String) (shared : Command.Shared) (format : Command.Format)
  | graph (shared : Command.Shared) (focus : Option String)
  | init
  deriving Repr, DecidableEq

namespace Command

/-- Whether details are asked for. -/
def verbose : Command → Bool
  | .analyze shared _ _ => shared.verbose
  | .focus _ shared _ => shared.verbose
  | .graph shared _ => shared.verbose
  | .init => false

/-! ### Forms -/

/-- The named parameters that all analyses share. -/
def sharedParameters : List Parameter := [
  { name := "max-nodes", shape := some .natural },
  { name := "import-depth", shape := some .natural },
  { name := "include-libraries" },
  { name := "verbose", letter := some 'v' }]

/-- The parameter that gives a focus. -/
def focusParameter : Parameter := { name := "focus", shape := some .text }

/-- The parameter that gives a format. -/
def formatParameter : Parameter := { name := "format", shape := some (.choice ["text", "json"]) }

/-- The project, by position. -/
def pathPosition : Position := ⟨"path", .path, false⟩

/-- The form of `analyze`. -/
def analyzeForm : Form := ⟨sharedParameters ++ [focusParameter, formatParameter], [pathPosition]⟩

/-- The form of `focus`. -/
def focusForm : Form :=
  ⟨sharedParameters ++ [formatParameter], [⟨"component", .text, true⟩, pathPosition]⟩

/-- The form of `graph`. -/
def graphForm : Form := ⟨sharedParameters ++ [focusParameter], [pathPosition]⟩

/-- The form of `init`. -/
def initForm : Form := ⟨[], []⟩

/-! ### From values to commands -/

/-- The text given under a name. -/
def textGiven? (given : List (String × Value)) (name : String) : Option String :=
  match given.lookup name with
  | some (.text text) => some text
  | _ => none

/-- The number given under a name. -/
def naturalGiven? (given : List (String × Value)) (name : String) : Option Nat :=
  match given.lookup name with
  | some (.natural number) => some number
  | _ => none

/-- The arguments that all analyses share. -/
def sharedOf (given : List (String × Value)) : Shared where
  path := ⟨(textGiven? given "path").getD "."⟩
  maxNodes := naturalGiven? given "max-nodes"
  importDepth := naturalGiven? given "import-depth"
  includeLibraries := (given.lookup "include-libraries").isSome
  verbose := (given.lookup "verbose").isSome

/-- The format asked for. -/
def formatOf (given : List (String × Value)) : Format :=
  if textGiven? given "format" = some "json" then .json else .text

/-- The names of the commands. -/
def names : List String := ["analyze", "focus", "graph", "init"]

/-- The name of the command that explains the others. -/
def helpName : String := "help"

/-- The command of a name with its arguments. -/
def ofName (name : String) (arguments : List String) : Except UsageError Command :=
  if name = "analyze" then do
    let given ← analyzeForm.read arguments
    return .analyze (sharedOf given) (textGiven? given "focus") (formatOf given)
  else if name = "focus" then do
    let given ← focusForm.read arguments
    return .focus ((textGiven? given "component").getD "") (sharedOf given) (formatOf given)
  else if name = "graph" then do
    let given ← graphForm.read arguments
    return .graph (sharedOf given) (textGiven? given "focus")
  else if name = "init" then do
    let _ ← initForm.read arguments
    return .init
  else .error .unknownCommand

/-- What a request for help about commands comes to. -/
def explain : List String → UsageError
  | [] => .helpRequested
  | [name] => if (helpName :: names).contains name then .helpRequested else .unknownCommand
  | _ => .unknownCommand

/-- What flags in front of a command come to. -/
def leadingFlag (argument : List Char) : UsageError :=
  match argument with
  | '-' :: name =>
      match splitAttached name with
      | ("help", none) => .helpRequested
      | ("version", none) => .versionRequested
      | ("help", some _) => .unneededValue
      | ("version", some _) => .unneededValue
      | _ => .unknownParameter
  | 'h' :: _ => .helpRequested
  | 'V' :: _ => .versionRequested
  | _ => .unknownParameter

/-- The command that the arguments of the program ask for, if they name one. -/
def parse? : List String → Except UsageError (Option Command)
  | [] => .ok none
  | ["--"] => .ok none
  | "--" :: first :: _ =>
      .error (if (helpName :: names).contains first then .unknownParameter else .unknownCommand)
  | first :: rest =>
      if first = helpName then .error (explain rest)
      else
        match first.toList with
        | '-' :: flag :: later => .error (leadingFlag (flag :: later))
        | _ => (ofName first rest).map some

end Command

end ComponentGraph
