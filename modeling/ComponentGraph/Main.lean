import ComponentGraph.Command.Report
import ComponentGraph.Disk

/-!
The command line: takes the tree that a command needs from the disk, carries the command out, writes
what it reports, and stores a configuration that it made.
-/

set_option autoImplicit false
set_option relaxedAutoImplicit false

namespace ComponentGraph.Main

/-- The project that a command is about. -/
def project? : Command → Option Path
  | .analyze shared _ _ => some shared.path
  | .focus _ shared _ => some shared.path
  | .graph shared _ => some shared.path
  | .init => none

/-- The command that the arguments ask for, if they ask for one. -/
def command? (arguments : List String) : Option Command :=
  match Command.parse? arguments with
  | .ok found => found
  | .error _ => none

/-- What the help says. -/
def helpText : String :=
  "Usage: depict [COMMAND]\n\n" ++
  "Commands:\n" ++
  "  analyze  Analyze a project and list its components, hooks, utils and constants\n" ++
  "  focus    Analyze the dependencies around one component\n" ++
  "  graph    Print the dependency graph as JSON nodes and links\n" ++
  "  init     Initialize a new .depictrc.json configuration file\n" ++
  "  help     Print this message\n\n" ++
  "Options of analyze, focus and graph:\n" ++
  "  [PATH]                 Project root directory [default: .]\n" ++
  "  --max-nodes <N>        Maximum number of nodes to emit (overrides config file)\n" ++
  "  --import-depth <N>     Maximum number of local import hops to follow" ++
  " (overrides config file)\n" ++
  "  --include-libraries    Also track package imports as dependencies\n" ++
  "  --focus <NAME>         Only keep edges of files and declarations containing this name\n" ++
  "  --format <text|json>   Output format\n" ++
  "  -v, --verbose          Enable verbose output\n" ++
  "  -h, --help             Print help\n" ++
  "  -V, --version          Print version\n"

/-- What the version flag prints. -/
def versionText : String := "depict 0.1.0\n"

/-- What is wrong with the arguments. -/
def complaint : Command.UsageError → String
  | .unknownCommand => "unrecognized subcommand"
  | .unknownParameter => "unexpected argument"
  | .missingParameter => "a required argument is missing"
  | .unacceptableValue => "a value is missing or not allowed"
  | .malformedValue => "a value is not a number"
  | .repeatedParameter => "an argument was given twice"
  | .unneededValue => "a flag does not take a value"
  | .helpRequested => "help"
  | .versionRequested => "version"

/-- What an ending writes. -/
def written : Command.Ending → Command.Written
  | .misused .helpRequested => { output := helpText }
  | .misused .versionRequested => { output := versionText }
  | .misused error =>
      { errors := "error: " ++ complaint error ++ "\n\nFor more information, try '--help'.\n" }
  | .unnamed => { output := helpText }
  | .failed failure => { errors := "Error: " ++ failure.message ++ "\n" }
  | .finished text _ => text
  | .crashed text => { text with errors := text.errors ++ "Formatting argument out of range\n" }

/-- Whether the reports are coloured: the environment may force or forbid it, otherwise they are on
a terminal. -/
def colours : IO Bool := do
  if (← IO.getEnv "CLICOLOR_FORCE").any (· != "0") then
    return true
  else if (← IO.getEnv "NO_COLOR").isSome || (← IO.getEnv "CLICOLOR") == some "0" then
    return false
  else
    (← IO.getStdout).isTty

/-- Stores a configuration that a command made in the tree. -/
def store (command : Option Command) (ending : Command.Ending) (changed : FileTree) : IO Unit := do
  match command, ending with
  | some .init, .finished _ true =>
      let path := (FileTree.pathOf changed.workingDirectory).join Config.fileName
      match changed.readText path with
      | .ok text => IO.FS.writeFile path.text text
      | .error _ => return ()
  | _, _ => return ()

end ComponentGraph.Main

/-- Runs the program and gives its exit status. -/
def main (arguments : List String) : IO UInt32 := do
  let command := ComponentGraph.Main.command? arguments
  let tree ← ComponentGraph.Disk.treeFor (command.bind ComponentGraph.Main.project?)
  let colours ← ComponentGraph.Main.colours
  let (ending, changed) :=
    ComponentGraph.Command.execute ComponentGraph.Source.parse tree colours arguments
  try
    ComponentGraph.Main.store command ending changed
    let written := ComponentGraph.Main.written ending
    IO.print written.output
    IO.eprint written.errors
    return ending.status.toUInt32
  catch problem =>
    IO.eprintln ("Error: " ++ toString problem)
    return 2
