import ComponentGraph.Command.Arguments
import ComponentGraph.Config
import ComponentGraph.FileTree.Change
import ComponentGraph.Graph
import ComponentGraph.Project

/-!
Carrying out a command. An option is taken from the arguments if they give it, else from the preset
of the command, else from the configuration file, else it has its default; packages count if the
arguments or the configuration say so, and what is ignored is up to the configuration alone.
-/

set_option autoImplicit false
set_option relaxedAutoImplicit false

namespace ComponentGraph.Command

/-- Why a command cannot be carried out. -/
inductive Failure where
  | configuration (problem : Config.Problem)
  | unwritable (path : Path) (fault : FileTree.Fault)

/-- The wording of a failure. -/
def Failure.message : Failure → String
  | .configuration problem => problem.message
  | .unwritable path fault => Ledger.chain ["Failed to write " ++ path.text, fault.message]

/-- What a command comes to. -/
inductive Result where
  | listing (outcome : Project.Outcome) (format : Format)
  | drawing (outcome : Project.Outcome) (graph : Graph)
  | configuration (path : Path) (created : Bool)
  deriving Repr, DecidableEq

/-- Whether a command could do its job. -/
def Result.succeeded : Result → Bool
  | .listing outcome _ => !outcome.isFailure
  | .drawing outcome _ => !outcome.isFailure
  | .configuration _ created => created

/-- The options for a command, given those of the configuration. -/
def Shared.apply (shared : Shared) (focus : Option String) (preset : Option Options)
    (options : Options) : Options where
  maxNodes := (shared.maxNodes.or (preset.map Options.maxNodes)).getD options.maxNodes
  importDepth := (shared.importDepth.or (preset.map Options.importDepth)).getD options.importDepth
  includeLibraries := shared.includeLibraries || options.includeLibraries
  focusComponent := focus.getD options.focusComponent
  ignores := options.ignores

/-- The options for a command in a tree. -/
def Shared.options (shared : Shared) (tree : FileTree) (focus : Option String)
    (preset : Option Options) : Except Config.Problem Options :=
  (Config.load tree shared.path).map (fun loaded ↦ shared.apply focus preset loaded.options)

/-- Analyses the project that the arguments name. -/
def Shared.outcome (shared : Shared) (parse : Source.Parser) (tree : FileTree)
    (focus : Option String) (preset : Option Options) : Except Failure Project.Outcome :=
  match shared.options tree focus preset with
  | .error problem => .error (.configuration problem)
  | .ok options => .ok (Project.analyze parse tree options shared.path)

/-- Writes a configuration with the defaults into the working directory, unless there is one. -/
def writeConfiguration (tree : FileTree) : Except Failure (Result × FileTree) :=
  let path := (FileTree.pathOf tree.workingDirectory).join Config.fileName
  if tree.has path then .ok (.configuration path false, tree)
  else
    match tree.write path ({} : Options).print with
    | .ok changed => .ok (.configuration path true, changed)
    | .error fault => .error (.unwritable path fault)

/-- The graph of an outcome. The nodes of an outcome leave nothing to chance, so any generator will
do. -/
def drawingOf (outcome : Project.Outcome) : Graph :=
  (Graph.ofNodes outcome.nodes ⟨0⟩).1

/-- Carries out a command. -/
def run (parse : Source.Parser) (tree : FileTree) : Command → Except Failure (Result × FileTree)
  | .analyze shared wanted format => do
      let outcome ← shared.outcome parse tree wanted none
      return (.listing outcome format, tree)
  | .focus component shared format => do
      let outcome ← shared.outcome parse tree (some component) (some .aroundComponent)
      return (.listing outcome format, tree)
  | .graph shared wanted => do
      let outcome ← shared.outcome parse tree wanted none
      return (.drawing outcome (drawingOf outcome), tree)
  | .init => writeConfiguration tree

end ComponentGraph.Command
