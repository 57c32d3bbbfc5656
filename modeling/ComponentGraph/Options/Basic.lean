import ComponentGraph.Glob
import ComponentGraph.Json.Print

/-!
The options of an analysis: how many nodes to keep, whether packages count, which name to focus on,
how many imports to follow, and which paths to leave out. The same options are the content of a
configuration file, where every one of them may be missing; what such a file gives is a `Layer` over
the defaults.
-/

set_option autoImplicit false
set_option relaxedAutoImplicit false

namespace ComponentGraph

/-- The options of one analysis. -/
structure Options where
  /-- The largest number of nodes in the result. -/
  maxNodes : Nat := 150
  /-- Whether imports of packages count as uses. Packages are never followed. -/
  includeLibraries : Bool := false
  /-- A part of a name; only files and declarations with it keep their edges. Empty for none. -/
  focusComponent : String := ""
  /-- How many local imports in a row are followed from a file of the project. -/
  importDepth : Nat := 2
  /-- Patterns of paths that are left out of the project. -/
  ignores : List String := []
  deriving Repr, DecidableEq, Inhabited

namespace Options

/-- The name to focus on, if there is one. -/
def focus? (options : Options) : Option String :=
  if options.focusComponent = "" then none else some options.focusComponent

/-- The setting for a look around one component: fewer nodes, deeper imports. -/
def aroundComponent : Options :=
  { maxNodes := 50, importDepth := 3 }

/-- A pattern in `ignores` that cannot be read. -/
structure InvalidIgnore where
  pattern : String
  failure : Glob.Failure
  deriving Repr, DecidableEq

/-- The wording of an unreadable pattern. -/
def InvalidIgnore.message (invalid : InvalidIgnore) : String :=
  "Invalid glob pattern in 'ignores': \"" ++ invalid.pattern ++ "\": " ++ invalid.failure.message

/-- The first pattern that cannot be read. -/
def invalidIgnore? (options : Options) : Option InvalidIgnore :=
  options.ignores.findSome? (fun pattern ↦
    match Glob.compile? pattern with
    | .ok _ => none
    | .error failure => some ⟨pattern, failure⟩)

/-! ### Options that are left open -/

/-- Options of which some may be left open. -/
structure Layer where
  maxNodes : Option Nat := none
  includeLibraries : Option Bool := none
  focusComponent : Option String := none
  importDepth : Option Nat := none
  ignores : Option (List String) := none
  deriving Repr, DecidableEq

/-- The options of a layer, with those that it leaves open taken from others. -/
def Layer.atop (layer : Layer) (base : Options) : Options where
  maxNodes := layer.maxNodes.getD base.maxNodes
  includeLibraries := layer.includeLibraries.getD base.includeLibraries
  focusComponent := layer.focusComponent.getD base.focusComponent
  importDepth := layer.importDepth.getD base.importDepth
  ignores := layer.ignores.getD base.ignores

/-! ### As JSON -/

/-- The options as a JSON object. -/
def toJson (options : Options) : Json :=
  .object [
    ("maxNodes", .whole options.maxNodes),
    ("includeLibraries", .boolean options.includeLibraries),
    ("focusComponent", .text options.focusComponent),
    ("importDepth", .whole options.importDepth),
    ("ignores", .array (options.ignores.map .text))]

/-- The text of a configuration file with these options. -/
def print (options : Options) : String :=
  options.toJson.print

end Options

end ComponentGraph
