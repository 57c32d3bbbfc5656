import ComponentGraph.Analysis
import ComponentGraph.FileTree.Walk

/-!
The survey of a project: every source file below its root is analysed, in the order of a walk. Some
entries are left out by coarse rules: whatever has to do with installed packages, hidden names,
names with `test` or `dist` in them, and paths that the options tell to ignore. What the walk cannot
reach becomes a diagnostic.
-/

set_option autoImplicit false
set_option relaxedAutoImplicit false

namespace ComponentGraph.Survey

/-- Parts of a name that keep an entry out. -/
def excludedParts : List String := ["test", "dist"]

/-- Whether an entry is kept out of the survey. -/
def isExcluded (patterns : List Glob.Pattern) (path : Path) (name : String) : Bool :=
  Text.Search.contains path.text "node_modules" || Text.Search.beginsWith name "." ||
    excludedParts.any (Text.Search.contains name) ||
    patterns.any (fun pattern ↦ pattern.accepts path.text)

/-- The patterns of the options that can be read. -/
def patterns (options : Options) : List Glob.Pattern :=
  options.ignores.filterMap (fun text ↦
    match Glob.compile? text with
    | .ok pattern => some pattern
    | .error _ => none)

/-- The messages about patterns that cannot be read. -/
def patternComplaints (options : Options) : List String :=
  options.ignores.filterMap (fun text ↦
    match Glob.compile? text with
    | .ok _ => none
    | .error failure => some ("Invalid ignore pattern '" ++ text ++ "': " ++ failure.message))

/-- Whether a path has the name of a source file. -/
def isSourceFile (path : Path) : Bool :=
  match path.fileName? with
  | some name => Specifier.hasSourceExtension name
  | none => false

/-- Whether the focus of the options, if there is one, is a part of the path. -/
def isInFocus (options : Options) (path : Path) : Bool :=
  match options.focus? with
  | some focus => Text.Search.contains path.text focus
  | none => true

/-- Whether a file that the walk comes across is analysed. -/
def isAnalysed (options : Options) (path : Path) : Bool :=
  isSourceFile path && isInFocus options path

/-- The message about an entry that the walk cannot look at. -/
def inaccessibleMessage (path : Path) (fault : FileTree.Fault) : String :=
  "Cannot access path: IO error for operation on " ++ path.text ++ ": " ++ fault.message

/-- The message about a link that leads back to a directory the walk is inside of. -/
def loopMessage (path ancestor : Path) : String :=
  "Cannot access path: File system loop found: " ++ path.text ++ " points to an ancestor " ++
    ancestor.text

/-- Enters what the walk comes across. -/
def enterSighting (files : Analysis.Files) (options : Options) (ledger : Ledger) :
    FileTree.Sighting → Ledger
  | .file path =>
      if isAnalysed options path then Analysis.analyze files options path 0 ledger else ledger
  | .directory _ => ledger
  | .inaccessible path fault => ledger.diagnose path .walk (inaccessibleMessage path fault)
  | .loop path ancestor => ledger.diagnose path .walk (loopMessage path ancestor)

/-- What a survey comes across below a root. -/
def sightings (tree : FileTree) (options : Options) (root : Path) : List FileTree.Sighting :=
  tree.walk (isExcluded (patterns options)) root

/-- Surveys the project at a root. -/
def run (parse : Source.Parser) (tree : FileTree) (options : Options) (root : Path)
    (ledger : Ledger) : Ledger :=
  let warned :=
    (patternComplaints options).foldl (fun ledger message ↦ ledger.diagnose root .walk message)
      ledger
  (sightings tree options root).foldl (enterSighting (.ofTree parse tree) options) warned

end ComponentGraph.Survey
