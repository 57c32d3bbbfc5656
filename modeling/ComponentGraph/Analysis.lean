import ComponentGraph.FileTree.Lookup
import ComponentGraph.Ledger
import ComponentGraph.Options.Basic
import ComponentGraph.Source.Parse
import ComponentGraph.Specifier

/-!
The analysis of a file and of what it imports. A file is first examined by itself: its path and its
content alone decide whether it is skipped or parsed. The events of a parsed file are then entered
into the ledger one after the other, and a local import leads to the imported file right away,
before the events behind it, unless that file has been visited or no more imports may be followed.
The number of imports that may still be followed goes down with each one, so the analysis ends
whatever cycles there are. What makes a module of a text is left open.
-/

set_option autoImplicit false
set_option relaxedAutoImplicit false

namespace ComponentGraph.Analysis

/-- What an analysis can ask about files, and what it reads their texts with. -/
structure Files where
  read : Path → Except FileTree.Fault String
  isFile : Path → Bool
  parse : Source.Parser

/-- The files of a tree. -/
def Files.ofTree (parse : Source.Parser) (tree : FileTree) : Files :=
  ⟨tree.readText, tree.hasFile, parse⟩

/-! ### One file by itself -/

/-- Files with more characters than this are not parsed. -/
def characterLimit : Nat := 500000

/-- Whether a path is passed over without a look at the file: type declarations and everything that
has to do with installed packages. -/
def isPassedOver (path : Path) : Bool :=
  Text.Search.endsWith path.text ".d.ts" || Text.Search.contains path.text "node_modules"

/-- What a file is, by its path and its content. -/
inductive Examination where
  | passedOver
  | unreadable (fault : FileTree.Fault)
  | oversized
  | unparsable
  | source (parsed : Source.Parsed)

/-- Examines the file at a path. -/
def examine (files : Files) (path : Path) : Examination :=
  if isPassedOver path then .passedOver
  else
    match files.read path with
    | .error fault => .unreadable fault
    | .ok text =>
        if characterLimit < text.length then .oversized
        else
          match files.parse path.text text with
          | none => .unparsable
          | some parsed => .source parsed

/-- What stands for the particulars of a syntax error, which are not part of a report. -/
def unspecified : String := "*"

/-- The messages that an examination leaves, with the step each belongs to. -/
def Examination.complaints (path : Path) : Examination → List (Ledger.Step × String)
  | .passedOver => []
  | .unreadable fault =>
      [(.read, Ledger.chain ["Failed to read " ++ path.text, fault.message])]
  | .oversized => [(.read, "File exceeds " ++ toString characterLimit ++ " characters")]
  | .unparsable => [(.parse, Ledger.chain ["Failed to parse " ++ path.text, unspecified])]
  | .source parsed => List.replicate parsed.faults (.parse, "recovered: " ++ unspecified)

/-- Enters the messages of an examination. -/
def complain (ledger : Ledger) (path : Path) (complaints : List (Ledger.Step × String)) : Ledger :=
  complaints.foldl (fun ledger complaint ↦ ledger.diagnose path complaint.1 complaint.2) ledger

/-! ### Events -/

/-- The declaration to which uses are credited, and whether it takes any. -/
structure Active where
  name : String
  recording : Bool
  deriving Repr, DecidableEq

/-- The declaration that takes uses. -/
def owner? (active : Option Active) : Option String :=
  match active with
  | some declaration => if declaration.recording then some declaration.name else none
  | none => none

/-- Whether a declaration takes uses: always without a focus, otherwise if its name has the focus as
a part. -/
def takesUses (options : Options) (name : String) : Bool :=
  match options.focus? with
  | some focus => Text.Search.contains name focus
  | none => true

/-- Whether the names of an import count. -/
def countsImport (options : Options) (source : String) : Bool :=
  Specifier.isLocal source || options.includeLibraries

/-- Enters one use of a name, credited to the owner if there is one. -/
def creditUse (owner : Option String) (ledger : Ledger) (name : String) : Ledger :=
  match owner with
  | some declaration => (ledger.addDependency declaration name).recordUse name
  | none => ledger.recordUse name

/-- The file that a local import in a file leads to. -/
def importTarget? (files : Files) (path : Path) (source : String) : Option Path :=
  if Specifier.isLocal source then path.parent?.bind (Specifier.resolve files.isFile source)
  else none

/-- Enters one event of a file. `follow` analyses an imported file. -/
def enterEvent (files : Files) (options : Options) (follow : Path → Ledger → Ledger) (path : Path)
    (state : Ledger × Option Active) (event : Source.Event) : Ledger × Option Active :=
  let (ledger, active) := state
  match event with
  | .declared name => (ledger.declare name path, some ⟨name, takesUses options name⟩)
  | .rendered name =>
      match owner? active with
      | some owner => (creditUse (some owner) ledger name, active)
      | none => (ledger, active)
  | .imported source names =>
      if countsImport options source then
        let counted := names.foldl (creditUse (owner? active)) ledger
        match importTarget? files path source with
        | some target => (follow target counted, active)
        | none => (counted, active)
      else (ledger, active)

/-- Enters the events of a file, which starts with no declaration. -/
def enterEvents (files : Files) (options : Options) (follow : Path → Ledger → Ledger) (path : Path)
    (events : List Source.Event) (ledger : Ledger) : Ledger :=
  (events.foldl (enterEvent files options follow path) (ledger, none)).1

/-! ### A file and its imports -/

/-- Enters a file that has not been visited. -/
def enterFile (files : Files) (options : Options) (follow : Path → Ledger → Ledger) (path : Path)
    (ledger : Ledger) : Ledger :=
  let examination := examine files path
  match examination with
  | .source parsed =>
      enterEvents files options follow path parsed.module.events
        (complain (ledger.markParsed path) path (examination.complaints path))
  | _ => (complain ledger path (examination.complaints path)).markSkipped path

/-- Visits a file from which so many imports in a row may be followed. -/
def visit (files : Files) (options : Options) : Nat → Path → Ledger → Ledger
  | 0, path, ledger =>
      if ledger.isVisited path then ledger
      else enterFile files options (fun _ unchanged ↦ unchanged) path ledger
  | hops + 1, path, ledger =>
      if ledger.isVisited path then ledger
      else enterFile files options (visit files options hops) path ledger

/-- Analyses a file that lies so many imports away from the project. Beyond the depth of the options
nothing is done, except in focus, where the file is still entered but leads no further. -/
def analyze (files : Files) (options : Options) (path : Path) (depth : Nat) (ledger : Ledger) :
    Ledger :=
  if options.importDepth < depth && options.focus?.isNone && !isPassedOver path then ledger
  else visit files options (options.importDepth - depth) path ledger

end ComponentGraph.Analysis
