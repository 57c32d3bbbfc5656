import ComponentGraph.Config
import ComponentGraph.FileTree.Change
import ComponentGraph.Specifier

/-!
Taking a file tree from the disk. A command works on a tree that is a value, so the part of the disk
that it can ask about is taken beforehand: the repository that holds the project, and from the
directories above it the names that the search for a configuration looks at. Only source files and
configurations are taken with their content, and nothing is taken from what a repository keeps about
itself.
-/

set_option autoImplicit false
set_option relaxedAutoImplicit false

namespace ComponentGraph.Disk

open FileTree (Content Entry)

/-- How deep directories are taken; a path on the disk cannot have more names. -/
def nestingLimit : Nat := FileTree.pathLimit

/-- The directory that marks a repository. -/
def repositoryMark : String := ".git"

/-- Whether the content of a file of this name can be asked for. -/
def isOfInterest (name : String) : Bool :=
  Specifier.hasSourceExtension name || name == Config.fileName

/-- The result of an action, if it has one. -/
def attempt? {α : Type} (action : IO α) : IO (Option α) :=
  try
    return some (← action)
  catch _ =>
    return none

/-- The absolute path that this one leads to, if it leads anywhere. -/
def realPath? (path : String) : IO (Option String) := do
  return (← attempt? (IO.FS.realPath path)).map (fun found ↦ found.toString)

/-- A name that no entry on the disk can have. -/
def impossibleName : String := String.singleton (Char.ofNat 0)

/-- The real place that an absolute path leads to. -/
def locationOf (path : String) : Location :=
  (Path.segmentsOf path).filter (fun segment ↦ !Path.isSilent segment)

/-- Takes one entry of a directory from the disk. Links are taken with the real path that they lead
to; one that leads nowhere does so here too. What is neither a file nor a directory nor a link is
left out, and so is what cannot be looked at. -/
def take? : Nat → IO.FS.DirEntry → IO (Option Entry)
  | 0, _ => return none
  | depth + 1, item => do
      let found ← attempt? item.path.symlinkMetadata
      let kind : Option IO.FS.FileType := found.map (fun metadata ↦ metadata.type)
      match kind with
      | some .dir =>
          if item.fileName == repositoryMark then
            return some (.directory [])
          let inner := ((← attempt? item.path.readDir).getD #[]).toList
          let taken ← inner.filterMapM (fun other ↦ do
            return (← take? depth other).map (fun entry ↦ (other.fileName, entry)))
          return some (.directory taken)
      | some .file =>
          if isOfInterest item.fileName then
            let bytes ← attempt? (IO.FS.readBinFile item.path)
            return bytes.map (fun found ↦ .file (Content.ofBytes found.toList))
          else
            return some (.file (.text ""))
      | some .symlink => return some (.link ((← realPath? item.path.toString).getD impossibleName))
      | _ => return none

/-- The entries of a directory on the disk. -/
def itemsOf (directory : String) : IO (List IO.FS.DirEntry) := do
  let found ← attempt? do
    let real ← IO.FS.realPath directory
    real.readDir
  return (found.getD #[]).toList

/-- The directories on the way from the root to a place, the place included. -/
def stations (location : Location) : List Location :=
  (List.range (location.length + 1)).map location.take

/-- Puts entries of the directory at a real place into a tree. -/
def addItems (items : List IO.FS.DirEntry) (location : Location) (tree : FileTree) :
    IO FileTree := do
  let base := tree.insert location ((tree.root.find? location).getD (.directory []))
  items.foldlM
    (fun grown item ↦ do
      match ← take? nestingLimit item with
      | some entry => return grown.insert (location ++ [item.fileName]) entry
      | none => return grown)
    base

/-- Adds to a tree what the search for a configuration looks at in one directory. -/
def addMarks (location : Location) (tree : FileTree) : IO FileTree := do
  let items ← itemsOf (FileTree.pathOf location).text
  addItems (items.filter (fun item ↦ [repositoryMark, Config.fileName].contains item.fileName))
    location tree

/-- The directory that is taken whole for a project at this place: the innermost repository around
it, or the project itself, or the directory that holds it if it is none. -/
def scopeOf (tree : FileTree) (location : Location) (isDirectory : Bool) : Location :=
  let marked := (stations location).filter (fun station ↦
    (tree.root.find? (station ++ [repositoryMark])).isSome)
  marked.getLastD (if isDirectory then location else location.dropLast)

/-- The tree that a command on this project sees, with relative paths starting in the working
directory of the process. -/
def treeFor (project : Option Path) : IO FileTree := do
  let here := locationOf (← IO.FS.realPath (← IO.currentDir)).toString
  let start : FileTree ← (stations here).foldlM (fun tree station ↦ addMarks station tree)
    { FileTree.empty with workingDirectory := here }
  match project with
  | none => return start
  | some path =>
      match ← realPath? path.text with
      | none => return start
      | some real =>
          let location := locationOf real
          let isDirectory ← (← IO.FS.realPath real).isDir
          let marked ← (stations location).foldlM (fun tree station ↦ addMarks station tree) start
          let scope := scopeOf marked location isDirectory
          let taken ← addItems (← itemsOf (FileTree.pathOf scope).text) scope marked
          match taken.canonical path with
          | .ok _ => return taken
          | .error _ => return (taken.place path (.link real)).toOption.getD taken

end ComponentGraph.Disk
