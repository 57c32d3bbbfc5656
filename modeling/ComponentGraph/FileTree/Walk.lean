import ComponentGraph.FileTree.Lookup

/-!
A walk through a directory and everything below it. The entries of a directory come in the order of
their names, a directory before what it holds, and links are followed. A caller's rule may exclude
entries below the starting point; an excluded directory is not entered. A link that leads nowhere,
and a link to a directory that the walk is already inside of, are faults of the walk: they are
reported even when the name is excluded, and the walk goes on behind them. A directory whose path is
longer than the system takes is come across, but it cannot be read; that is a fault too.

Only links can lead back to an open directory, and each link that is followed opens a directory that
was not open, so no walk is nested deeper than `depthLimit`.
-/

set_option autoImplicit false
set_option relaxedAutoImplicit false

namespace ComponentGraph.FileTree

/-- What a walk comes across. -/
inductive Sighting where
  | file (path : Path)
  | directory (path : Path)
  | inaccessible (path : Path) (fault : Fault)
  | loop (path : Path) (ancestor : Path)
  deriving Repr, DecidableEq

/-- A directory that the walk is inside of: the path it was reached by and its real place. -/
structure OpenDirectory where
  path : Path
  location : Location
  deriving Repr, DecidableEq

/-- A rule that keeps entries out of a walk, by path and name. -/
abbrev Exclusion := Path → String → Bool

/-- The names in a directory, sorted. -/
def sortedNames (root : Entry) (location : Location) : List String :=
  match root.find? location with
  | some (.directory entries) =>
      (entries.map Prod.fst).mergeSort (fun first second ↦ decide (first ≤ second))
  | _ => []

/-- What the walk makes of one name in an open directory. Entering a directory, given its path and
its real place, is left open. -/
def sightName (tree : FileTree) (excluded : Exclusion) (enter : Path → Location → List Sighting)
    (opened : List OpenDirectory) (path : Path) (location : Location) (name : String) :
    List Sighting :=
  let child := path.join name
  let unlessExcluded (sightings : List Sighting) : List Sighting :=
    if excluded child name then [] else sightings
  match tree.root.find? (location ++ [name]) with
  | some (.file _) => unlessExcluded [.file child]
  | some (.directory _) =>
      unlessExcluded (.directory child :: enter child (location ++ [name]))
  | some (.link _) =>
      match tree.locate child with
      | .error fault => [.inaccessible child fault]
      | .ok target =>
          match tree.root.find? target with
          | some (.directory _) =>
              match opened.find? (fun directory ↦ directory.location == target) with
              | some ancestor => [.loop child ancestor.path]
              | none => unlessExcluded (.directory child :: enter child target)
          | _ => unlessExcluded [.file child]
  | none => []

/-- The walk below a directory, nested at most so deep. The directories that are open come innermost
first. A directory is read by its path, which must not be too long. -/
def walkBelow (tree : FileTree) (excluded : Exclusion) :
    Nat → List OpenDirectory → Path → Location → List Sighting
  | 0, _, _, _ => []
  | depth + 1, opened, path, location =>
      let nowOpen := ⟨path, location⟩ :: opened
      if pathLimit < path.text.utf8ByteSize then [.inaccessible path .nameTooLong]
      else
        (sortedNames tree.root location).flatMap
          (sightName tree excluded (walkBelow tree excluded depth nowOpen) nowOpen path location)

/-- How deep a walk may be nested. -/
def depthLimit (tree : FileTree) : Nat :=
  (tree.root.directoryCount + 1) * (tree.root.directoryCount + 1)

/-- The walk from a path, which itself is never excluded. -/
def walk (tree : FileTree) (excluded : Exclusion) (start : Path) : List Sighting :=
  match tree.locate start with
  | .error fault => [.inaccessible start fault]
  | .ok location =>
      match tree.root.find? location with
      | some (.directory _) =>
          .directory start :: walkBelow tree excluded tree.depthLimit [] start location
      | _ => [.file start]

end ComponentGraph.FileTree
