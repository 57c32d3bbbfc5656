import ComponentGraph.FileTree.Lookup

/-!
Changing a tree: writing a file, making a directory with those above it, and placing an entry of any
kind. Links on the way are followed, so what is written through a link ends up at its target.
-/

set_option autoImplicit false
set_option relaxedAutoImplicit false

namespace ComponentGraph.FileTree

/-- The tree with an entry put at a real place. -/
def insert (tree : FileTree) (location : Location) (new : Entry) : FileTree :=
  { tree with root := Entry.insert new location tree.root }

/-- Writes a text to the file that a path names, or to a new file if only its last name is
missing. -/
def write (tree : FileTree) (path : Path) (text : String) : Except Fault FileTree := do
  let location ← locateFor .creating tree path
  match tree.root.find? location with
  | some (.directory _) => .error .isDirectory
  | _ => .ok (tree.insert location (.file (.text text)))

/-- One segment of a path whose directories are made as needed. -/
def enterSegment (state : FileTree × Location) (segment : String) :
    Except Fault (FileTree × Location) :=
  let (tree, location) := state
  match follow tree.root .creating linkLimit [segment] location with
  | .error fault => .error fault
  | .ok next =>
      match tree.root.find? next with
      | some _ => .ok (tree, next)
      | none => .ok (tree.insert next (.directory []), next)

/-- Makes the directory that a path names and every missing one above it; gives its real place. -/
def makeDirectory (tree : FileTree) (path : Path) : Except Fault (FileTree × Location) :=
  (Path.segmentsOf path.text).foldlM enterSegment (tree, startOf path.text tree.workingDirectory)

/-- Puts an entry under the last name of a path, making the directories above it. -/
def place (tree : FileTree) (path : Path) (new : Entry) : Except Fault FileTree :=
  match path.parent?, path.fileName? with
  | some above, some name => do
      let (made, location) ← tree.makeDirectory above
      .ok (made.insert (location ++ [name]) new)
  | _, _ => .error .isDirectory

/-- Makes the directory that a path names, if it is missing, and starts relative paths there. -/
def enter (tree : FileTree) (path : Path) : Except Fault FileTree := do
  let (made, location) ← tree.makeDirectory path
  .ok { made with workingDirectory := location }

end ComponentGraph.FileTree
