import ComponentGraph.FileTree.Entry

/-!
Looking up paths. A path is followed segment by segment from the root or from the working directory:
each segment needs a directory to be read in, `..` leads to the directory above, and a link is
replaced by its target, at most forty times for one path. `locate` gives the real place of what a
path names, and the questions asked of a tree (is it there, what kind is it, what does it hold) are
all answered from that place.
-/

set_option autoImplicit false
set_option relaxedAutoImplicit false

namespace ComponentGraph.FileTree

/-- Why a path cannot be used. -/
inductive Fault where
  | notFound
  | notDirectory
  | isDirectory
  | nameTooLong
  | tooManyLinks
  | zeroInName
  | notText
  | emptyPath
  deriving Repr, DecidableEq

/-- The wording of a fault. -/
def Fault.message : Fault → String
  | .notFound => "No such file or directory (os error 2)"
  | .notDirectory => "Not a directory (os error 20)"
  | .isDirectory => "Is a directory (os error 21)"
  | .nameTooLong => "File name too long (os error 36)"
  | .tooManyLinks => "Too many levels of symbolic links (os error 40)"
  | .zeroInName => "file name contained an unexpected NUL byte"
  | .notText => "stream did not contain valid UTF-8"
  | .emptyPath => "cannot make an empty path absolute"

/-! ### Following a path -/

/-- The number of links that may be replaced while one path is followed. -/
def linkLimit : Nat := 40

/-- The longest name, in bytes. -/
def nameLimit : Nat := 255

/-- The longest path, in bytes. -/
def pathLimit : Nat := 4095

/-- Whether a name that is missing may be the result: `existing` names only what is there,
`creating` also a name that could be added to a directory. -/
inductive Purpose where
  | existing
  | creating
  deriving Repr, DecidableEq

/-- What a missing name means. Nothing can be made under a name that a slash follows, since that
slash asks for a directory; under one that `.` or `..` follows there is nothing to look in. -/
def Purpose.atMissing : Purpose → Location → String → List String → Except Fault Location
  | .creating, location, name, [] => .ok (location ++ [name])
  | .creating, _, _, rest => .error (if rest.all String.isEmpty then .isDirectory else .notFound)
  | .existing, _, _, _ => .error .notFound

/-- Follows segments from a real place. What to do at a link, given its target, the segments after
it and the place of the directory that holds it, is left open. -/
def followSegments (root : Entry) (purpose : Purpose)
    (atLink : String → List String → Location → Except Fault Location) :
    List String → Location → Except Fault Location
  | [], location => .ok location
  | segment :: rest, location =>
      match root.find? location with
      | some (.directory entries) =>
          if Path.isSilent segment then followSegments root purpose atLink rest location
          else if segment = ".." then
            followSegments root purpose atLink rest location.dropLast
          else if nameLimit < segment.utf8ByteSize then .error .nameTooLong
          else
            match entries.lookup segment with
            | none => purpose.atMissing location segment rest
            | some (.link target) => atLink target rest location
            | some _ => followSegments root purpose atLink rest (location ++ [segment])
      | _ => .error .notDirectory

/-- The place at which the segments of a path start. -/
def startOf (path : String) (here : Location) : Location :=
  if Text.Search.beginsWith path "/" then [] else here

/-- Follows segments, replacing at most so many links. -/
def follow (root : Entry) (purpose : Purpose) :
    Nat → List String → Location → Except Fault Location
  | 0 => followSegments root purpose (fun _ _ _ ↦ .error .tooManyLinks)
  | links + 1 =>
      followSegments root purpose (fun target rest location ↦
        follow root purpose links (Path.segmentsOf target ++ rest) (startOf target location))

/-- The real place a path leads to. -/
def locateFor (purpose : Purpose) (tree : FileTree) (path : Path) : Except Fault Location :=
  if path.text.toList.contains (Char.ofNat 0) then .error .zeroInName
  else if path.text = "" then .error .notFound
  else if pathLimit < path.text.utf8ByteSize then .error .nameTooLong
  else
    follow tree.root purpose linkLimit (Path.segmentsOf path.text)
      (startOf path.text tree.workingDirectory)

/-- The real place of what a path names. -/
def locate (tree : FileTree) (path : Path) : Except Fault Location :=
  locateFor .existing tree path

/-! ### Questions -/

/-- The path of a real place. -/
def pathOf (location : Location) : Path :=
  Path.assemble .root location

/-- What a path names, its links followed. -/
def entry (tree : FileTree) (path : Path) : Except Fault Entry := do
  let location ← tree.locate path
  match tree.root.find? location with
  | some found => .ok found
  | none => .error .notFound

/-- Whether a path names anything. -/
def has (tree : FileTree) (path : Path) : Bool :=
  match tree.entry path with
  | .ok _ => true
  | .error _ => false

/-- Whether a path names a file. -/
def hasFile (tree : FileTree) (path : Path) : Bool :=
  match tree.entry path with
  | .ok found => found.isFile
  | .error _ => false

/-- Whether a path names a directory. -/
def hasDirectory (tree : FileTree) (path : Path) : Bool :=
  match tree.entry path with
  | .ok found => found.isDirectory
  | .error _ => false

/-- The text of the file that a path names. -/
def readText (tree : FileTree) (path : Path) : Except Fault String := do
  match ← tree.entry path with
  | .file (.text text) => .ok text
  | .file (.bytes _) => .error .notText
  | _ => .error .isDirectory

/-- The absolute path, free of links, of what a path names. -/
def canonical (tree : FileTree) (path : Path) : Except Fault Path :=
  (tree.locate path).map pathOf

/-- A path made absolute by its text alone. The names are kept, `..` included, and so is a slash at
the end; exactly two slashes in front stay two. -/
def absolute (tree : FileTree) (path : Path) : Except Fault Path :=
  if path.text = "" then .error .emptyPath
  else
    let names := Path.joinSegments path.key.names
    let base :=
      if path.isAbsolute then
        if Text.Search.beginsWith path.text "//" && !Text.Search.beginsWith path.text "///" then
          (Path.mk ("//" ++ names))
        else (Path.mk ("/" ++ names))
      else path.key.names.foldl Path.join (pathOf tree.workingDirectory)
    .ok (if Text.Search.endsWith path.text "/" then base.join "" else base)

end ComponentGraph.FileTree
