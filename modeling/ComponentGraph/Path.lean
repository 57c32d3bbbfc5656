import ComponentGraph.Text.Search

/-!
A path is a text of segments with slashes between them. It is kept as it was written or joined,
because that text is what messages show and what patterns are matched against. Two paths stand for
the same key when they have the same anchor and the same names: empty segments and a `.` after the
beginning say nothing, whereas `..` is a name like any other until a path is cleaned. `clean` is the
lexical normal form, in which `..` takes back the name before it.
-/

set_option autoImplicit false
set_option relaxedAutoImplicit false

namespace ComponentGraph

/-- A path, as written. -/
structure Path where
  text : String
  deriving Repr, DecidableEq, Inhabited

namespace Path

/-! ### Segments -/

/-- The pieces of the characters between slashes. Characters without a slash are one piece. -/
def pieces : List Char → List (List Char)
  | [] => [[]]
  | character :: rest =>
      if character = '/' then [] :: pieces rest
      else
        match pieces rest with
        | [] => [[character]]
        | piece :: later => (character :: piece) :: later

/-- The segments of a text, in order. -/
def segmentsOf (text : String) : List String :=
  (pieces text.toList).map String.ofList

/-- The segments with a slash between each two. -/
def joinSegments : List String → String
  | [] => ""
  | [segment] => segment
  | segment :: rest => segment ++ "/" ++ joinSegments rest

/-- Segments that do not move: the empty one, as between two slashes, and the dot. -/
def isSilent (segment : String) : Bool :=
  segment == "" || segment == "."

/-! ### Anchor and names -/

/-- Where a path starts: at the root, at the present place written out as `.`, or at the present
place by having nothing in front. -/
inductive Anchor where
  | root
  | here
  | bare
  deriving Repr, DecidableEq

/-- The anchor of a path and the segments after it. -/
def anchored (path : Path) : Anchor × List String :=
  match segmentsOf path.text with
  | "" :: first :: rest => (.root, first :: rest)
  | "." :: rest => (.here, rest)
  | segments => (.bare, segments)

/-- The anchor and the segments put together again. -/
def assemble : Anchor → List String → Path
  | .root, segments => ⟨"/" ++ joinSegments segments⟩
  | .here, [] => ⟨"."⟩
  | .here, segments => ⟨"./" ++ joinSegments segments⟩
  | .bare, segments => ⟨joinSegments segments⟩

/-- What identifies a path: its anchor and its names. -/
structure Key where
  anchor : Anchor
  names : List String
  deriving Repr, DecidableEq

/-- The key of a path. -/
def key (path : Path) : Key :=
  ⟨path.anchored.1, path.anchored.2.filter (fun segment ↦ !isSilent segment)⟩

/-- Whether two paths have one key. -/
def sameKey (first second : Path) : Bool :=
  first.key == second.key

/-- Whether a path starts at the root. -/
def isAbsolute (path : Path) : Bool :=
  path.key.anchor == .root

/-- The last name, unless it is `..` or there is none. -/
def fileName? (path : Path) : Option String :=
  match path.key.names.getLast? with
  | some name => if name == ".." then none else some name
  | none => none

/-- The path without its last name, trimmed of the silent segments before and after it. A lone `.`
leaves the empty path; the root and the empty path have nothing above them. -/
def parent? (path : Path) : Option Path :=
  let (anchor, segments) := path.anchored
  match segments.reverse.dropWhile isSilent with
  | [] => if anchor == .here then some ⟨""⟩ else none
  | _ :: before => some (assemble anchor (before.dropWhile isSilent).reverse)

/-! ### Joining and cleaning -/

/-- A path read from a directory: an absolute one stands for itself, any other follows the
directory after one slash. -/
def join (directory : Path) (path : String) : Path :=
  if Text.Search.beginsWith path "/" then ⟨path⟩
  else if directory.text == "" || Text.Search.endsWith directory.text "/" then
    ⟨directory.text ++ path⟩
  else ⟨directory.text ++ "/" ++ path⟩

/-- One name of a path read onto the names before it, the latest first. A `..` takes the latest name
back; with none to take it stays, except at the root, which has nothing above. -/
def stepClean (anchor : Anchor) (latest : List String) (name : String) : List String :=
  if name == ".." then
    match latest with
    | [] => if anchor == .root then [] else [".."]
    | top :: below => if top == ".." then ".." :: latest else below
  else name :: latest

/-- The names of a path after every `..` has taken back what it can. -/
def cleanNames (anchor : Anchor) (names : List String) : List String :=
  (names.foldl (stepClean anchor) []).reverse

/-- The lexical normal form of a path. A path with nothing left is `.`. -/
def clean (path : Path) : Path :=
  match path.key.anchor, cleanNames path.key.anchor path.key.names with
  | .root, names => assemble .root names
  | _, [] => assemble .here []
  | _, names => assemble .bare names

end Path

end ComponentGraph
