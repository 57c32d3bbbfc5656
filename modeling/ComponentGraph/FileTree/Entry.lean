import ComponentGraph.Path

/-!
A file tree is held as a value. An entry is a file, a directory of named entries, or a symbolic link
to another path, and a real place in the tree is the list of names that leads to it from the root
without passing a link. A `FileTree` is a root directory together with the place where relative
paths start.
-/

set_option autoImplicit false
set_option relaxedAutoImplicit false

namespace ComponentGraph

/-- A real place: the names from the root down, none of them a link. -/
abbrev Location := List String

namespace FileTree

/-- What a file holds: a text, or bytes that are not the encoding of any text. -/
inductive Content where
  | text (text : String)
  | bytes (bytes : List UInt8)
  deriving Repr, DecidableEq, Inhabited

/-- The content with these bytes. -/
def Content.ofBytes (bytes : List UInt8) : Content :=
  match String.fromUTF8? (ByteArray.mk bytes.toArray) with
  | some decoded => .text decoded
  | none => .bytes bytes

/-- One entry of a tree. Names that are no UTF-8 and permissions are left out: a name is a text, and
there is nothing that may not be read, listed or written. -/
inductive Entry where
  | file (content : Content)
  | directory (entries : List (String × Entry))
  | link (target : String)
  deriving Repr, Inhabited

namespace Entry

/-- The entry of this name in a directory. -/
def child? (entry : Entry) (name : String) : Option Entry :=
  match entry with
  | .directory entries => entries.lookup name
  | _ => none

/-- The entry at a place below this one. -/
def find? (entry : Entry) : Location → Option Entry
  | [] => some entry
  | name :: rest =>
      match entry.child? name with
      | some next => next.find? rest
      | none => none

/-- Whether the entry is a directory. -/
def isDirectory : Entry → Bool
  | .directory _ => true
  | _ => false

/-- Whether the entry is a file. -/
def isFile : Entry → Bool
  | .file _ => true
  | _ => false

mutual

/-- The number of directories in an entry, itself included. -/
def directoryCount : Entry → Nat
  | .file _ => 0
  | .link _ => 0
  | .directory entries => directoryCounts entries + 1

/-- The number of directories among named entries and below them. -/
def directoryCounts : List (String × Entry) → Nat
  | [] => 0
  | (_, entry) :: rest => directoryCount entry + directoryCounts rest

end

/-- The named entries with the one of this name changed; a name that was missing is added at the
end. -/
def changeNamed (name : String) (change : Option Entry → Entry) :
    List (String × Entry) → List (String × Entry)
  | [] => [(name, change none)]
  | (other, entry) :: rest =>
      if other = name then (name, change (some entry)) :: rest
      else (other, entry) :: changeNamed name change rest

/-- The entry with a new one put at a place below it. Directories that are missing on the way are
made; an entry on the way that is no directory stays as it is. -/
def insert (new : Entry) : Location → Entry → Entry
  | [], _ => new
  | name :: rest, .directory entries =>
      .directory (changeNamed name (fun old ↦ insert new rest (old.getD (.directory []))) entries)
  | _, entry => entry

end Entry

end FileTree

/-- A file tree and the place in it where relative paths start. -/
structure FileTree where
  root : FileTree.Entry
  workingDirectory : Location
  deriving Repr, Inhabited

/-- A tree with nothing in it. -/
def FileTree.empty : FileTree :=
  ⟨.directory [], []⟩

end ComponentGraph
