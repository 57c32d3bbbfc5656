import ComponentGraph.FileTree.Lookup
import ComponentGraph.Options.Decode

/-!
Configuration files. The configuration that applies to a directory is the nearest one in it or in a
directory above it, as far up as the root of the repository: a directory that holds `.git` is the
last one looked at.
-/

set_option autoImplicit false
set_option relaxedAutoImplicit false

namespace ComponentGraph.Config

/-- The name of a configuration file. -/
def fileName : String := ".depictrc.json"

/-- The name that marks the root of a repository. -/
def repositoryMark : String := ".git"

/-! ### Finding the file -/

/-- The nearest configuration file from a directory upwards. Every step up shortens the path, so its
length is enough fuel. -/
def climb (tree : FileTree) : Nat → Path → Option Path
  | 0, _ => none
  | fuel + 1, directory =>
      if tree.has (directory.join fileName) then some (directory.join fileName)
      else if tree.has (directory.join repositoryMark) then none
      else
        match directory.parent? with
        | some above => climb tree fuel above
        | none => none

/-- The directory in which the search starts: the real one, or what the path says if there is no
real one. -/
def searchStart (tree : FileTree) (start : Path) : Path :=
  match tree.canonical start with
  | .ok path => path
  | .error _ =>
      match tree.absolute start with
      | .ok path => path
      | .error _ => start

/-- The configuration file that applies to a directory. -/
def find? (tree : FileTree) (start : Path) : Option Path :=
  let first := searchStart tree start
  climb tree (first.text.toList.length + 1) first

/-! ### Reading the file -/

/-- Why a configuration cannot be used. -/
inductive Problem where
  | unreadable (fault : FileTree.Fault)
  | unparsable (path : Path) (text : String) (failure : Json.Failure)
  | invalid (ignore : Options.InvalidIgnore)

/-- The wording of a problem. -/
def Problem.message : Problem → String
  | .unreadable fault => fault.message
  | .unparsable path text failure =>
      "Failed to parse config file: " ++ Text.Quoted.ofString path.text ++ ": " ++
        failure.message text
  | .invalid ignore => ignore.message

/-- The options in force, and whether a file gave them. -/
structure Loaded where
  options : Options
  fromFile : Bool
  deriving Repr, DecidableEq

/-- The options that a configuration file gives. -/
def readFile (tree : FileTree) (path : Path) : Except Problem Options :=
  match tree.readText path with
  | .error fault => .error (.unreadable fault)
  | .ok text =>
      match Options.parse text with
      | .error failure => .error (.unparsable path text failure)
      | .ok options =>
          match options.invalidIgnore? with
          | some ignore => .error (.invalid ignore)
          | none => .ok options

/-- The options in force for a directory: those of its configuration file, or the defaults. -/
def load (tree : FileTree) (start : Path) : Except Problem Loaded :=
  match find? tree start with
  | none => .ok ⟨{}, false⟩
  | some path => (readFile tree path).map (fun options ↦ ⟨options, true⟩)

end ComponentGraph.Config
