import ComponentGraph.FileTree.Walk

/-!
What files hold does not matter to paths. If the contents of files are changed, each in a way that
may depend on the name of the file, every path leads to the same place (`locate_revise`), to the
same kind of entry (`entry_revise`), and a walk comes across the same things (`walk_revise`).
-/

set_option autoImplicit false
set_option relaxedAutoImplicit false

namespace ComponentGraph.FileTree

/-! ### Entries -/

namespace Entry

mutual

/-- The entry of this name with the contents of files changed. -/
def revise (change : String → Content → Content) (name : String) : Entry → Entry
  | .file content => .file (change name content)
  | .directory entries => .directory (reviseNamed change entries)
  | .link target => .link target

/-- Named entries with the contents of files changed. -/
def reviseNamed (change : String → Content → Content) :
    List (String × Entry) → List (String × Entry)
  | [] => []
  | (name, entry) :: rest => (name, revise change name entry) :: reviseNamed change rest

end

variable (change : String → Content → Content)

theorem lookup_reviseNamed (entries : List (String × Entry)) (name : String) :
    (reviseNamed change entries).lookup name = (entries.lookup name).map (revise change name) := by
  induction entries with
  | nil => rfl
  | cons named rest ih =>
    rw [reviseNamed, List.lookup_cons, List.lookup_cons]
    cases hname : name == named.1 with
    | true => rw [beq_iff_eq.mp hname, Option.map_some]
    | false => exact ih

theorem map_fst_reviseNamed (entries : List (String × Entry)) :
    (reviseNamed change entries).map Prod.fst = entries.map Prod.fst := by
  induction entries with
  | nil => rfl
  | cons named rest ih => rw [reviseNamed, List.map_cons, List.map_cons, ih]

theorem child?_revise (entry : Entry) (name child : String) :
    (entry.revise change name).child? child = (entry.child? child).map (revise change child) := by
  cases entry with
  | file content => rfl
  | link target => rfl
  | directory entries => exact lookup_reviseNamed change entries child

theorem find?_revise (entry : Entry) (name : String) (location : Location) :
    (entry.revise change name).find? location =
      (entry.find? location).map (revise change (location.getLastD name)) := by
  induction location generalizing entry name with
  | nil => rfl
  | cons child rest ih =>
    rw [find?, find?, child?_revise]
    cases entry.child? child with
    | none => rfl
    | some next => rw [List.getLastD_cons, ← ih next child, Option.map_some]

mutual

theorem directoryCount_revise (name : String) :
    (entry : Entry) → (entry.revise change name).directoryCount = entry.directoryCount
  | .file _ => rfl
  | .link _ => rfl
  | .directory entries => by
    rw [revise, directoryCount, directoryCount, directoryCounts_reviseNamed entries]

theorem directoryCounts_reviseNamed :
    (entries : List (String × Entry)) →
      directoryCounts (reviseNamed change entries) = directoryCounts entries
  | [] => rfl
  | (name, entry) :: rest => by
    rw [reviseNamed, directoryCounts, directoryCounts, directoryCount_revise name entry,
      directoryCounts_reviseNamed rest]

end

@[simp] theorem isFile_revise (entry : Entry) (name : String) :
    (entry.revise change name).isFile = entry.isFile := by
  cases entry <;> rfl

@[simp] theorem isDirectory_revise (entry : Entry) (name : String) :
    (entry.revise change name).isDirectory = entry.isDirectory := by
  cases entry <;> rfl

end Entry

/-! ### Paths -/

/-- The tree with the contents of files changed. -/
def revise (change : String → Content → Content) (tree : FileTree) : FileTree :=
  { tree with root := tree.root.revise change "" }

/-- The name under which a directory holds what a path leads to. -/
def nameAt (tree : FileTree) (path : Path) : String :=
  match tree.locate path with
  | .ok location => location.getLastD ""
  | .error _ => ""

section Paths

variable (change : String → Content → Content)

theorem followSegments_revise (root : Entry) (name : String) (purpose : Purpose)
    (atLink : String → List String → Location → Except Fault Location) (segments : List String)
    (location : Location) :
    followSegments (root.revise change name) purpose atLink segments location =
      followSegments root purpose atLink segments location := by
  induction segments generalizing location with
  | nil => rfl
  | cons segment rest ih =>
    rw [followSegments, followSegments, Entry.find?_revise]
    cases root.find? location with
    | none => rfl
    | some found =>
      cases found with
      | file content => rfl
      | link target => rfl
      | directory entries =>
        simp only [Option.map_some, Entry.revise, Entry.lookup_reviseNamed, ih]
        cases entries.lookup segment with
        | none => rfl
        | some next => cases next <;> rfl

theorem follow_revise (root : Entry) (name : String) (purpose : Purpose) (links : Nat) :
    follow (root.revise change name) purpose links = follow root purpose links := by
  induction links with
  | zero =>
    funext segments location
    exact followSegments_revise change root name purpose _ segments location
  | succ links ih =>
    funext segments location
    rw [follow, follow, ih]
    exact followSegments_revise change root name purpose _ segments location

variable (tree : FileTree)

theorem locate_revise (path : Path) : (tree.revise change).locate path = tree.locate path := by
  rw [locate, locateFor, locate, locateFor, revise, follow_revise]

theorem entry_revise (path : Path) :
    (tree.revise change).entry path =
      (tree.entry path).map (Entry.revise change (tree.nameAt path)) := by
  rw [entry, entry, locate_revise, nameAt]
  cases tree.locate path with
  | error fault => rfl
  | ok location =>
    simp only [bind, Except.bind, revise, Entry.find?_revise]
    cases tree.root.find? location <;> rfl

theorem hasFile_revise (path : Path) : (tree.revise change).hasFile path = tree.hasFile path := by
  rw [hasFile, hasFile, entry_revise]
  cases tree.entry path with
  | error fault => rfl
  | ok found => exact Entry.isFile_revise change found _

theorem hasDirectory_revise (path : Path) :
    (tree.revise change).hasDirectory path = tree.hasDirectory path := by
  rw [hasDirectory, hasDirectory, entry_revise]
  cases tree.entry path with
  | error fault => rfl
  | ok found => exact Entry.isDirectory_revise change found _

/-! ### Walks -/

theorem sortedNames_revise (root : Entry) (name : String) (location : Location) :
    sortedNames (root.revise change name) location = sortedNames root location := by
  rw [sortedNames, sortedNames, Entry.find?_revise]
  cases root.find? location with
  | none => rfl
  | some found =>
    cases found with
    | file content => rfl
    | link target => rfl
    | directory entries =>
      simp only [Option.map_some, Entry.revise, Entry.map_fst_reviseNamed]

theorem sightName_revise (excluded : Exclusion) (enter : Path → Location → List Sighting)
    (opened : List OpenDirectory) (path : Path) (location : Location) (name : String) :
    sightName (tree.revise change) excluded enter opened path location name =
      sightName tree excluded enter opened path location name := by
  rw [sightName, sightName, locate_revise, revise, Entry.find?_revise]
  cases tree.root.find? (location ++ [name]) with
  | none => rfl
  | some found =>
    cases found with
    | file content => rfl
    | directory entries => rfl
    | link link =>
      simp only [Option.map_some, Entry.revise]
      cases tree.locate (path.join name) with
      | error fault => rfl
      | ok target =>
        simp only [Entry.find?_revise]
        cases tree.root.find? target with
        | none => rfl
        | some reached => cases reached <;> rfl

theorem walkBelow_revise (excluded : Exclusion) (depth : Nat) (opened : List OpenDirectory)
    (path : Path) (location : Location) :
    walkBelow (tree.revise change) excluded depth opened path location =
      walkBelow tree excluded depth opened path location := by
  induction depth generalizing opened path location with
  | zero => rfl
  | succ depth ih =>
    have hbelow (nowOpen : List OpenDirectory) :
        walkBelow (tree.revise change) excluded depth nowOpen =
          walkBelow tree excluded depth nowOpen := by
      funext path location
      exact ih nowOpen path location
    rw [walkBelow, walkBelow, hbelow, revise, sortedNames_revise]
    congr 2
    funext name
    exact sightName_revise change tree ..

/-- A walk does not look into files. -/
theorem walk_revise (excluded : Exclusion) (start : Path) :
    (tree.revise change).walk excluded start = tree.walk excluded start := by
  have hlimit : (tree.revise change).depthLimit = tree.depthLimit := by
    rw [depthLimit, depthLimit, revise, Entry.directoryCount_revise]
  rw [walk, walk, locate_revise, hlimit]
  cases tree.locate start with
  | error fault => rfl
  | ok location =>
    simp only [walkBelow_revise]
    rw [revise, Entry.find?_revise]
    cases tree.root.find? location with
    | none => rfl
    | some found => cases found <;> rfl

end Paths

end ComponentGraph.FileTree
