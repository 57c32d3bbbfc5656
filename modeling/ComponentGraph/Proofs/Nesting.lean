import ComponentGraph.Proofs.Arrangement
import ComponentGraph.Proofs.Repetition
import Mathlib.Data.String.Basic

/-!
# How deep a walk goes

Links are followed, so the paths of a walk are an unfolding of the tree, which is infinite where a
link leads back up. `Way` is any way down through that unfolding. The walk goes down a way as long
as it may: it reads the directory, the next name is not excluded, and a link does not lead to a
directory on the way (`Enters`). A plain subdirectory is not compared with anything, so a directory
can be open twice; what cannot happen is that two links on a way lead to one directory.

That is what bounds the depth. The way is cut at its links into runs of plain subdirectories, whose
places get longer and longer, so a run has no more directories than the tree (`Way.nodup_runOf`).
The runs start at different directories, so there are no more runs than directories either
(`Descent.nodup_basesOf`). Together they give `Descent.length_le`. The depth that a walk is given is
therefore never used up, and a walk that is given more comes across the same
(`Descent.walkStage_eq`).

What a walk comes across at a directory and below it is a block of its own
(`Descent.filter_walk`), and within the block each name of the directory has its own block
(`Descent.filter_walk_name`). That of a link to an open directory is one remark, and it does not
touch the blocks of the other names.
-/

set_option autoImplicit false
set_option relaxedAutoImplicit false

namespace ComponentGraph.FileTree

/-! ### Ways down -/

/-- A directory on a way down: the path it was reached by, its real place, and whether a link was
followed to it. -/
structure Stage where
  path : Path
  location : Location
  byLink : Bool
  deriving Repr, DecidableEq

/-- The directory of a stage, as the walk keeps it. -/
def Stage.opened (stage : Stage) : OpenDirectory :=
  ⟨stage.path, stage.location⟩

/-- One step down under a name: to a subdirectory, or along a link to a directory. -/
inductive Step (tree : FileTree) (stage : Stage) (name : String) : Stage → Prop where
  | down {entries : List (String × Entry)}
      (hdirectory : tree.root.find? (stage.location ++ [name]) = some (.directory entries)) :
      Step tree stage name ⟨stage.path.join name, stage.location ++ [name], false⟩
  | follow {link : String} {target : Location} {entries : List (String × Entry)}
      (hlink : tree.root.find? (stage.location ++ [name]) = some (.link link))
      (htarget : tree.locate (stage.path.join name) = .ok target)
      (hdirectory : tree.root.find? target = some (.directory entries)) :
      Step tree stage name ⟨stage.path.join name, target, true⟩

/-- The directories on a way down from a start, innermost first, whether a walk goes there or
not. -/
inductive Way (tree : FileTree) (start : Path) : List Stage → Prop where
  | start {location : Location} {entries : List (String × Entry)}
      (hstart : tree.locate start = .ok location)
      (hdirectory : tree.root.find? location = some (.directory entries)) :
      Way tree start [⟨start, location, false⟩]
  | step {stage next : Stage} {above : List Stage} {name : String}
      (hway : Way tree start (stage :: above)) (hstep : Step tree stage name next) :
      Way tree start (next :: stage :: above)

/-- Whether a walk that is inside of the stages enters the next one under a name: it is not
excluded, and if a link was followed to it, it is not open. -/
structure Enters (excluded : Exclusion) (stages : List Stage) (name : String) (next : Stage) :
    Prop where
  kept : excluded next.path name = false
  fresh : next.byLink = true → next.location ∉ stages.map Stage.location

/-- The ways that a walk goes down. -/
inductive Descent (tree : FileTree) (excluded : Exclusion) (start : Path) : List Stage → Prop where
  | start {location : Location} {entries : List (String × Entry)}
      (hstart : tree.locate start = .ok location)
      (hdirectory : tree.root.find? location = some (.directory entries)) :
      Descent tree excluded start [⟨start, location, false⟩]
  | step {stage next : Stage} {above : List Stage} {name : String}
      (hway : Descent tree excluded start (stage :: above))
      (hread : stage.path.text.utf8ByteSize ≤ pathLimit) (hstep : Step tree stage name next)
      (henters : Enters excluded (stage :: above) name next) :
      Descent tree excluded start (next :: stage :: above)

section Steps

variable {tree : FileTree} {stage next other : Stage} {name : String}

theorem Step.path_eq (hstep : Step tree stage name next) : next.path = stage.path.join name := by
  cases hstep <;> rfl

theorem Step.directory (hstep : Step tree stage name next) :
    ∃ entries, tree.root.find? next.location = some (.directory entries) := by
  cases hstep with
  | down hdirectory => exact ⟨_, hdirectory⟩
  | follow _ _ hdirectory => exact ⟨_, hdirectory⟩

theorem Step.eq (hnext : Step tree stage name next) (hother : Step tree stage name other) :
    next = other := by
  cases hnext with
  | down hdirectory =>
    cases hother with
    | down => rfl
    | follow hlink =>
      rw [hdirectory] at hlink
      cases hlink
  | follow hlink htarget =>
    cases hother with
    | down hdirectory =>
      rw [hdirectory] at hlink
      cases hlink
    | follow _ hother =>
      rw [htarget] at hother
      cases hother
      rfl

theorem Step.mem_sortedNames (hstep : Step tree stage name next) :
    name ∈ sortedNames tree.root stage.location := by
  rw [FileTree.mem_sortedNames]
  cases hstep with
  | down hdirectory => rw [hdirectory]; rfl
  | follow hlink => rw [hlink]; rfl

end Steps

theorem Descent.way {tree : FileTree} {excluded : Exclusion} {start : Path} {stages : List Stage}
    (hdescent : Descent tree excluded start stages) : Way tree start stages := by
  induction hdescent with
  | start hstart hdirectory => exact .start hstart hdirectory
  | step _ _ hstep _ ih => exact .step ih hstep

theorem Way.directory {tree : FileTree} {start : Path} {stages : List Stage}
    (hway : Way tree start stages) : ∀ stage ∈ stages, ∃ entries,
      tree.root.find? stage.location = some (.directory entries) := by
  induction hway with
  | start _ hdirectory => exact List.forall_mem_singleton.mpr ⟨_, hdirectory⟩
  | step _ hstep ih => exact List.forall_mem_cons.mpr ⟨hstep.directory, ih⟩

/-! ### The depth -/

namespace Entry

mutual

/-- The places of the directories in an entry, its own included. -/
def directories : Entry → List Location
  | .file _ => []
  | .link _ => []
  | .directory entries => [] :: directoriesNamed entries

/-- The places of the directories in named entries. -/
def directoriesNamed : List (String × Entry) → List Location
  | [] => []
  | (name, entry) :: rest => (directories entry).map (name :: ·) ++ directoriesNamed rest

end

mutual

theorem length_directories (entry : Entry) : entry.directories.length = entry.directoryCount := by
  cases entry with
  | file content => rfl
  | link target => rfl
  | directory entries =>
    rw [directories, List.length_cons, length_directoriesNamed entries, directoryCount]

theorem length_directoriesNamed (entries : List (String × Entry)) :
    (directoriesNamed entries).length = directoryCounts entries := by
  cases entries with
  | nil => rfl
  | cons named rest =>
    rw [directoriesNamed, List.length_append, List.length_map, length_directories named.2,
      length_directoriesNamed rest, directoryCounts]

end

theorem cons_mem_directoriesNamed {entries : List (String × Entry)} {name : String} {entry : Entry}
    (hentry : (name, entry) ∈ entries) {place : Location} (hplace : place ∈ entry.directories) :
    name :: place ∈ directoriesNamed entries := by
  induction entries with
  | nil => cases hentry
  | cons named rest ih =>
    rw [directoriesNamed, List.mem_append]
    rcases List.mem_cons.mp hentry with rfl | hlater
    · exact Or.inl (List.mem_map_of_mem hplace)
    · exact Or.inr (ih hlater)

theorem mem_directories_of_find? {entry : Entry} {place : Location}
    {children : List (String × Entry)} (hfound : entry.find? place = some (.directory children)) :
    place ∈ entry.directories := by
  induction place generalizing entry with
  | nil =>
    cases hfound
    exact List.mem_cons_self
  | cons name rest ih =>
    cases entry with
    | file content => cases hfound
    | link target => cases hfound
    | directory entries =>
      rw [find?, child?] at hfound
      cases hlookup : entries.lookup name with
      | none => simp [hlookup] at hfound
      | some next =>
        simp only [hlookup] at hfound
        exact List.mem_cons_of_mem _
          (cons_mem_directoriesNamed (mem_of_lookup hlookup) (ih hfound))

/-- There are no more different directories than there are directories. -/
theorem length_le_directoryCount {entry : Entry} {places : List Location} (hnodup : places.Nodup)
    (hplaces : ∀ place ∈ places, ∃ children, entry.find? place = some (.directory children)) :
    places.length ≤ entry.directoryCount := by
  rw [← length_directories]
  refine (hnodup.subperm fun place hplace ↦ ?_).length_le
  obtain ⟨children, hfound⟩ := hplaces place hplace
  exact mem_directories_of_find? hfound

end Entry

/-- The places of the directories since the last link, innermost first. -/
def runOf : List Stage → List Location
  | [] => []
  | stage :: above => if stage.byLink then [stage.location] else stage.location :: runOf above

/-- The places at which runs of plain subdirectories begin: the start and the targets of the
links. -/
def basesOf : List Stage → List Location
  | [] => []
  | [stage] => [stage.location]
  | stage :: above => if stage.byLink then stage.location :: basesOf above else basesOf above

section Depth

variable {tree : FileTree} {excluded : Exclusion} {start : Path} {stages : List Stage}

theorem mem_of_mem_runOf {place : Location} (hplace : place ∈ runOf stages) :
    place ∈ stages.map Stage.location := by
  induction stages with
  | nil => cases hplace
  | cons stage above ih =>
    rw [runOf] at hplace
    split at hplace
    · rw [List.mem_singleton.mp hplace]
      exact List.mem_cons_self
    · rcases List.mem_cons.mp hplace with rfl | habove
      · exact List.mem_cons_self
      · exact List.mem_cons_of_mem _ (ih habove)

theorem mem_of_mem_basesOf {place : Location} (hplace : place ∈ basesOf stages) :
    place ∈ stages.map Stage.location := by
  induction stages with
  | nil => cases hplace
  | cons stage above ih =>
    cases above with
    | nil => exact hplace
    | cons next rest =>
      rw [basesOf] at hplace
      · split at hplace
        · rcases List.mem_cons.mp hplace with rfl | habove
          · exact List.mem_cons_self
          · exact List.mem_cons_of_mem _ (ih habove)
        · exact List.mem_cons_of_mem _ (ih hplace)
      · exact List.cons_ne_nil _ _

/-- In a run every directory lies deeper than those above it. -/
theorem Way.nodup_runOf (hway : Way tree start stages) :
    (runOf stages).Nodup ∧ ∀ stage ∈ stages.head?, ∀ place ∈ runOf stages,
      place.length ≤ stage.location.length := by
  induction hway with
  | start => simp [runOf]
  | @step stage next above name hway hstep ih =>
    obtain ⟨hnodup, hlength⟩ := ih
    cases hstep with
    | follow => simp [runOf]
    | down =>
      have hshorter : ∀ place ∈ runOf (stage :: above), place.length ≤ stage.location.length :=
        hlength stage rfl
      have hnew : stage.location ++ [name] ∉ runOf (stage :: above) := fun hmem ↦ by
        have hle := hshorter _ hmem
        rw [List.length_append, List.length_singleton] at hle
        omega
      have hrun : ∀ path, runOf (⟨path, stage.location ++ [name], false⟩ :: stage :: above) =
          (stage.location ++ [name]) :: runOf (stage :: above) := fun _ ↦ rfl
      rw [hrun]
      refine ⟨List.nodup_cons.mpr ⟨hnew, hnodup⟩, fun other hother ↦ ?_⟩
      cases hother
      refine List.forall_mem_cons.mpr ⟨le_rfl, fun place hplace ↦ ?_⟩
      have hle := hshorter place hplace
      rw [List.length_append, List.length_singleton]
      omega

/-- No two runs begin at the same directory. -/
theorem Descent.nodup_basesOf (hdescent : Descent tree excluded start stages) :
    (basesOf stages).Nodup := by
  induction hdescent with
  | start => exact List.nodup_singleton _
  | @step stage next above name _ _ _ henters ih =>
    have hbases : basesOf (next :: stage :: above) =
        if next.byLink then next.location :: basesOf (stage :: above)
        else basesOf (stage :: above) := rfl
    rw [hbases]
    split
    · rename_i hlink
      exact List.nodup_cons.mpr ⟨fun hmem ↦ henters.fresh hlink (mem_of_mem_basesOf hmem), ih⟩
    · exact ih

/-- A link that is followed leads to no directory that lies on the way to it. -/
theorem Descent.pairwise (hdescent : Descent tree excluded start stages) :
    stages.Pairwise fun inner outer ↦ inner.byLink = true → inner.location ≠ outer.location := by
  induction hdescent with
  | start => exact List.pairwise_singleton _ _
  | step _ _ _ henters ih =>
    refine List.pairwise_cons.mpr ⟨fun outer houter hlink hsame ↦ ?_, ih⟩
    exact henters.fresh hlink (hsame ▸ List.mem_map_of_mem houter)

theorem Way.length_le_directoryCount (hway : Way tree start stages) {places : List Location}
    (hnodup : places.Nodup) (hplaces : ∀ place ∈ places, place ∈ stages.map Stage.location) :
    places.length ≤ tree.root.directoryCount := by
  refine Entry.length_le_directoryCount hnodup fun place hplace ↦ ?_
  obtain ⟨stage, hstage, rfl⟩ := List.mem_map.mp (hplaces place hplace)
  exact hway.directory stage hstage

/-- A way is as long as its runs. All runs but the last have at most as many directories as the
tree. -/
theorem Way.length_add_le (hway : Way tree start stages) :
    stages.length + tree.root.directoryCount ≤
      (basesOf stages).length * tree.root.directoryCount + (runOf stages).length := by
  induction hway with
  | start => simp [basesOf, runOf, Nat.add_comm]
  | @step stage next above name hway hstep ih =>
    cases hstep with
    | down => exact Nat.succ_add (stage :: above).length _ ▸ Nat.succ_le_succ ih
    | @follow link target =>
      have hrun : (runOf (stage :: above)).length ≤ tree.root.directoryCount :=
        hway.length_le_directoryCount hway.nodup_runOf.1 fun _ ↦ mem_of_mem_runOf
      calc (stage :: above).length + 1 + tree.root.directoryCount
          ≤ ((basesOf (stage :: above)).length + 1) * tree.root.directoryCount + 1 := by
            rw [Nat.add_mul]
            omega
        _ = _ := rfl

/-- A walk goes down no further than this. -/
theorem Descent.length_le (hdescent : Descent tree excluded start stages) :
    stages.length ≤ tree.depthLimit := by
  have hrun : (runOf stages).length ≤ tree.root.directoryCount :=
    hdescent.way.length_le_directoryCount hdescent.way.nodup_runOf.1 fun _ ↦ mem_of_mem_runOf
  have hbases : (basesOf stages).length ≤ tree.root.directoryCount :=
    hdescent.way.length_le_directoryCount hdescent.nodup_basesOf fun _ ↦ mem_of_mem_basesOf
  calc stages.length
      ≤ (basesOf stages).length * tree.root.directoryCount := by
        have hlength := hdescent.way.length_add_le
        omega
    _ ≤ (tree.root.directoryCount + 1) * (tree.root.directoryCount + 1) :=
        Nat.mul_le_mul (Nat.le_succ_of_le hbases) (Nat.le_succ _)

end Depth

/-! ### What a walk makes of a name -/

/-- The path under which something is come across. -/
def Sighting.path : Sighting → Path
  | .file path => path
  | .directory path => path
  | .inaccessible path _ => path
  | .loop path _ => path

section Walk

variable {tree : FileTree} {excluded : Exclusion} {start : Path} {stage next : Stage}
  {above : List Stage} {name : String}

/-- The walk at one name in the innermost of the stages. -/
def sightStep (tree : FileTree) (excluded : Exclusion) (enter : Path → Location → List Sighting)
    (stage : Stage) (above : List Stage) (name : String) : List Sighting :=
  sightName tree excluded enter ((stage :: above).map Stage.opened) stage.path stage.location name

theorem find?_opened_eq_none_iff {stages : List Stage} {target : Location} :
    (stages.map Stage.opened).find? (fun directory ↦ directory.location == target) = none ↔
      target ∉ stages.map Stage.location := by
  rw [List.find?_eq_none, List.forall_mem_map, List.mem_map, not_exists]
  simp only [beq_iff_eq, not_and, Stage.opened]

/-- A directory that the walk enters is come across before what it holds. -/
theorem sightStep_of_enters (hstep : Step tree stage name next)
    (henters : Enters excluded (stage :: above) name next)
    (enter : Path → Location → List Sighting) :
    sightStep tree excluded enter stage above name =
      .directory next.path :: enter next.path next.location := by
  cases hstep with
  | down hdirectory =>
    rw [sightStep, sightName, hdirectory]
    exact if_neg (Bool.eq_false_iff.mp henters.kept)
  | follow hlink htarget hdirectory =>
    have hopen := find?_opened_eq_none_iff.mpr (henters.fresh rfl)
    simp only [sightStep, sightName, hlink, htarget, hdirectory, hopen]
    exact if_neg (Bool.eq_false_iff.mp henters.kept)

/-- At a name that leads to no directory, or to one that is not entered, no directory is come
across, and what entering would give does not matter. -/
theorem sightStep_of_not_enters
    (hnone : ∀ next, Step tree stage name next → ¬ Enters excluded (stage :: above) name next) :
    ∃ sightings, (∀ path, .directory path ∉ sightings) ∧
      ∀ enter, sightStep tree excluded enter stage above name = sightings := by
  have hnothing (path : Path) : .directory path ∉ ([] : List Sighting) := List.not_mem_nil
  have hfile (path : Path) : .directory path ∉ (if excluded (stage.path.join name) name = true
      then [] else [Sighting.file (stage.path.join name)]) := by
    split <;> simp
  cases hplace : tree.root.find? (stage.location ++ [name]) with
  | none => exact ⟨[], hnothing, fun enter ↦ by rw [sightStep, sightName, hplace]⟩
  | some entry =>
    cases entry with
    | file content => exact ⟨_, hfile, fun enter ↦ by rw [sightStep, sightName, hplace]⟩
    | directory entries =>
      have hexcluded : excluded (stage.path.join name) name = true := by
        refine Bool.not_eq_false _ ▸ fun hkept ↦ hnone _ (.down hplace) ⟨hkept, fun hlink ↦ ?_⟩
        cases hlink
      refine ⟨[], hnothing, fun enter ↦ ?_⟩
      rw [sightStep, sightName, hplace]
      exact if_pos hexcluded
    | link text =>
      cases hlocate : tree.locate (stage.path.join name) with
      | error fault =>
        refine ⟨[.inaccessible (stage.path.join name) fault], by simp, fun enter ↦ ?_⟩
        simp only [sightStep, sightName, hplace, hlocate]
      | ok target =>
        cases hfound : tree.root.find? target with
        | none =>
          refine ⟨_, hfile, fun enter ↦ ?_⟩
          simp only [sightStep, sightName, hplace, hlocate, hfound]
        | some found =>
          cases found with
          | file content =>
            refine ⟨_, hfile, fun enter ↦ ?_⟩
            simp only [sightStep, sightName, hplace, hlocate, hfound]
          | link other =>
            refine ⟨_, hfile, fun enter ↦ ?_⟩
            simp only [sightStep, sightName, hplace, hlocate, hfound]
          | directory entries =>
            cases hopen : ((stage :: above).map Stage.opened).find?
                (fun directory ↦ directory.location == target) with
            | some ancestor =>
              refine ⟨[.loop (stage.path.join name) ancestor.path], by simp, fun enter ↦ ?_⟩
              simp only [sightStep, sightName, hplace, hlocate, hfound, hopen]
            | none =>
              have hexcluded : excluded (stage.path.join name) name = true := by
                refine Bool.not_eq_false _ ▸ fun hkept ↦
                  hnone _ (.follow hplace hlocate hfound) ⟨hkept, fun _ ↦ ?_⟩
                exact find?_opened_eq_none_iff.mp hopen
              refine ⟨[], hnothing, fun enter ↦ ?_⟩
              simp only [sightStep, sightName, hplace, hlocate, hfound, hopen]
              exact if_pos hexcluded

/-- What the walk makes of a name depends only on how it goes on in the directory that it enters. -/
theorem sightStep_congr {enter other : Path → Location → List Sighting}
    (hsame : ∀ next, Step tree stage name next → Enters excluded (stage :: above) name next →
      enter next.path next.location = other next.path next.location) :
    sightStep tree excluded enter stage above name =
      sightStep tree excluded other stage above name := by
  by_cases henters : ∃ next, Step tree stage name next ∧ Enters excluded (stage :: above) name next
  · obtain ⟨next, hstep, hnext⟩ := henters
    rw [sightStep_of_enters hstep hnext, sightStep_of_enters hstep hnext, hsame next hstep hnext]
  · obtain ⟨sightings, _, heq⟩ := sightStep_of_not_enters fun next hstep hnext ↦
      henters ⟨next, hstep, hnext⟩
    rw [heq, heq]

/-- At a link to an open directory there is one remark. -/
theorem sightStep_of_loop (excluded : Exclusion) (hstep : Step tree stage name next)
    (hlink : next.byLink = true) (hopen : next.location ∈ (stage :: above).map Stage.location) :
    ∃ ancestor ∈ stage :: above, ancestor.location = next.location ∧
      ∀ enter, sightStep tree excluded enter stage above name =
        [.loop next.path ancestor.path] := by
  cases hstep with
  | down => cases hlink
  | @follow text target entries hplace htarget hdirectory =>
    cases hfind : ((stage :: above).map Stage.opened).find?
        (fun directory ↦ directory.location == target) with
    | none => exact absurd hopen (find?_opened_eq_none_iff.mp hfind)
    | some opened =>
      obtain ⟨ancestor, hancestor, rfl⟩ := List.mem_map.mp (List.mem_of_find?_eq_some hfind)
      refine ⟨ancestor, hancestor, beq_iff_eq.mp (List.find?_some hfind :), fun enter ↦ ?_⟩
      simp only [sightStep, sightName, hplace, htarget, hdirectory, hfind]
      rfl

/-- A name that is not excluded is come across. -/
theorem exists_mem_sightStep {entry : Entry}
    (hentry : tree.root.find? (stage.location ++ [name]) = some entry)
    (hkept : excluded (stage.path.join name) name = false)
    (enter : Path → Location → List Sighting) :
    ∃ sighting ∈ sightStep tree excluded enter stage above name,
      sighting.path = stage.path.join name ∧
        ∀ content, entry = .file content → sighting = .file (stage.path.join name) := by
  have hnot : ¬ excluded (stage.path.join name) name = true := Bool.eq_false_iff.mp hkept
  cases entry with
  | file content =>
    refine ⟨.file (stage.path.join name), ?_, rfl, fun _ _ ↦ rfl⟩
    simp only [sightStep, sightName, hentry, if_neg hnot, List.mem_singleton]
  | directory entries =>
    refine ⟨.directory (stage.path.join name), ?_, rfl, fun _ hfile ↦ ?_⟩
    · simp only [sightStep, sightName, hentry, if_neg hnot, List.mem_cons_self]
    · cases hfile
  | link text =>
    have hlink (sighting : Sighting) (content : Content) (hfile : Entry.link text = .file content) :
        sighting = .file (stage.path.join name) := by
      cases hfile
    cases hlocate : tree.locate (stage.path.join name) with
    | error fault =>
      refine ⟨.inaccessible (stage.path.join name) fault, ?_, rfl, hlink _⟩
      simp only [sightStep, sightName, hentry, hlocate, List.mem_singleton]
    | ok target =>
      by_cases hdirectory : ∃ entries, tree.root.find? target = some (.directory entries)
      · obtain ⟨entries, hentries⟩ := hdirectory
        have hstep : Step tree stage name ⟨stage.path.join name, target, true⟩ :=
          .follow hentry hlocate hentries
        by_cases hopen : target ∈ (stage :: above).map Stage.location
        · obtain ⟨ancestor, _, _, hloop⟩ := sightStep_of_loop excluded hstep rfl hopen
          rw [hloop]
          exact ⟨_, List.mem_singleton_self _, rfl, hlink _⟩
        · rw [sightStep_of_enters hstep ⟨hkept, fun _ ↦ hopen⟩]
          exact ⟨_, List.mem_cons_self, rfl, hlink _⟩
      · refine ⟨.file (stage.path.join name), ?_, rfl, hlink _⟩
        simp only [sightStep, sightName, hentry, hlocate]
        split
        · exact absurd ⟨_, ‹_›⟩ hdirectory
        · rw [if_neg hnot]
          exact List.mem_singleton_self _

/-- The walk below the innermost of the stages, nested at most so deep. -/
def walkStage (tree : FileTree) (excluded : Exclusion) (depth : Nat) (stage : Stage)
    (above : List Stage) : List Sighting :=
  walkBelow tree excluded depth (above.map Stage.opened) stage.path stage.location

theorem walkStage_succ (depth : Nat) (hread : stage.path.text.utf8ByteSize ≤ pathLimit) :
    walkStage tree excluded (depth + 1) stage above =
      (sortedNames tree.root stage.location).flatMap
        (sightStep tree excluded
          (walkBelow tree excluded depth ((stage :: above).map Stage.opened)) stage above) := by
  rw [walkStage, walkBelow, if_neg (Nat.not_lt.mpr hread)]
  rfl

theorem walkStage_of_long (depth : Nat) (hlong : pathLimit < stage.path.text.utf8ByteSize) :
    walkStage tree excluded (depth + 1) stage above = [.inaccessible stage.path .nameTooLong] := by
  rw [walkStage, walkBelow, if_pos hlong]

/-- The depth that a walk is given is never used up: from the limit on it makes no difference. -/
theorem Descent.walkStage_eq (hdescent : Descent tree excluded start (stage :: above))
    {first second : Nat} (hfirst : tree.depthLimit ≤ first + above.length)
    (hsecond : tree.depthLimit ≤ second + above.length) :
    walkStage tree excluded first stage above = walkStage tree excluded second stage above := by
  have hlength : above.length + 1 ≤ tree.depthLimit := hdescent.length_le
  induction first generalizing second stage above with
  | zero => omega
  | succ first ih =>
    obtain ⟨second, rfl⟩ : ∃ smaller, second = smaller + 1 :=
      Nat.exists_eq_add_one_of_ne_zero (by omega)
    by_cases hread : stage.path.text.utf8ByteSize ≤ pathLimit
    · rw [walkStage_succ first hread, walkStage_succ second hread]
      refine List.flatMap_congr fun name _ ↦ sightStep_congr fun next hstep henters ↦ ?_
      have hnext := hdescent.step hread hstep henters
      refine ih hnext ?_ ?_ hnext.length_le <;> rw [List.length_cons] <;> omega
    · rw [walkStage_of_long first (Nat.not_le.mp hread),
        walkStage_of_long second (Nat.not_le.mp hread)]

/-- Where a walk comes across a directory, it goes down a way to it. -/
theorem Descent.exists_of_mem (hdescent : Descent tree excluded start (stage :: above))
    {depth : Nat} {path : Path}
    (hpath : .directory path ∈ walkStage tree excluded depth stage above) :
    ∃ inner outer, Descent tree excluded start (inner :: outer) ∧ inner.path = path := by
  induction depth generalizing stage above with
  | zero => cases hpath
  | succ depth ih =>
    by_cases hread : stage.path.text.utf8ByteSize ≤ pathLimit
    · rw [walkStage_succ depth hread, List.mem_flatMap] at hpath
      obtain ⟨name, _, hsighted⟩ := hpath
      by_cases henters : ∃ next, Step tree stage name next ∧
          Enters excluded (stage :: above) name next
      · obtain ⟨next, hstep, hnext⟩ := henters
        have hentered := hdescent.step hread hstep hnext
        rw [sightStep_of_enters hstep hnext] at hsighted
        rcases List.mem_cons.mp hsighted with heq | hbelow
        · cases heq
          exact ⟨next, stage :: above, hentered, rfl⟩
        · exact ih hentered hbelow
      · obtain ⟨sightings, hnone, heq⟩ := sightStep_of_not_enters fun next hstep hnext ↦
          henters ⟨next, hstep, hnext⟩
        rw [heq] at hsighted
        exact absurd hsighted (hnone path)
    · rw [walkStage_of_long depth (Nat.not_le.mp hread), List.mem_singleton] at hpath
      cases hpath

theorem walk_of_directory {location : Location} {entries : List (String × Entry)}
    (hstart : tree.locate start = .ok location)
    (hdirectory : tree.root.find? location = some (.directory entries)) :
    tree.walk excluded start =
      .directory start :: walkStage tree excluded tree.depthLimit ⟨start, location, false⟩ [] := by
  simp only [walk, hstart, hdirectory]
  rfl

theorem exists_descent_of_mem_walk {path : Path}
    (hpath : .directory path ∈ tree.walk excluded start) :
    ∃ inner outer, Descent tree excluded start (inner :: outer) ∧ inner.path = path := by
  cases hstart : tree.locate start with
  | error fault =>
    simp only [walk, hstart, List.mem_singleton] at hpath
    cases hpath
  | ok location =>
    by_cases hdirectory : ∃ entries, tree.root.find? location = some (.directory entries)
    · obtain ⟨entries, hentries⟩ := hdirectory
      have hdescent : Descent tree excluded start [⟨start, location, false⟩] :=
        .start hstart hentries
      rw [walk_of_directory hstart hentries] at hpath
      rcases List.mem_cons.mp hpath with heq | hbelow
      · cases heq
        exact ⟨_, [], hdescent, rfl⟩
      · exact hdescent.exists_of_mem hbelow
    · rw [walk, hstart] at hpath
      simp only at hpath
      split at hpath
      · exact absurd ⟨_, ‹_›⟩ hdirectory
      · cases List.mem_singleton.mp hpath

end Walk

/-! ### The block of a directory -/

/-- Whether something is come across at a path or below it. -/
def Sighting.isUnder (path : Path) (sighting : Sighting) : Bool :=
  path.key.names.isPrefixOf sighting.path.key.names

section Blocks

variable {tree : FileTree} {excluded : Exclusion} {start path : Path} {stage next : Stage}
  {above : List Stage} {name other : String} {sighting : Sighting}

theorem Sighting.isUnder_iff :
    sighting.isUnder path = true ↔ path.key.names <+: sighting.path.key.names :=
  List.isPrefixOf_iff_prefix

theorem Sighting.isUnder_path (sighting : Sighting) : sighting.isUnder sighting.path = true :=
  isUnder_iff.mpr List.prefix_rfl

theorem Sighting.isUnder_of_join (hname : Path.isProperName name = true)
    (hunder : sighting.isUnder (path.join name) = true) : sighting.isUnder path = true := by
  rw [isUnder_iff, Path.names_key_join path hname] at hunder
  exact isUnder_iff.mpr ((List.prefix_append _ _).trans hunder)

/-- Nothing lies under two names of a directory. -/
theorem Sighting.eq_of_isUnder_join (hname : Path.isProperName name = true)
    (hother : Path.isProperName other = true) (hunder : sighting.isUnder (path.join name) = true)
    (hunderOther : sighting.isUnder (path.join other) = true) : name = other := by
  rw [isUnder_iff, Path.names_key_join path hname] at hunder
  rw [isUnder_iff, Path.names_key_join path hother] at hunderOther
  have hsame := List.IsPrefix.eq_of_length
    (List.prefix_of_prefix_length_le hunder hunderOther (by simp)) (by simp)
  exact List.singleton_inj.mp (List.append_cancel_left hsame)

/-- A directory does not lie under a name in it. -/
theorem Sighting.isUnder_join_path (hname : Path.isProperName name = true) (sighting : Sighting) :
    sighting.isUnder (sighting.path.join name) = false := by
  refine Bool.eq_false_iff.mpr fun hunder ↦ ?_
  rw [isUnder_iff, Path.names_key_join _ hname] at hunder
  have hlength := hunder.length_le
  rw [List.length_append, List.length_singleton] at hlength
  omega

theorem isUnder_of_mem_sightName {enter : Path → Location → List Sighting}
    (henter : ∀ path location, ∀ sighting ∈ enter path location, sighting.isUnder path = true)
    {opened : List OpenDirectory} {location : Location}
    (hsighting : sighting ∈ sightName tree excluded enter opened path location name) :
    sighting.isUnder (path.join name) = true := by
  rcases mem_sightName hsighting with rfl | rfl | ⟨place, hbelow⟩ | ⟨fault, _, rfl⟩ |
    ⟨_, _, ancestor, _, _, rfl⟩
  · exact Sighting.isUnder_path (.file (path.join name))
  · exact Sighting.isUnder_path (.directory (path.join name))
  · exact henter _ place sighting hbelow
  · exact Sighting.isUnder_path (.inaccessible (path.join name) fault)
  · exact Sighting.isUnder_path (.loop (path.join name) ancestor)

theorem isUnder_of_mem_walkBelow (hnamed : tree.isWellNamed = true) {depth : Nat}
    {opened : List OpenDirectory} {location : Location}
    (hsighting : sighting ∈ walkBelow tree excluded depth opened path location) :
    sighting.isUnder path = true := by
  induction depth generalizing opened path location sighting with
  | zero => cases hsighting
  | succ depth ih =>
    rcases mem_walkBelow hsighting with ⟨_, rfl⟩ | ⟨name, hname, hsighted⟩
    · exact Sighting.isUnder_path (.inaccessible path .nameTooLong)
    · have hunder := isUnder_of_mem_sightName (fun _ _ _ hbelow ↦ ih hbelow) hsighted
      exact Sighting.isUnder_of_join (isProperName_of_mem_sortedNames hnamed hname) hunder

theorem filter_flatMap_eq {α β : Type} {test : β → Bool} {names : List α} {block : α → List β}
    (hnodup : names.Nodup) {name : α} (hname : name ∈ names)
    (hall : ∀ item ∈ block name, test item = true)
    (hnone : ∀ other ∈ names, other ≠ name → ∀ item ∈ block other, test item = false) :
    (names.flatMap block).filter test = block name := by
  induction names with
  | nil => cases hname
  | cons first rest ih =>
    obtain ⟨hfirst, hrest⟩ := List.nodup_cons.mp hnodup
    rw [List.flatMap_cons, List.filter_append]
    by_cases hsame : first = name
    · subst hsame
      have hlater : (rest.flatMap block).filter test = [] := by
        refine List.filter_eq_nil_iff.mpr fun item hitem ↦ ?_
        obtain ⟨other, hother, hblock⟩ := List.mem_flatMap.mp hitem
        have hne : other ≠ first := fun heq ↦ hfirst (heq ▸ hother)
        exact Bool.eq_false_iff.mp
          (hnone other (List.mem_cons_of_mem _ hother) hne item hblock)
      rw [List.filter_eq_self.mpr hall, hlater, List.append_nil]
    · have hskipped : (block first).filter test = [] :=
        List.filter_eq_nil_iff.mpr fun item hitem ↦
          Bool.eq_false_iff.mp (hnone first List.mem_cons_self hsame item hitem)
      rw [hskipped, List.nil_append]
      exact ih hrest (List.mem_of_ne_of_mem (Ne.symm hsame) hname)
        fun other hother ↦ hnone other (List.mem_cons_of_mem _ hother)

theorem nodup_sortedNames (hdistinct : tree.isDistinctlyNamed = true) (location : Location) :
    (sortedNames tree.root location).Nodup :=
  (pairwise_sortedNames hdistinct location).imp fun hless ↦ ne_of_lt hless

/-- What the walk comes across at a name of a directory is what it makes of the name. Assumes: what
it comes across at the directory is the directory and what is below it. -/
theorem filter_isUnder_join (hnamed : tree.isWellNamed = true)
    (hdistinct : tree.isDistinctlyNamed = true)
    (hread : stage.path.text.utf8ByteSize ≤ pathLimit)
    (hname : name ∈ sortedNames tree.root stage.location) {depth : Nat} {sightings : List Sighting}
    (hblock : sightings.filter (Sighting.isUnder stage.path) =
      .directory stage.path :: walkStage tree excluded (depth + 1) stage above) :
    sightings.filter (Sighting.isUnder (stage.path.join name)) =
      sightStep tree excluded (walkBelow tree excluded depth ((stage :: above).map Stage.opened))
        stage above name := by
  have hproper : ∀ other ∈ sortedNames tree.root stage.location, Path.isProperName other = true :=
    fun _ ↦ isProperName_of_mem_sortedNames hnamed
  have hunder (other : String) : ∀ sighting ∈ sightStep tree excluded
      (walkBelow tree excluded depth ((stage :: above).map Stage.opened)) stage above other,
      sighting.isUnder (stage.path.join other) = true := fun sighting ↦
    isUnder_of_mem_sightName fun _ _ _ ↦ isUnder_of_mem_walkBelow hnamed
  have hfilter : sightings.filter (Sighting.isUnder (stage.path.join name)) =
      (sightings.filter (Sighting.isUnder stage.path)).filter
        (Sighting.isUnder (stage.path.join name)) := by
    rw [List.filter_filter]
    refine List.filter_congr fun sighting _ ↦ ?_
    rw [Bool.eq_iff_iff, Bool.and_eq_true]
    exact ⟨fun h ↦ ⟨h, Sighting.isUnder_of_join (hproper name hname) h⟩, And.left⟩
  have hhead : ¬ Sighting.isUnder (stage.path.join name) (.directory stage.path) = true :=
    Bool.eq_false_iff.mp
      (Sighting.isUnder_join_path (hproper name hname) (.directory stage.path))
  rw [hfilter, hblock, List.filter_cons_of_neg hhead, walkStage_succ depth hread]
  refine filter_flatMap_eq (nodup_sortedNames hdistinct _) hname (hunder name) ?_
  intro other hother hne sighting hsighting
  refine Bool.eq_false_iff.mpr fun hboth ↦ hne ?_
  exact Sighting.eq_of_isUnder_join (hproper other hother) (hproper name hname)
    (hunder other sighting hsighting) hboth

/-- What the walk comes across at a directory that it enters is the directory and what is below
it. -/
theorem Descent.filter_walk (hnamed : tree.isWellNamed = true)
    (hdistinct : tree.isDistinctlyNamed = true)
    (hdescent : Descent tree excluded start (stage :: above)) :
    (tree.walk excluded start).filter (Sighting.isUnder stage.path) =
      .directory stage.path ::
        walkStage tree excluded (tree.depthLimit - above.length) stage above := by
  generalize hstages : stage :: above = stages at hdescent
  induction hdescent generalizing stage above with
  | start hstart hdirectory =>
    cases hstages
    rw [walk_of_directory hstart hdirectory]
    refine List.filter_eq_self.mpr (List.forall_mem_cons.mpr ⟨?_, fun sighting hsighting ↦ ?_⟩)
    · exact Sighting.isUnder_path (.directory start)
    · exact isUnder_of_mem_walkBelow hnamed hsighting
  | @step outer inner further name hway hread hstep henters ih =>
    cases hstages
    have hdepth : tree.depthLimit - further.length =
        tree.depthLimit - (outer :: further).length + 1 := by
      have hlength : further.length + 1 ≤ tree.depthLimit := hway.length_le
      rw [List.length_cons]
      omega
    have hblock := ih rfl
    rw [hdepth] at hblock
    have hname := filter_isUnder_join hnamed hdistinct hread hstep.mem_sortedNames hblock
    rw [← hstep.path_eq, sightStep_of_enters hstep henters] at hname
    exact hname

theorem Descent.filter_walk_name (hnamed : tree.isWellNamed = true)
    (hdistinct : tree.isDistinctlyNamed = true)
    (hdescent : Descent tree excluded start (stage :: above))
    (hread : stage.path.text.utf8ByteSize ≤ pathLimit)
    (hname : name ∈ sortedNames tree.root stage.location) :
    ∃ enter, (tree.walk excluded start).filter (Sighting.isUnder (stage.path.join name)) =
      sightStep tree excluded enter stage above name := by
  obtain ⟨depth, hdepth⟩ : ∃ depth, tree.depthLimit - above.length = depth + 1 := by
    have hlength : above.length + 1 ≤ tree.depthLimit := hdescent.length_le
    exact Nat.exists_eq_add_one_of_ne_zero (by omega)
  have hblock := hdescent.filter_walk hnamed hdistinct
  rw [hdepth] at hblock
  exact ⟨_, filter_isUnder_join hnamed hdistinct hread hname hblock⟩

theorem Descent.mem_walk (hnamed : tree.isWellNamed = true)
    (hdistinct : tree.isDistinctlyNamed = true)
    (hdescent : Descent tree excluded start (stage :: above)) :
    .directory stage.path ∈ tree.walk excluded start := by
  refine List.mem_of_mem_filter (p := Sighting.isUnder stage.path) ?_
  rw [hdescent.filter_walk hnamed hdistinct]
  exact List.mem_cons_self

end Blocks

/-! ### Ways and their paths -/

section Uniqueness

variable {tree : FileTree} {start : Path}

theorem joined_injective {names others : List String}
    (hnames : ∀ name ∈ names, Path.isProperName name = true)
    (hothers : ∀ name ∈ others, Path.isProperName name = true)
    (hjoined : joined start names = joined start others) : names = others := by
  have hkeys := congrArg (fun path ↦ path.key.names) hjoined
  simp only [names_key_joined start hnames, names_key_joined start hothers] at hkeys
  exact List.append_cancel_left hkeys

/-- The path of a way is the start with the names of its steps joined to it. -/
theorem Way.exists_joined (hnamed : tree.isWellNamed = true) {stages : List Stage}
    (hway : Way tree start stages) :
    ∀ stage ∈ stages.head?, ∃ names, (∀ name ∈ names, Path.isProperName name = true) ∧
      names.length + 1 = stages.length ∧ stage.path = joined start names := by
  induction hway with
  | start =>
    intro stage hstage
    cases hstage
    exact ⟨[], fun _ hname ↦ absurd hname List.not_mem_nil, rfl, rfl⟩
  | @step outer inner above name hway hstep ih =>
    intro stage hstage
    cases hstage
    obtain ⟨names, hproper, hlength, hpath⟩ := ih outer rfl
    refine ⟨names ++ [name], ?_, ?_, ?_⟩
    · rw [List.forall_mem_append, List.forall_mem_singleton]
      exact ⟨hproper, isProperName_of_mem_sortedNames hnamed hstep.mem_sortedNames⟩
    · rw [List.length_append, List.length_singleton, hlength]
      rfl
    · rw [hstep.path_eq, hpath]
      exact (List.foldl_concat _ _ _ _).symm

/-- Only the start has the path of the start. -/
theorem Way.path_ne_start (hnamed : tree.isWellNamed = true) {stage next : Stage}
    {above : List Stage} (hway : Way tree start (next :: stage :: above)) : next.path ≠ start := by
  intro hpath
  obtain ⟨names, hproper, hlength, hjoined⟩ := hway.exists_joined hnamed next rfl
  have hnone : names = [] :=
    joined_injective hproper (fun _ hname ↦ absurd hname List.not_mem_nil)
      (hjoined.symm.trans hpath)
  rw [hnone] at hlength
  cases hlength

/-- Only one way leads to a path. -/
theorem Way.eq_of_path (hnamed : tree.isWellNamed = true) {stages others : List Stage}
    (hway : Way tree start stages) (hother : Way tree start others)
    (hpath : stages.head?.map Stage.path = others.head?.map Stage.path) : stages = others := by
  induction hway generalizing others with
  | start hstart =>
    cases hother with
    | start hsame =>
      cases hstart.symm.trans hsame
      rfl
    | step hway hstep =>
      exact absurd (Option.some.inj hpath).symm ((Way.step hway hstep).path_ne_start hnamed)
  | @step outer inner above name hway hstep ih =>
    cases hother with
    | start => exact absurd (Option.some.inj hpath) ((Way.step hway hstep).path_ne_start hnamed)
    | @step further other rest last hrest hlast =>
      -- the names of the two ways are the same, so the ways part at no step
      obtain ⟨names, hproper, _, hnames⟩ := hway.exists_joined hnamed outer rfl
      obtain ⟨others, hothers, _, hjoined⟩ := hrest.exists_joined hnamed further rfl
      have hname := isProperName_of_mem_sortedNames hnamed hstep.mem_sortedNames
      have hlastName := isProperName_of_mem_sortedNames hnamed hlast.mem_sortedNames
      have hkeys : (outer.path.join name).key.names = (further.path.join last).key.names := by
        rw [← hstep.path_eq, ← hlast.path_eq, Option.some.inj hpath]
      rw [Path.names_key_join _ hname, Path.names_key_join _ hlastName] at hkeys
      obtain ⟨hfront, hlastSame⟩ := List.append_inj' hkeys rfl
      cases hlastSame
      have houter : outer.path = further.path := by
        rw [hnames, hjoined, names_key_joined start hproper, names_key_joined start hothers]
          at hfront
        rw [hnames, hjoined, List.append_cancel_left hfront]
      cases ih hrest (congrArg some houter)
      cases hstep.eq hlast
      rfl

/-- The ways that a walk goes down are those to the directories that it comes across. -/
theorem Way.descent_of_mem (hnamed : tree.isWellNamed = true) {excluded : Exclusion}
    {stage : Stage} {above : List Stage} (hway : Way tree start (stage :: above))
    (hmem : .directory stage.path ∈ tree.walk excluded start) :
    Descent tree excluded start (stage :: above) := by
  obtain ⟨inner, outer, hdescent, hpath⟩ := exists_descent_of_mem_walk hmem
  rwa [hway.eq_of_path hnamed hdescent.way (congrArg some hpath.symm)]

end Uniqueness

end ComponentGraph.FileTree

/-! ### Remarks about a path -/

namespace ComponentGraph.Journal

open FileTree (Sighting)

variable {options : Options} {path : Path}

theorem file_of_mem_remarks {sighting : Sighting} {diagnostic : Ledger.Diagnostic}
    (hremark : diagnostic ∈ (taskOf? options sighting).toList.flatMap taskDiagnostics) :
    diagnostic.file = sighting.path.text := by
  cases sighting with
  | file found =>
    rw [taskOf?] at hremark
    split at hremark <;> cases hremark
  | directory found => cases hremark
  | inaccessible found fault =>
    cases List.mem_singleton.mp hremark
    rfl
  | loop found ancestor =>
    cases List.mem_singleton.mp hremark
    rfl

/-- The remarks about a path come from what is come across there. -/
theorem filter_remarks (options : Options) (path : Path) (sightings : List Sighting) :
    ((sightings.filterMap (taskOf? options)).flatMap taskDiagnostics).filter
        (fun diagnostic ↦ diagnostic.file = path.text) =
      (((sightings.filter (Sighting.isUnder path)).filterMap (taskOf? options)).flatMap
        taskDiagnostics).filter (fun diagnostic ↦ diagnostic.file = path.text) := by
  induction sightings with
  | nil => rfl
  | cons sighting rest ih =>
    have hfirst (later : List Sighting) :
        ((sighting :: later).filterMap (taskOf? options)).flatMap taskDiagnostics =
          (taskOf? options sighting).toList.flatMap taskDiagnostics ++
            (later.filterMap (taskOf? options)).flatMap taskDiagnostics := by
      rw [List.filterMap_cons]
      cases taskOf? options sighting <;> simp
    rw [hfirst, List.filter_append, ih]
    by_cases hunder : sighting.isUnder path = true
    · rw [List.filter_cons_of_pos hunder, hfirst, List.filter_append]
    · have hnone : ((taskOf? options sighting).toList.flatMap taskDiagnostics).filter
          (fun diagnostic ↦ diagnostic.file = path.text) = [] := by
        refine List.filter_eq_nil_iff.mpr fun diagnostic hremark ↦ ?_
        rw [decide_eq_true_eq, file_of_mem_remarks hremark]
        intro htext
        have hpath : sighting.path = path := congrArg Path.mk htext
        exact hunder (hpath ▸ sighting.isUnder_path)
      rw [List.filter_cons_of_neg hunder, hnone, List.nil_append]

theorem survey_walk_diagnostics (parse : Source.Parser) (tree : FileTree) (options : Options)
    (root : Path) (ledger : Ledger) :
    ∃ appended,
      (Survey.run parse tree options root ledger).diagnostics = ledger.diagnostics ++ appended ∧
      appended.filter (fun diagnostic ↦ diagnostic.step = .walk) =
        (surveyAgenda tree options root).flatMap taskDiagnostics := by
  obtain ⟨acts, hrun⟩ : ∃ acts, Run (.ofTree parse tree) options (ledger.parsed ++ ledger.skipped)
      (surveyAgenda tree options root) acts := ⟨_, run_journal _ _⟩
  refine ⟨acts.flatMap (actDiagnostics (.ofTree parse tree)), ?_, hrun.walk_diagnostics⟩
  rw [survey_run_eq, hrun.run_eq_replay (covers_marked ledger), diagnostics_replay]

/-- A link at which the walk of a survey comes back to an open directory gives one diagnostic of the
walk. Assumes: the path of the link is not the root. -/
theorem survey_diagnostics_of_loop {tree : FileTree} {root ancestor : Path} (hroot : path ≠ root)
    (hloop : (Survey.sightings tree options root).filter (Sighting.isUnder path) =
      [.loop path ancestor]) (parse : Source.Parser) (ledger : Ledger) :
    ∃ appended,
      (Survey.run parse tree options root ledger).diagnostics = ledger.diagnostics ++ appended ∧
      appended.filter (fun diagnostic ↦ diagnostic.step = .walk ∧ diagnostic.file = path.text) =
        [⟨path.text, .walk, Survey.loopMessage path ancestor⟩] := by
  obtain ⟨appended, hdiagnostics, hwalk⟩ := survey_walk_diagnostics parse tree options root ledger
  refine ⟨appended, hdiagnostics, ?_⟩
  have hcomplaints : (((Survey.patternComplaints options).map (Task.remark root)).flatMap
      taskDiagnostics).filter (fun diagnostic ↦ diagnostic.file = path.text) = [] := by
    refine List.filter_eq_nil_iff.mpr fun diagnostic hdiagnostic ↦ ?_
    obtain ⟨task, htask, hremark⟩ := List.mem_flatMap.mp hdiagnostic
    obtain ⟨message, _, rfl⟩ := List.mem_map.mp htask
    cases List.mem_singleton.mp hremark
    rw [decide_eq_true_eq]
    exact fun htext ↦ hroot (congrArg Path.mk htext.symm)
  have hboth : appended.filter
      (fun diagnostic ↦ diagnostic.step = .walk ∧ diagnostic.file = path.text) =
        (appended.filter fun diagnostic ↦ diagnostic.step = .walk).filter
          fun diagnostic ↦ diagnostic.file = path.text := by
    rw [List.filter_filter]
    refine List.filter_congr fun diagnostic _ ↦ ?_
    rw [Bool.decide_and, Bool.and_comm]
  rw [hboth, hwalk, surveyAgenda, List.flatMap_append, List.filter_append, hcomplaints,
    List.nil_append, filter_remarks, hloop]
  simp [taskOf?, taskDiagnostics]

end ComponentGraph.Journal

/-! ### The walk of a survey -/

namespace ComponentGraph.Survey

open FileTree

/-- A walk that follows links ends, however the links are laid. The list of what it comes across is
complete: a walk with more depth at hand comes across the same. Along every way to a directory that
it comes across, no two links lead to one place, no link leads to a place above it on the way, and
the directories are at most `(D + 1) * (D + 1)`, where `D` counts the real directories of the tree.
Where it can read such a directory, a link in it that leads to an open directory is come across as a
loop, nothing is come across below it, and it gives one diagnostic of the walk. All other names are
come across too, unless they are excluded, and the subdirectories among them are entered, as are the
links to a directory that is not open. Assumes: the names in the tree are proper, and no directory
has a name twice. -/
theorem walk_nested_within_limit (tree : FileTree) (hnamed : tree.isWellNamed = true)
    (hdistinct : tree.isDistinctlyNamed = true) (options : Options) (root : Path) :
    (∀ location entries, tree.locate root = .ok location →
      tree.root.find? location = some (.directory entries) →
      ∀ depth, (tree.root.directoryCount + 1) * (tree.root.directoryCount + 1) ≤ depth →
        sightings tree options root = .directory root ::
          walkBelow tree (isExcluded (patterns options)) depth [] root location) ∧
    ∀ stage above, Way tree root (stage :: above) →
      .directory stage.path ∈ sightings tree options root →
      ((stage :: above).Pairwise fun inner outer ↦
        inner.byLink = true → inner.location ≠ outer.location) ∧
      (((stage :: above).filter Stage.byLink).map Stage.location).Nodup ∧
      (stage :: above).length ≤
        (tree.root.directoryCount + 1) * (tree.root.directoryCount + 1) ∧
      (stage.path.text.utf8ByteSize ≤ pathLimit →
        (∀ name next, Step tree stage name next → next.byLink = true →
          next.location ∈ (stage :: above).map Stage.location →
          ∃ ancestor ∈ stage :: above, ancestor.location = next.location ∧
            (sightings tree options root).filter (Sighting.isUnder next.path) =
              [.loop next.path ancestor.path] ∧
            ∀ parse ledger, ∃ appended,
              (run parse tree options root ledger).diagnostics = ledger.diagnostics ++ appended ∧
              appended.filter
                  (fun diagnostic ↦ diagnostic.step = .walk ∧ diagnostic.file = next.path.text) =
                [⟨next.path.text, .walk, "Cannot access path: File system loop found: " ++
                  next.path.text ++ " points to an ancestor " ++ ancestor.path.text⟩]) ∧
        (∀ name entry, tree.root.find? (stage.location ++ [name]) = some entry →
          isExcluded (patterns options) (stage.path.join name) name = false →
          ∃ sighting ∈ sightings tree options root, sighting.path = stage.path.join name ∧
            ∀ content, entry = .file content → sighting = .file (stage.path.join name)) ∧
        ∀ name next, Step tree stage name next →
          isExcluded (patterns options) next.path name = false →
          (next.byLink = true → next.location ∉ (stage :: above).map Stage.location) →
          .directory next.path ∈ sightings tree options root) := by
  refine ⟨fun location entries hstart hdirectory depth hdepth ↦ ?_, fun stage above hway hmem ↦ ?_⟩
  · have hdescent : Descent tree (isExcluded (patterns options)) root [⟨root, location, false⟩] :=
      .start hstart hdirectory
    rw [sightings, walk_of_directory hstart hdirectory,
      hdescent.walkStage_eq (Nat.le_add_right _ _) (Nat.le_add_right_of_le hdepth)]
    rfl
  have hdescent := hway.descent_of_mem hnamed hmem
  refine ⟨hdescent.pairwise, ?_, hdescent.length_le, fun hread ↦ ⟨?_, ?_, ?_⟩⟩
  · rw [List.Nodup, List.pairwise_map, List.pairwise_filter]
    exact hdescent.pairwise.imp fun hdiffers hlink _ ↦ hdiffers hlink
  · intro name next hstep hlink hopen
    obtain ⟨ancestor, hancestor, hlocation, hsight⟩ :=
      sightStep_of_loop (isExcluded (patterns options)) hstep hlink hopen
    obtain ⟨enter, hblock⟩ :=
      hdescent.filter_walk_name hnamed hdistinct hread hstep.mem_sortedNames
    rw [hsight, ← hstep.path_eq] at hblock
    refine ⟨ancestor, hancestor, hlocation, hblock, fun parse ledger ↦ ?_⟩
    exact Journal.survey_diagnostics_of_loop ((Way.step hway hstep).path_ne_start hnamed) hblock
      parse ledger
  · intro name entry hentry hkept
    have hname : name ∈ sortedNames tree.root stage.location :=
      FileTree.mem_sortedNames.mpr (Option.isSome_of_eq_some hentry)
    obtain ⟨enter, hblock⟩ := hdescent.filter_walk_name hnamed hdistinct hread hname
    obtain ⟨sighting, hsighting, hpath⟩ := exists_mem_sightStep hentry hkept enter
    rw [← hblock] at hsighting
    exact ⟨sighting, List.mem_of_mem_filter hsighting, hpath⟩
  · intro name next hstep hkept hfresh
    exact (hdescent.step hread hstep ⟨hkept, hfresh⟩).mem_walk hnamed hdistinct

/-- A project with a link beside its sources, which hold a link back up. -/
def whirl : FileTree where
  root := .directory [
    ("app", .directory [
      ("lib", .link "src"),
      ("src", .directory [("App.ts", .file (.text "")), ("up", .link "..")])])]
  workingDirectory := []

/-- In the whirl the sources are come across behind the link as well, and from there the link back
up is a loop, with the file beside it come across. -/
theorem walk_nested_within_limit_whirl :
    whirl.isWellNamed = true ∧ whirl.isDistinctlyNamed = true ∧
    (sightings whirl {} ⟨"/app"⟩).filter (Sighting.isUnder ⟨"/app/lib/up"⟩) =
      [.loop ⟨"/app/lib/up"⟩ ⟨"/app"⟩] ∧
    .file ⟨"/app/lib/App.ts"⟩ ∈ sightings whirl {} ⟨"/app"⟩ := by
  have hnamed : whirl.isWellNamed = true := by decide
  have hdistinct : whirl.isDistinctlyNamed = true := by decide
  obtain ⟨hwhole, hways⟩ := walk_nested_within_limit whirl hnamed hdistinct {} ⟨"/app"⟩
  have hroot : whirl.locate ⟨"/app"⟩ = .ok ["app"] := by decide
  have hstart : Way whirl ⟨"/app"⟩ [⟨⟨"/app"⟩, ["app"], false⟩] := .start hroot rfl
  have hlib : Step whirl ⟨⟨"/app"⟩, ["app"], false⟩ "lib" ⟨⟨"/app/lib"⟩, ["app", "src"], true⟩ :=
    .follow rfl (by decide) rfl
  have hup : Step whirl ⟨⟨"/app/lib"⟩, ["app", "src"], true⟩ "up"
      ⟨⟨"/app/lib/up"⟩, ["app"], true⟩ := .follow rfl (by decide +kernel) rfl
  have hentered : .directory ⟨"/app/lib"⟩ ∈ sightings whirl {} ⟨"/app"⟩ := by
    have hhere : .directory ⟨"/app"⟩ ∈ sightings whirl {} ⟨"/app"⟩ := by
      rw [hwhole ["app"] _ hroot rfl _ le_rfl]
      exact List.mem_cons_self
    exact ((hways _ _ hstart hhere).2.2.2 (by decide)).2.2 "lib" _ hlib (by decide) (by decide)
  obtain ⟨hloops, hothers, _⟩ := (hways _ _ (hstart.step hlib) hentered).2.2.2 (by decide)
  obtain ⟨ancestor, hancestor, hlocation, hloop, _⟩ := hloops "up" _ hup rfl (by decide)
  obtain ⟨sighting, hsighting, _, hfile⟩ := hothers "App.ts" (.file (.text "")) rfl (by decide)
  refine ⟨hnamed, hdistinct, ?_, hfile _ rfl ▸ hsighting⟩
  simp only [List.mem_cons, List.not_mem_nil, or_false] at hancestor
  rcases hancestor with rfl | rfl
  · cases hlocation
  · exact hloop

end ComponentGraph.Survey
