import ComponentGraph.Project
import ComponentGraph.Proofs.Lookup
import ComponentGraph.Proofs.Parallel
import ComponentGraph.Proofs.Reach

/-!
A file has one key.

A file is recognised by the path under which it was visited, and paths come from two sides: the walk
joins names to the root, and an import is resolved from the directory of the file that has it. Both
give clean paths only. The root is the path of a place, so what the walk comes across is too
(`isClean_of_handed`), and the directory of a clean path is the path of a place, so what is resolved
from it is clean whatever the specifier looks like (`isClean_of_imports`). By the induction over
calls every path that an analysis gets to is clean. Marks and sources are such paths, not only in
the end but after every act of the journal.

Without links a place has one clean path. Two paths that lead to one file are then the same, and
since no path is entered twice no file is.
-/

set_option autoImplicit false
set_option relaxedAutoImplicit false

namespace ComponentGraph

open FileTree (pathOf)

/-- The root of an analysis is the path of the place that the given one leads to. -/
theorem Project.exists_locate_of_rootOf {tree : FileTree} {root path : Path}
    (hroot : Project.rootOf tree root = .ok path) :
    ∃ location, tree.locate root = .ok location ∧ path = pathOf location := by
  rw [Project.rootOf, FileTree.canonical] at hroot
  cases hlocate : tree.locate root with
  | error fault => simp [hlocate, Except.map] at hroot
  | ok location =>
    refine ⟨location, rfl, ?_⟩
    simp only [hlocate, Except.map] at hroot
    split at hroot
    · exact (Except.ok.inj hroot).symm
    · cases hroot

/-- Every path that a ledger holds, as a mark or as a source, is clean. -/
structure Ledger.IsClean (ledger : Ledger) : Prop where
  marks : ∀ path ∈ ledger.parsed ++ ledger.skipped, path.isClean = true
  sources : ∀ name path, (ledger.recordOf name).source = some path → path.isClean = true

/-- Marked paths that lead to one place are the same. -/
def Ledger.HasOnePathPerPlace (tree : FileTree) (ledger : Ledger) : Prop :=
  ∀ first ∈ ledger.parsed ++ ledger.skipped, ∀ second ∈ ledger.parsed ++ ledger.skipped,
    ∀ location, tree.locate first = .ok location → tree.locate second = .ok location →
      first = second

namespace Journal

open Analysis

/-! ### Where paths come from -/

section Clean

variable {parse : Source.Parser} {tree : FileTree} {options : Options}

/-- The files that a walk hands over have clean paths. Assumes: the root is the path of a place. -/
theorem isClean_of_handed (hnames : tree.isWellNamed = true) {above : Location}
    (habove : ∀ name ∈ above, Path.isProperName name = true) {path : Path}
    (hpath : path ∈ handed tree options (pathOf above)) : path.isClean = true := by
  obtain ⟨hsighting, hanalysed⟩ := (mem_handed tree options (pathOf above) path).mp hpath
  obtain ⟨names, hproper, rfl⟩ := FileTree.file_mem_walk hnames hsighting
  rw [Path.joined_pathOf habove hproper] at hanalysed ⊢
  have hall : ∀ name ∈ above ++ names, Path.isProperName name = true :=
    List.forall_mem_append.mpr ⟨habove, hproper⟩
  refine Path.isClean_iff.mpr ⟨above ++ names, ?_, hall, rfl⟩
  -- the path of the root directory has no file name
  intro hempty
  have hnameless : (pathOf []).fileName? = none := by decide
  rw [hempty, Survey.isAnalysed, Survey.isSourceFile, hnameless, Bool.false_and] at hanalysed
  exact Bool.false_ne_true hanalysed

/-- Imports lead from clean paths to clean paths. -/
theorem isClean_of_imports {files : Files} {path target : Path} (hclean : path.isClean = true)
    (himports : Imports files path target) : target.isClean = true := by
  obtain ⟨source, _, _, htarget⟩ := himports
  have hlocal := isLocal_of_importTarget? htarget
  obtain ⟨names, hnonempty, hnames, rfl⟩ := Path.isClean_iff.mp hclean
  obtain ⟨front, name, rfl⟩ := List.eq_nil_or_concat names |>.resolve_left hnonempty
  rw [List.concat_eq_append] at hnames htarget
  rw [importTarget?, if_pos hlocal, Path.parent?_pathOf hnames, Option.bind_some] at htarget
  refine Specifier.isClean_of_resolve ?_ hlocal htarget
  rw [Path.key_pathOf (List.forall_mem_append.mp hnames).1]

variable (hnames : tree.isWellNamed = true) {above : Location}
  (habove : ∀ name ∈ above, Path.isProperName name = true)

include hnames habove

theorem isClean_of_entered {path : Path}
    (hentered : path ∈ entered (surveyJournal parse tree options (pathOf above))) :
    path.isClean = true :=
  forall_entered_survey (fun path ↦ path.isClean = true)
    (fun _ hpath ↦ isClean_of_handed hnames habove hpath)
    (fun _ _ hclean himports ↦ isClean_of_imports hclean himports) hentered

end Clean

/-! ### What acts can bring into a ledger -/

section Acts

variable {files : Files}

theorem mem_addPath {paths : List Path} {path other : Path}
    (hother : other ∈ Ledger.addPath paths path) : other ∈ paths ∨ other = path := by
  rw [Ledger.addPath] at hother
  split at hother
  · exact Or.inl hother
  · rwa [List.mem_append, List.mem_singleton] at hother

theorem mem_marks_move {marked others : List Path} {path other : Path}
    (hother : other ∈ Ledger.addPath marked path ∨ other ∈ Ledger.dropPath others path) :
    other ∈ marked ∨ other ∈ others ∨ other = path := by
  rcases hother with hmarked | hdropped
  · rcases mem_addPath hmarked with hold | hnew
    · exact Or.inl hold
    · exact Or.inr (Or.inr hnew)
  · exact Or.inr (Or.inl (List.mem_of_mem_filter hdropped))

/-- An act marks no other file than the one that it enters. -/
theorem mem_marks_perform {ledger : Ledger} {act : Act} {path : Path}
    (hpath : path ∈ (perform files ledger act).parsed ++ (perform files ledger act).skipped) :
    path ∈ ledger.parsed ++ ledger.skipped ∨ path ∈ entered [act] := by
  cases act with
  | call other depth => exact Or.inl hpath
  | remark other message => exact Or.inl hpath
  | book booking =>
    rw [perform, Ledger.parsed_book, Ledger.skipped_book] at hpath
    exact Or.inl hpath
  | enter other depth =>
    have hentered : path = other → path ∈ entered [.enter other depth] := by
      rintro rfl
      exact List.mem_singleton_self path
    rw [perform, judge] at hpath
    rw [List.mem_append]
    split at hpath
    · rw [complain_eq, List.mem_append] at hpath
      exact (or_assoc.mpr (mem_marks_move hpath)).imp_right hentered
    · rw [complain_eq, List.mem_append] at hpath
      rcases mem_marks_move hpath.symm with hskipped | hparsed | hnew
      · exact Or.inl (Or.inr hskipped)
      · exact Or.inl (Or.inl hparsed)
      · exact Or.inr (hentered hnew)

/-- A replay marks no other files than those that the journal enters. -/
theorem mem_marks_replay {acts : List Act} {ledger : Ledger} {path : Path}
    (hpath : path ∈ (replay files acts ledger).parsed ++ (replay files acts ledger).skipped) :
    path ∈ ledger.parsed ++ ledger.skipped ∨ path ∈ entered acts := by
  induction acts generalizing ledger with
  | nil => exact Or.inl hpath
  | cons act rest ih =>
    have hsplit : entered (act :: rest) = entered [act] ++ entered rest := by
      rw [entered, ← List.singleton_append, entries_append, List.map_append]
      rfl
    rw [hsplit]
    rcases ih hpath with hperformed | hlater
    · exact (mem_marks_perform hperformed).imp_right (List.mem_append_left _)
    · exact Or.inr (List.mem_append_right _ hlater)

/-- The sources after a replay are files by which the journal declares names. -/
theorem declare_mem_of_source {acts : List Act} {name : String} {path : Path}
    (hsource : ((replay files acts {}).recordOf name).source = some path) :
    .declare name path ∈ booked acts := by
  have hrecord : (replay files acts {}).recordOf name =
      (Ledger.bookAll {} (booked acts)).recordOf name :=
    congrFun (Ledger.recordOf_congr (records_replay acts {})) name
  have hfresh : ((Ledger.recordOf {} name).source) = none := rfl
  rw [hrecord, Ledger.source_bookAll, hfresh, Option.none_or] at hsource
  obtain ⟨booking, hbooking, hdeclarer⟩ := List.exists_of_findSome?_eq_some hsource
  rwa [(declarer?_eq_some_iff booking name path).mp hdeclarer] at hbooking

end Acts

/-! ### Surveys -/

section Survey

variable {parse : Source.Parser} {tree : FileTree} {options : Options}

/-- A survey writes what the files that it enters contribute, each file once. -/
theorem booked_perm_survey (parse : Source.Parser) (tree : FileTree) (options : Options)
    (root : Path) :
    (booked (surveyJournal parse tree options root)).Perm
      ((entered (surveyJournal parse tree options root)).flatMap
        (contribution (.ofTree parse tree) options)) := by
  have hperm := (run_surveyJournal parse tree options root).booked_perm
  rwa [flatMap_pending_of_initial (initial_surveyAgenda tree options root),
    List.nil_append] at hperm

theorem mem_entered_of_declare {root : Path} {name : String} {path : Path}
    (hdeclare : .declare name path ∈ booked (surveyJournal parse tree options root)) :
    path ∈ entered (surveyJournal parse tree options root) := by
  rw [(booked_perm_survey parse tree options root).mem_iff, List.mem_flatMap] at hdeclare
  obtain ⟨file, hfile, hcontributed⟩ := hdeclare
  rw [((declare_mem_scanBookings _ _ _ _ _).mp hcontributed).1]
  exact hfile

variable (hnames : tree.isWellNamed = true) {above : Location}
  (habove : ∀ name ∈ above, Path.isProperName name = true)

include hnames habove

/-- As far as a survey has got, it has put clean paths into the ledger. -/
theorem isClean_replay {sofar : List Act}
    (hsofar : sofar <+: surveyJournal parse tree options (pathOf above)) :
    (replay (.ofTree parse tree) sofar {}).IsClean where
  marks := by
    intro path hpath
    rcases mem_marks_replay hpath with hbefore | hentered
    · cases hbefore
    · have hbegins : entered sofar <+: entered (surveyJournal parse tree options (pathOf above)) :=
        (hsofar.filterMap _).map _
      exact isClean_of_entered hnames habove (hbegins.subset hentered)
  sources := by
    intro name path hsource
    have hbegins : booked sofar <+: booked (surveyJournal parse tree options (pathOf above)) :=
      hsofar.filterMap _
    exact isClean_of_entered hnames habove
      (mem_entered_of_declare (hbegins.subset (declare_mem_of_source hsource)))

/-- No file is entered twice, by whatever paths. Assumes: there are no links. -/
theorem nodup_places_entered (hfree : tree.isLinkFree = true) :
    ((entered (surveyJournal parse tree options (pathOf above))).filterMap fun path ↦
      (tree.locate path).toOption).Nodup := by
  have hkeys : ((entered (surveyJournal parse tree options (pathOf above))).map Path.key).Nodup :=
    (run_surveyJournal parse tree options (pathOf above)).nodup_keys .nil
  have hlocated {path : Path} {location : Location}
      (hlocation : location ∈ (tree.locate path).toOption) : tree.locate path = .ok location := by
    cases hlocate : tree.locate path with
    | error fault => simp [hlocate, Except.toOption] at hlocation
    | ok found => simpa [hlocate, Except.toOption] using hlocation
  rw [List.Nodup, List.pairwise_filterMap]
  refine (List.Pairwise.and_mem.mp (List.pairwise_map.mp hkeys)).imp ?_
  rintro first second ⟨hfirst, hsecond, hne⟩ location hfirstPlace other hsecondPlace rfl
  refine hne (congrArg Path.key ?_)
  exact FileTree.eq_of_locate_clean hfree (isClean_of_entered hnames habove hfirst)
    (isClean_of_entered hnames habove hsecond) (hlocated hfirstPlace) (hlocated hsecondPlace)

end Survey

/-- A file has one key. The analysis of a usable root is its journal replayed, and after every act
of it all paths in the ledger, those of marked files and those of sources, are absolute and
lexically clean. If there are no links, two marked paths that lead to one file are therefore the
same, and every file is entered at most once. What is written are the contributions of the files
that are entered, each once. -/
theorem one_key_per_file (parse : Source.Parser) {tree : FileTree}
    (hnames : tree.isWellNamed = true) (options : Options) {root path : Path}
    (hroot : Project.rootOf tree root = .ok path) :
    Project.tryAnalyze parse tree options root =
      .ok (Project.outcomeOf options
        (replay (.ofTree parse tree) (surveyJournal parse tree options path) {})) ∧
    (∀ sofar, sofar <+: surveyJournal parse tree options path →
      (replay (.ofTree parse tree) sofar {}).IsClean ∧
        (tree.isLinkFree = true → (replay (.ofTree parse tree) sofar {}).HasOnePathPerPlace tree)) ∧
    (tree.isLinkFree = true →
      ((entered (surveyJournal parse tree options path)).filterMap fun path ↦
        (tree.locate path).toOption).Nodup) ∧
    (booked (surveyJournal parse tree options path)).Perm
      ((entered (surveyJournal parse tree options path)).flatMap
        (contribution (.ofTree parse tree) options)) := by
  obtain ⟨above, hlocate, rfl⟩ := Project.exists_locate_of_rootOf hroot
  have habove := FileTree.isProperName_of_locate hnames hlocate
  refine ⟨?_, ?_, nodup_places_entered hnames habove, booked_perm_survey parse tree options _⟩
  · rw [Project.tryAnalyze, hroot, Except.map, Project.ledgerOf, survey_eq_replay]
  · intro sofar hsofar
    have hclean := isClean_replay hnames habove hsofar
    refine ⟨hclean, ?_⟩
    intro hfree first hfirst second hsecond location hfirstPlace hsecondPlace
    exact FileTree.eq_of_locate_clean hfree (hclean.marks first hfirst)
      (hclean.marks second hsecond) hfirstPlace hsecondPlace

/-- A project of one file, which imports a file from outside of it, and is imported by that file,
by specifiers that take the long way round. -/
def roundabout : FileTree where
  root := .directory [
    ("app", .directory [
      ("App.tsx", .file (.text "import './..//app/./../lib/Part.ts'; function App() \x7b\x7d"))]),
    ("lib", .directory [
      ("Part.ts", .file (.text "import '..//lib/../app/.//App'; function Part() \x7b\x7d"))])]
  workingDirectory := ["lib"]

theorem one_key_per_file_roundabout :
    roundabout.isWellNamed = true ∧ roundabout.isLinkFree = true ∧
    Project.rootOf roundabout ⟨"..//app/."⟩ = .ok ⟨"/app"⟩ ∧
    entered (surveyJournal Source.parse roundabout {} ⟨"/app"⟩) =
      [⟨"/app/App.tsx"⟩, ⟨"/lib/Part.ts"⟩] ∧
    (replay (.ofTree Source.parse roundabout)
      (surveyJournal Source.parse roundabout {} ⟨"/app"⟩) {}).IsClean ∧
    ((entered (surveyJournal Source.parse roundabout {} ⟨"/app"⟩)).filterMap fun path ↦
      (roundabout.locate path).toOption).Nodup := by
  have hnames : roundabout.isWellNamed = true := by decide +kernel
  have hfree : roundabout.isLinkFree = true := by decide +kernel
  have hroot : Project.rootOf roundabout ⟨"..//app/."⟩ = .ok ⟨"/app"⟩ := by decide +kernel
  obtain ⟨_, hclean, honce, _⟩ := one_key_per_file Source.parse hnames {} hroot
  exact ⟨hnames, hfree, hroot, by decide +kernel, (hclean _ List.prefix_rfl).1, honce hfree⟩

end Journal

end ComponentGraph
