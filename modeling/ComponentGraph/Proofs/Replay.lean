import ComponentGraph.Proofs.Journal

/-!
A journal replayed on a ledger gives what the analysis gives.

`analyze_eq` is the recursion of the analysis written out with its two guards: a file is left alone
if it was visited or lies beyond the depth of the options, and otherwise its events are entered,
where an import is followed as long as the depth is below the limit. `Run.run_eq_replay` then shows
that working off an agenda and replaying the journal that the machine leaves for it are the same.

A ledger after a replay is known in closed form. The files entered are appended to those parsed or
to those skipped, each by its own examination (`Run.marks_replay`), the records are those with all
bookings of the journal written in (`records_replay`), and the diagnostics are appended act by act
(`diagnostics_replay`). A survey is an agenda of visits and remarks (`survey_run_eq`), so all of
this holds of surveys.
-/

set_option autoImplicit false
set_option relaxedAutoImplicit false

namespace ComponentGraph.Journal

open Analysis

variable {files : Files} {options : Options}

/-! ### The recursion of the analysis -/

/-- What an import in a file of this depth leads to. -/
def followAt (files : Files) (options : Options) (depth : Nat) : Path → Ledger → Ledger :=
  fun target ledger ↦
    if depth < options.importDepth then analyze files options target (depth + 1) ledger else ledger

theorem analyze_of_not_beyond {path : Path} {depth : Nat} (ledger : Ledger)
    (hwithin : isBeyond options path depth = false) :
    analyze files options path depth ledger =
      visit files options (options.importDepth - depth) path ledger := by
  unfold isBeyond at hwithin
  rw [analyze, hwithin, if_neg Bool.false_ne_true]

theorem visit_eq_analyze {depth : Nat} (hlimit : depth ≤ options.importDepth) (path : Path)
    (ledger : Ledger) :
    visit files options (options.importDepth - depth) path ledger =
      analyze files options path depth ledger := by
  refine (analyze_of_not_beyond ledger ?_).symm
  simp [isBeyond, Nat.not_lt.mpr hlimit]

/-- The recursion of the analysis, with its guards in the order in which they are asked. -/
theorem analyze_eq (path : Path) (depth : Nat) (ledger : Ledger) :
    analyze files options path depth ledger =
      if ledger.isVisited path then ledger
      else if isBeyond options path depth then ledger
      else enterFile files options (followAt files options depth) path ledger := by
  by_cases hbeyond : isBeyond options path depth = true
  · have hunchanged : analyze files options path depth ledger = ledger := by
      unfold isBeyond at hbeyond
      rw [analyze, hbeyond, if_pos rfl]
    rw [hunchanged, if_pos hbeyond, ite_self]
  · rw [if_neg hbeyond, analyze_of_not_beyond ledger (Bool.eq_false_iff.mpr hbeyond)]
    cases hhops : options.importDepth - depth with
    | zero =>
      have hfollow : followAt files options depth = fun _ unchanged ↦ unchanged := by
        funext target unchanged
        exact if_neg (by omega)
      rw [visit, hfollow]
    | succ hops =>
      have hfollow : followAt files options depth = visit files options hops := by
        funext target unvisited
        have hnext : hops = options.importDepth - (depth + 1) := by omega
        rw [followAt, if_pos (by omega), hnext, visit_eq_analyze (by omega)]
      rw [visit, hfollow]

/-! ### Working off an agenda -/

/-- Carries out a task. -/
def runTask (files : Files) (options : Options) (ledger : Ledger) : Task → Ledger
  | .visit path depth => analyze files options path depth ledger
  | .scan path depth active events =>
      (events.foldl (enterEvent files options (followAt files options depth) path)
        (ledger, active)).1
  | .remark path message => ledger.diagnose path .walk message

/-- Carries out the tasks of an agenda. -/
def runAgenda (files : Files) (options : Options) (agenda : List Task) (ledger : Ledger) : Ledger :=
  agenda.foldl (runTask files options) ledger

theorem creditUse_eq (owner : Option String) (ledger : Ledger) (name : String) :
    creditUse owner ledger name = ledger.bookAll (creditBookings owner name) := by
  cases owner <;> rfl

theorem foldl_creditUse_eq (owner : Option String) (names : List String) (ledger : Ledger) :
    names.foldl (creditUse owner) ledger =
      ledger.bookAll (names.flatMap (creditBookings owner)) := by
  induction names generalizing ledger with
  | nil => rfl
  | cons name names ih =>
    rw [List.foldl_cons, ih, creditUse_eq, List.flatMap_cons, Ledger.bookAll_append]

theorem isLocal_of_importTarget? {path target : Path} {source : String}
    (htarget : importTarget? files path source = some target) :
    Specifier.isLocal source = true := by
  unfold importTarget? at htarget
  split at htarget
  · assumption
  · cases htarget

/-- An event writes its bookings, and then the visits that it leads to take place. -/
theorem enterEvent_eq (path : Path) (depth : Nat) (ledger : Ledger) (active : Option Active)
    (event : Source.Event) :
    enterEvent files options (followAt files options depth) path (ledger, active) event =
      (runAgenda files options (onward files options path depth event)
        (ledger.bookAll (eventBookings options path active event)),
        activeAfter options active event) := by
  cases event with
  | declared name => rfl
  | rendered name =>
    cases howner : owner? active with
    | none =>
      simp [enterEvent, eventBookings, howner, onward, runAgenda, Ledger.bookAll, activeAfter]
    | some owner =>
      simp [enterEvent, eventBookings, howner, onward, runAgenda, creditUse_eq, activeAfter]
  | imported source names =>
    cases htarget : importTarget? files path source with
    | none =>
      by_cases hcounts : countsImport options source = true
      · simp [enterEvent, eventBookings, hcounts, htarget, onward, runAgenda, foldl_creditUse_eq,
          activeAfter]
      · simp [enterEvent, eventBookings, hcounts, htarget, onward, runAgenda, Ledger.bookAll,
          activeAfter]
    | some target =>
      have hcounts : countsImport options source = true := by
        rw [countsImport, isLocal_of_importTarget? htarget, Bool.true_or]
      by_cases hlimit : depth < options.importDepth
      · simp [enterEvent, eventBookings, hcounts, htarget, onward, hlimit, runAgenda, runTask,
          followAt, foldl_creditUse_eq, activeAfter]
      · simp [enterEvent, eventBookings, hcounts, htarget, onward, hlimit, runAgenda, followAt,
          foldl_creditUse_eq, activeAfter]

/-! ### Judging a file -/

/-- Whether a file is a source file that can be parsed. -/
def isSource (files : Files) (path : Path) : Bool :=
  match examine files path with
  | .source _ => true
  | _ => false

/-- The diagnostics that the judgement of a file leaves. -/
def findings (files : Files) (path : Path) : List Ledger.Diagnostic :=
  ((examine files path).complaints path).map fun complaint ↦
    ⟨path.text, complaint.1, complaint.2⟩

theorem complain_eq (ledger : Ledger) (path : Path)
    (complaints : List (Ledger.Step × String)) :
    complain ledger path complaints =
      { ledger with
        diagnostics := ledger.diagnostics ++
          complaints.map fun complaint ↦ ⟨path.text, complaint.1, complaint.2⟩ } := by
  unfold complain
  induction complaints generalizing ledger with
  | nil => simp
  | cons complaint rest ih =>
    rw [List.foldl_cons, ih, Ledger.diagnose]
    simp

/-- A file is marked by its own examination, and its diagnostics are appended. Assumes: it was not
visited. -/
theorem judge_eq (files : Files) {path : Path} {ledger : Ledger}
    (hnew : ledger.isVisited path = false) :
    judge files path ledger =
      { ledger with
        parsed := ledger.parsed ++ [path].filter (isSource files)
        skipped := ledger.skipped ++ [path].filter fun path ↦ !isSource files path
        diagnostics := ledger.diagnostics ++ findings files path } := by
  obtain ⟨hparsed, hskipped⟩ := (Ledger.isVisited_eq_false_iff ledger path).mp hnew
  cases hexamined : examine files path <;>
    simp [judge, hexamined, complain_eq, findings, isSource, Ledger.markParsed, Ledger.markSkipped,
      Ledger.addPath_of_not_listed, Ledger.dropPath_of_not_listed, hparsed, hskipped]

@[simp] theorem records_judge (path : Path) (ledger : Ledger) :
    (judge files path ledger).records = ledger.records := by
  cases hexamined : examine files path <;>
    simp [judge, hexamined, complain_eq, Ledger.markParsed, Ledger.markSkipped]

@[simp] theorem diagnostics_judge (path : Path) (ledger : Ledger) :
    (judge files path ledger).diagnostics = ledger.diagnostics ++ findings files path := by
  cases hexamined : examine files path <;>
    simp [judge, hexamined, complain_eq, findings, Ledger.markParsed, Ledger.markSkipped]

/-- A file is judged first, and then its events are entered. -/
theorem enterFile_eq (depth : Nat) (path : Path) (ledger : Ledger) :
    enterFile files options (followAt files options depth) path ledger =
      runTask files options (judge files path ledger)
        (.scan path depth none (eventsOf files path)) := by
  cases hexamined : examine files path <;>
    simp [enterFile, hexamined, judge, eventsOf, runTask, enterEvents]

/-! ### What a ledger says was visited -/

/-- The listed paths are those that the ledger says were visited. -/
def Covers (seen : List Path) (ledger : Ledger) : Prop :=
  ∀ path, ledger.isVisited path = Ledger.listed seen path

theorem covers_empty : Covers [] {} := fun _ ↦ rfl

theorem Covers.bookAll {seen : List Path} {ledger : Ledger} (hcovers : Covers seen ledger)
    (bookings : List Ledger.Booking) : Covers seen (ledger.bookAll bookings) := by
  intro path
  simpa [Ledger.isVisited] using hcovers path

theorem Covers.judge (files : Files) {seen : List Path} {ledger : Ledger}
    (hcovers : Covers seen ledger) {path : Path} (hnew : Ledger.listed seen path = false) :
    Covers (seen ++ [path]) (judge files path ledger) := by
  intro other
  have hunvisited : ledger.isVisited path = false := (hcovers path).trans hnew
  have hother : (Ledger.listed ledger.parsed other || Ledger.listed ledger.skipped other) =
      Ledger.listed seen other := hcovers other
  rw [judge_eq files hunvisited, Ledger.listed_append, ← hother]
  by_cases hsource : isSource files path = true
  · simp [Ledger.isVisited, hsource, Bool.or_right_comm]
  · simp [Ledger.isVisited, hsource, Bool.or_assoc]

/-! ### Replaying -/

theorem replay_cons (act : Act) (acts : List Act) (ledger : Ledger) :
    replay files (act :: acts) ledger = replay files acts (perform files ledger act) :=
  rfl

theorem replay_append (first second : List Act) (ledger : Ledger) :
    replay files (first ++ second) ledger = replay files second (replay files first ledger) :=
  List.foldl_append

theorem replay_map_book (bookings : List Ledger.Booking) (ledger : Ledger) :
    replay files (bookings.map .book) ledger = ledger.bookAll bookings := by
  rw [replay, List.foldl_map]
  rfl

theorem runAgenda_cons (task : Task) (rest : List Task) (ledger : Ledger) :
    runAgenda files options (task :: rest) ledger =
      runAgenda files options rest (runTask files options ledger task) :=
  rfl

theorem runAgenda_append (first second : List Task) (ledger : Ledger) :
    runAgenda files options (first ++ second) ledger =
      runAgenda files options second (runAgenda files options first ledger) :=
  List.foldl_append

/-- Working off an agenda and replaying its journal are the same. Assumes: the machine starts with
the files that the ledger says were visited. -/
theorem Run.run_eq_replay {seen : List Path} {agenda : List Task} {acts : List Act}
    (hrun : Run files options seen agenda acts) {ledger : Ledger} (hcovers : Covers seen ledger) :
    runAgenda files options agenda ledger = replay files acts ledger := by
  induction hrun generalizing ledger with
  | done => rfl
  | @again seen path depth rest acts hseen _ ih =>
    have hvisited : ledger.isVisited path = true := (hcovers path).trans hseen
    have hunchanged : analyze files options path depth ledger = ledger := by
      rw [analyze_eq, if_pos hvisited]
    rw [runAgenda_cons, replay_cons, runTask, hunchanged, perform]
    exact ih hcovers
  | @beyond seen path depth rest acts _ hbeyond _ ih =>
    have hunchanged : analyze files options path depth ledger = ledger := by
      rw [analyze_eq, if_pos hbeyond, ite_self]
    rw [runAgenda_cons, replay_cons, runTask, hunchanged, perform]
    exact ih hcovers
  | @first seen path depth rest acts hnew hwithin _ ih =>
    have hunvisited : ledger.isVisited path = false := (hcovers path).trans hnew
    have hentered : analyze files options path depth ledger =
        runTask files options (judge files path ledger)
          (.scan path depth none (eventsOf files path)) := by
      rw [analyze_eq, hunvisited, hwithin, if_neg Bool.false_ne_true, if_neg Bool.false_ne_true,
        enterFile_eq]
    rw [runAgenda_cons, replay_cons, replay_cons, runTask, hentered, perform, perform,
      ← runAgenda_cons]
    exact ih (hcovers.judge files hnew)
  | @event seen path depth active event events rest acts _ ih =>
    rw [replay_append, replay_map_book,
      ← ih (hcovers.bookAll (eventBookings options path active event)), runAgenda_append,
      runAgenda_cons, runAgenda_cons]
    simp only [runTask, List.foldl_cons, enterEvent_eq]
  | closed _ ih => exact ih hcovers
  | @remark seen path message rest acts _ ih =>
    have hremarked : Covers seen (ledger.diagnose path .walk message) := hcovers
    exact ih hremarked

/-! ### The ledger after a replay -/

/-- The files entered are appended to those parsed or to those skipped, each by its own
examination. -/
theorem Run.marks_replay {seen : List Path} {agenda : List Task} {acts : List Act}
    (hrun : Run files options seen agenda acts) {ledger : Ledger} (hcovers : Covers seen ledger) :
    (replay files acts ledger).parsed = ledger.parsed ++ (entered acts).filter (isSource files) ∧
      (replay files acts ledger).skipped =
        ledger.skipped ++ (entered acts).filter fun path ↦ !isSource files path := by
  induction hrun generalizing ledger with
  | done => simp [entered, entries, replay]
  | again _ _ ih => exact ih hcovers
  | beyond _ _ _ ih => exact ih hcovers
  | @first seen path depth rest acts hnew _ _ ih =>
    obtain ⟨hparsed, hskipped⟩ := ih (hcovers.judge files hnew)
    have hjudged := judge_eq files ((hcovers path).trans hnew)
    have hentered : entered (.call path depth :: .enter path depth :: acts) =
        [path] ++ entered acts := rfl
    rw [replay_cons, replay_cons, perform, perform, hparsed, hskipped, hjudged, hentered,
      List.filter_append, List.filter_append, List.append_assoc, List.append_assoc]
    exact ⟨rfl, rfl⟩
  | @event seen path depth active event events rest acts _ ih =>
    have hrest := ih (hcovers.bookAll (eventBookings options path active event))
    simpa [entered, replay_append, replay_map_book] using hrest
  | closed _ ih => exact ih hcovers
  | remark _ ih => exact ih hcovers

theorem listed_filter_or (paths : List Path) (choose : Path → Bool) (path : Path) :
    (Ledger.listed (paths.filter choose) path ||
      Ledger.listed (paths.filter fun other ↦ !choose other) path) =
        Ledger.listed paths path := by
  induction paths with
  | nil => rfl
  | cons other rest ih =>
    have hsplit (more : List Path) : Ledger.listed (other :: more) path =
        (other.sameKey path || Ledger.listed more path) := rfl
    rw [hsplit rest, ← ih]
    by_cases hchoose : choose other = true
    · simp [hchoose, hsplit, Bool.or_assoc]
    · simp [hchoose, hsplit, Bool.or_left_comm]

theorem Run.covers_replay {seen : List Path} {agenda : List Task} {acts : List Act}
    (hrun : Run files options seen agenda acts) {ledger : Ledger} (hcovers : Covers seen ledger) :
    Covers (seen ++ entered acts) (replay files acts ledger) := by
  intro path
  obtain ⟨hparsed, hskipped⟩ := hrun.marks_replay hcovers
  have hbefore : (Ledger.listed ledger.parsed path || Ledger.listed ledger.skipped path) =
      Ledger.listed seen path := hcovers path
  rw [Ledger.isVisited, hparsed, hskipped, Ledger.listed_append, Ledger.listed_append,
    Ledger.listed_append, ← hbefore, ← listed_filter_or (entered acts) (isSource files)]
  ac_rfl

theorem records_bookAll_congr {first second : Ledger} (hrecords : first.records = second.records)
    (bookings : List Ledger.Booking) :
    (first.bookAll bookings).records = (second.bookAll bookings).records := by
  induction bookings generalizing first second with
  | nil => exact hrecords
  | cons booking rest ih =>
    refine ih ?_
    cases booking <;>
      simp [Ledger.book, Ledger.declare, Ledger.recordUse, Ledger.addDependency, Ledger.update,
        hrecords]

/-- The records after a replay are those with all bookings of the journal written in. -/
theorem records_replay (acts : List Act) (ledger : Ledger) :
    (replay files acts ledger).records = (ledger.bookAll (booked acts)).records := by
  induction acts generalizing ledger with
  | nil => rfl
  | cons act rest ih =>
    rw [replay_cons, ih]
    cases act with
    | call path depth => rfl
    | enter path depth => exact records_bookAll_congr (records_judge path ledger) _
    | book booking => rfl
    | remark path message =>
      have hrecords : (ledger.diagnose path .walk message).records = ledger.records := rfl
      exact records_bookAll_congr hrecords _

/-- The diagnostics that an act leaves. -/
def actDiagnostics (files : Files) : Act → List Ledger.Diagnostic
  | .enter path _ => findings files path
  | .remark path message => [⟨path.text, .walk, message⟩]
  | _ => []

theorem diagnostics_replay (acts : List Act) (ledger : Ledger) :
    (replay files acts ledger).diagnostics =
      ledger.diagnostics ++ acts.flatMap (actDiagnostics files) := by
  induction acts generalizing ledger with
  | nil => simp [replay]
  | cons act rest ih =>
    rw [replay_cons, ih, List.flatMap_cons, ← List.append_assoc]
    cases act <;> simp [perform, actDiagnostics, Ledger.diagnose]

/-! ### Surveys -/

/-- The task that a sighting leads to. -/
def taskOf? (options : Options) : FileTree.Sighting → Option Task
  | .file path => if Survey.isAnalysed options path then some (.visit path 0) else none
  | .directory _ => none
  | .inaccessible path fault => some (.remark path (Survey.inaccessibleMessage path fault))
  | .loop path ancestor => some (.remark path (Survey.loopMessage path ancestor))

/-- The agenda of a survey: the patterns that cannot be read come first, then what the walk comes
across. -/
def surveyAgenda (tree : FileTree) (options : Options) (root : Path) : List Task :=
  (Survey.patternComplaints options).map (.remark root) ++
    (Survey.sightings tree options root).filterMap (taskOf? options)

theorem enterSighting_eq (ledger : Ledger) (sighting : FileTree.Sighting) :
    Survey.enterSighting files options ledger sighting =
      runAgenda files options (taskOf? options sighting).toList ledger := by
  cases sighting with
  | file path =>
    by_cases hanalysed : Survey.isAnalysed options path = true
    · simp [Survey.enterSighting, taskOf?, hanalysed, runAgenda, runTask]
    · simp [Survey.enterSighting, taskOf?, hanalysed, runAgenda]
  | directory path => rfl
  | inaccessible path fault => rfl
  | loop path ancestor => rfl

theorem foldl_enterSighting_eq (sightings : List FileTree.Sighting) (ledger : Ledger) :
    sightings.foldl (Survey.enterSighting files options) ledger =
      runAgenda files options (sightings.filterMap (taskOf? options)) ledger := by
  induction sightings generalizing ledger with
  | nil => rfl
  | cons sighting rest ih =>
    rw [List.foldl_cons, ih, enterSighting_eq, ← runAgenda_append, List.filterMap_cons]
    cases taskOf? options sighting <;> rfl

/-- A survey works off its agenda. -/
theorem survey_run_eq (parse : Source.Parser) (tree : FileTree) (options : Options) (root : Path)
    (ledger : Ledger) :
    Survey.run parse tree options root ledger =
      runAgenda (.ofTree parse tree) options (surveyAgenda tree options root) ledger := by
  rw [Survey.run, foldl_enterSighting_eq, surveyAgenda, runAgenda_append]
  congr 1
  rw [runAgenda, List.foldl_map]
  rfl

/-- The files that the walk of a survey hands over to be analysed, in the order of the walk. -/
def handed (tree : FileTree) (options : Options) (root : Path) : List Path :=
  (Survey.sightings tree options root).filterMap fun
    | .file path => if Survey.isAnalysed options path then some path else none
    | _ => none

theorem mem_handed (tree : FileTree) (options : Options) (root path : Path) :
    path ∈ handed tree options root ↔
      .file path ∈ Survey.sightings tree options root ∧
        Survey.isAnalysed options path = true := by
  rw [handed, List.mem_filterMap]
  constructor
  · rintro ⟨sighting, hsighting, hhanded⟩
    cases sighting with
    | file found =>
      simp only [Option.ite_none_right_eq_some, Option.some.injEq] at hhanded
      obtain ⟨hanalysed, rfl⟩ := hhanded
      exact ⟨hsighting, hanalysed⟩
    | directory found => cases hhanded
    | inaccessible found fault => cases hhanded
    | loop found ancestor => cases hhanded
  · rintro ⟨hsighting, hanalysed⟩
    exact ⟨.file path, hsighting, if_pos hanalysed⟩

/-- A survey visits the files that are handed over, at depth zero, and otherwise only remarks. -/
theorem task_of_mem_surveyAgenda {tree : FileTree} {options : Options} {root : Path} {task : Task}
    (htask : task ∈ surveyAgenda tree options root) :
    (∃ path ∈ handed tree options root, task = .visit path 0) ∨
      ∃ path message, task = .remark path message := by
  rw [surveyAgenda, List.mem_append, List.mem_map, List.mem_filterMap] at htask
  rcases htask with ⟨message, _, rfl⟩ | ⟨sighting, hsighting, htask⟩
  · exact Or.inr ⟨root, message, rfl⟩
  · cases sighting with
    | file path =>
      simp only [taskOf?, Option.ite_none_right_eq_some, Option.some.injEq] at htask
      obtain ⟨hanalysed, rfl⟩ := htask
      exact Or.inl ⟨path, (mem_handed tree options root path).mpr ⟨hsighting, hanalysed⟩, rfl⟩
    | directory path => cases htask
    | inaccessible path fault =>
      cases htask
      exact Or.inr ⟨path, _, rfl⟩
    | loop path ancestor =>
      cases htask
      exact Or.inr ⟨path, _, rfl⟩

theorem visit_mem_surveyAgenda {tree : FileTree} {options : Options} {root path : Path}
    (hpath : path ∈ handed tree options root) : .visit path 0 ∈ surveyAgenda tree options root := by
  obtain ⟨hsighting, hanalysed⟩ := (mem_handed tree options root path).mp hpath
  refine List.mem_append_right _ (List.mem_filterMap.mpr ⟨.file path, hsighting, ?_⟩)
  rw [taskOf?, if_pos hanalysed]

/-- The journal of a survey that starts with an empty ledger. -/
def surveyJournal (parse : Source.Parser) (tree : FileTree) (options : Options) (root : Path) :
    List Act :=
  journal (.ofTree parse tree) options (surveyAgenda tree options root) []

theorem run_surveyJournal (parse : Source.Parser) (tree : FileTree) (options : Options)
    (root : Path) :
    Run (.ofTree parse tree) options [] (surveyAgenda tree options root)
      (surveyJournal parse tree options root) :=
  run_journal _ _

/-- A survey of an empty ledger is its journal replayed. -/
theorem survey_eq_replay (parse : Source.Parser) (tree : FileTree) (options : Options)
    (root : Path) :
    Survey.run parse tree options root {} =
      replay (.ofTree parse tree) (surveyJournal parse tree options root) {} := by
  rw [survey_run_eq]
  exact (run_surveyJournal parse tree options root).run_eq_replay covers_empty

theorem parsed_survey (parse : Source.Parser) (tree : FileTree) (options : Options) (root : Path) :
    (Survey.run parse tree options root {}).parsed =
      (entered (surveyJournal parse tree options root)).filter (isSource (.ofTree parse tree)) := by
  rw [survey_eq_replay]
  exact ((run_surveyJournal parse tree options root).marks_replay covers_empty).1

theorem skipped_survey (parse : Source.Parser) (tree : FileTree) (options : Options) (root : Path) :
    (Survey.run parse tree options root {}).skipped =
      (entered (surveyJournal parse tree options root)).filter fun path ↦
        !isSource (.ofTree parse tree) path := by
  rw [survey_eq_replay]
  exact ((run_surveyJournal parse tree options root).marks_replay covers_empty).2

theorem isVisited_survey (parse : Source.Parser) (tree : FileTree) (options : Options)
    (root path : Path) :
    (Survey.run parse tree options root {}).isVisited path =
      Ledger.listed (entered (surveyJournal parse tree options root)) path := by
  rw [survey_eq_replay]
  exact (run_surveyJournal parse tree options root).covers_replay covers_empty path

end ComponentGraph.Journal
