import ComponentGraph.Proofs.Replay

/-!
Which files an analysis gets to. Imports are followed depth first, and a file is entered only the
first time it is reached, at the depth of that time.

A journal answers where each call comes from. `Run.forall_calls` is the induction behind it: what
holds of the agenda and is handed on from a file to what it imports holds of every call.
`Run.calls_complete` is the converse: a file that was entered below the limit has every import
followed. From the first it follows that following imports is sound: every visited file lies at the
end of a chain of imports no longer than the limit, and no call has a depth beyond it.

It is not complete up to that limit. A file that is first reached at the limit leads no further,
and it is not entered again when a shorter chain comes to it later (`detour`). What is visited is
exactly what is handed over or imported by a file that was entered below the limit.
-/

set_option autoImplicit false
set_option relaxedAutoImplicit false

namespace ComponentGraph.Journal

open Analysis

variable {files : Files} {options : Options}

/-! ### Imports and chains -/

/-- A source file has a local import that leads to the target. -/
def Imports (files : Files) (path target : Path) : Prop :=
  ∃ source names, .imported source names ∈ eventsOf files path ∧
    importTarget? files path source = some target

/-- A chain of so many hops from one path to another. -/
inductive Chain (hop : Path → Path → Prop) : Nat → Path → Path → Prop where
  | here (path : Path) : Chain hop 0 path path
  | onward {length : Nat} {start middle last : Path} (hchain : Chain hop length start middle)
      (hhop : hop middle last) : Chain hop (length + 1) start last

theorem Chain.imp {first second : Path → Path → Prop}
    (himp : ∀ path target, first path target → second path target) {length : Nat}
    {start last : Path} (hchain : Chain first length start last) :
    Chain second length start last := by
  induction hchain with
  | here path => exact .here path
  | onward _ hhop ih => exact .onward ih (himp _ _ hhop)

theorem visit_mem_onward {path target : Path} {depth next : Nat} {event : Source.Event} :
    .visit target next ∈ onward files options path depth event ↔
      ∃ source names, event = .imported source names ∧
        importTarget? files path source = some target ∧
          depth < options.importDepth ∧ next = depth + 1 := by
  cases event with
  | declared name => simp [onward]
  | rendered name => simp [onward]
  | imported source names =>
    by_cases hlimit : depth < options.importDepth
    · simp only [onward, if_pos hlimit, List.mem_map, Option.mem_toList, Task.visit.injEq]
      constructor
      · rintro ⟨found, hfound, rfl, rfl⟩
        exact ⟨source, names, rfl, hfound, hlimit, rfl⟩
      · rintro ⟨_, _, heq, hfound, _, rfl⟩
        cases heq
        exact ⟨target, hfound, rfl, rfl⟩
    · simp [onward, hlimit]

theorem imports_of_visit_mem_onward {path target : Path} {depth next : Nat}
    {event : Source.Event} (hevent : event ∈ eventsOf files path)
    (hvisit : .visit target next ∈ onward files options path depth event) :
    Imports files path target ∧ depth < options.importDepth ∧ next = depth + 1 := by
  obtain ⟨source, names, rfl, htarget, hlimit, hnext⟩ := visit_mem_onward.mp hvisit
  exact ⟨⟨source, names, hevent, htarget⟩, hlimit, hnext⟩

/-! ### Where calls come from -/

/-- The visits that a task asks for, now or by the events that it still has to scan, have a
property. -/
def Expects (files : Files) (options : Options) (property : Path → Nat → Prop) : Task → Prop
  | .visit path depth => property path depth
  | .scan path depth _ events => ∀ event ∈ events, ∀ target next,
      .visit target next ∈ onward files options path depth event → property target next
  | .remark _ _ => True

theorem Expects.imp {first second : Path → Nat → Prop} (himp : ∀ path depth, first path depth →
    second path depth) {task : Task} (hexpects : Expects files options first task) :
    Expects files options second task := by
  cases task with
  | visit path depth => exact himp path depth hexpects
  | scan path depth active events =>
    exact fun event hevent target next hvisit ↦
      himp target next (hexpects event hevent target next hvisit)
  | remark path message => trivial

theorem expects_onward {property : Path → Nat → Prop} {path : Path} {depth : Nat}
    {event : Source.Event}
    (hvisits : ∀ target next,
      .visit target next ∈ onward files options path depth event → property target next) :
    ∀ task ∈ onward files options path depth event, Expects files options property task := by
  intro task htask
  obtain ⟨target, rfl⟩ := exists_visit_of_mem_onward htask
  exact hvisits target (depth + 1) htask

/-- What holds of the visits on the agenda, and is handed on from a file that is entered below the
limit to what it imports, holds of every call. -/
theorem Run.forall_calls {property : Path → Nat → Prop} {seen : List Path} {agenda : List Task}
    {acts : List Act} (hrun : Run files options seen agenda acts)
    (hagenda : ∀ task ∈ agenda, Expects files options property task)
    (hhop : ∀ path depth target, (path, depth) ∈ entries acts → property path depth →
      Imports files path target → depth < options.importDepth → property target (depth + 1)) :
    ∀ call ∈ calls acts, property call.1 call.2 := by
  induction hrun with
  | done => exact fun call hcall ↦ absurd hcall List.not_mem_nil
  | again _ _ ih =>
    obtain ⟨hhere, hrest⟩ := List.forall_mem_cons.mp hagenda
    exact List.forall_mem_cons.mpr ⟨hhere, ih hrest hhop⟩
  | beyond _ _ _ ih =>
    obtain ⟨hhere, hrest⟩ := List.forall_mem_cons.mp hagenda
    exact List.forall_mem_cons.mpr ⟨hhere, ih hrest hhop⟩
  | @first seen path depth rest acts _ _ _ ih =>
    obtain ⟨hhere, hrest⟩ := List.forall_mem_cons.mp hagenda
    -- the entry of this file is the first of the journal, so its imports are handed the property
    have hscan : Expects files options property (.scan path depth none (eventsOf files path)) := by
      intro event hevent target next hvisit
      obtain ⟨himports, hlimit, rfl⟩ := imports_of_visit_mem_onward hevent hvisit
      exact hhop path depth target List.mem_cons_self hhere himports hlimit
    refine List.forall_mem_cons.mpr ⟨hhere, ih (List.forall_mem_cons.mpr ⟨hscan, hrest⟩) ?_⟩
    exact fun other next target hentry ↦ hhop other next target (List.mem_cons_of_mem _ hentry)
  | @event seen path depth active event events rest acts _ ih =>
    obtain ⟨hscan, hrest⟩ := List.forall_mem_cons.mp hagenda
    obtain ⟨hevent, hevents⟩ := List.forall_mem_cons.mp hscan
    rw [calls_append, calls_map_book, List.nil_append]
    rw [entries_append, entries_map_book, List.nil_append] at hhop
    refine ih (List.forall_mem_append.mpr ⟨expects_onward hevent, ?_⟩) hhop
    exact List.forall_mem_cons.mpr ⟨hevents, hrest⟩
  | closed _ ih => exact ih (List.forall_mem_cons.mp hagenda).2 hhop
  | remark _ ih => exact ih (List.forall_mem_cons.mp hagenda).2 hhop

/-- What is entered was called. -/
theorem Run.entries_subset_calls {seen : List Path} {agenda : List Task} {acts : List Act}
    (hrun : Run files options seen agenda acts) : ∀ entry ∈ entries acts, entry ∈ calls acts := by
  induction hrun with
  | done => exact fun entry hentry ↦ hentry
  | again _ _ ih => exact fun entry hentry ↦ List.mem_cons_of_mem _ (ih entry hentry)
  | beyond _ _ _ ih => exact fun entry hentry ↦ List.mem_cons_of_mem _ (ih entry hentry)
  | first _ _ _ ih =>
    exact List.forall_mem_cons.mpr ⟨List.mem_cons_self,
      fun entry hentry ↦ List.mem_cons_of_mem _ (ih entry hentry)⟩
  | event _ ih => simpa using ih
  | closed _ ih => exact ih
  | remark _ ih => exact ih

/-! ### What calls lead to -/

/-- Nothing is left out of the calls of a journal. -/
structure CallsComplete (files : Files) (options : Options) (agenda : List Task)
    (acts : List Act) : Prop where
  /-- What the agenda asks for is called. -/
  asked : ∀ task ∈ agenda,
    Expects files options (fun path depth ↦ (path, depth) ∈ calls acts) task
  /-- What a file that is entered below the limit imports is called. -/
  imported : ∀ path depth target, (path, depth) ∈ entries acts → Imports files path target →
    depth < options.importDepth → (target, depth + 1) ∈ calls acts

/-- A visit is called first of all. -/
theorem CallsComplete.call {rest : List Task} {acts : List Act}
    (hcomplete : CallsComplete files options rest acts) (path : Path) (depth : Nat) :
    CallsComplete files options (.visit path depth :: rest) (.call path depth :: acts) where
  asked := by
    refine List.forall_mem_cons.mpr ⟨List.mem_cons_self, fun task htask ↦ ?_⟩
    exact (hcomplete.asked task htask).imp fun _ _ ↦ List.mem_cons_of_mem _
  imported := by
    intro importer below target hentry himports hlimit
    exact List.mem_cons_of_mem _ (hcomplete.imported importer below target hentry himports hlimit)

theorem Run.calls_complete {seen : List Path} {agenda : List Task} {acts : List Act}
    (hrun : Run files options seen agenda acts) : CallsComplete files options agenda acts := by
  induction hrun with
  | done =>
    exact ⟨fun task htask ↦ absurd htask List.not_mem_nil,
      fun path depth target hentry ↦ absurd hentry List.not_mem_nil⟩
  | @again seen path depth rest acts _ _ ih => exact ih.call path depth
  | @beyond seen path depth rest acts _ _ _ ih => exact ih.call path depth
  | @first seen path depth rest acts _ _ _ ih =>
    obtain ⟨hscan, hrest⟩ := List.forall_mem_cons.mp ih.asked
    have hentered : CallsComplete files options rest (.enter path depth :: acts) := by
      refine ⟨hrest, ?_⟩
      intro importer below target hentry himports hlimit
      rcases List.mem_cons.mp hentry with heq | hlater
      · -- the scan of the file itself asks for everything that it imports
        cases heq
        obtain ⟨source, names, hevent, htarget⟩ := himports
        exact hscan _ hevent target _
          (visit_mem_onward.mpr ⟨source, names, rfl, htarget, hlimit, rfl⟩)
      · exact ih.imported importer below target hlater himports hlimit
    exact hentered.call path depth
  | @event seen path depth active event events rest acts _ ih =>
    obtain ⟨honward, hlater⟩ := List.forall_mem_append.mp ih.asked
    obtain ⟨hscan, hrest⟩ := List.forall_mem_cons.mp hlater
    constructor
    · rw [calls_append, calls_map_book, List.nil_append]
      refine List.forall_mem_cons.mpr ⟨List.forall_mem_cons.mpr ⟨?_, hscan⟩, hrest⟩
      intro target next hvisit
      exact honward _ hvisit
    · rw [calls_append, calls_map_book, List.nil_append, entries_append, entries_map_book,
        List.nil_append]
      exact ih.imported
  | closed _ ih =>
    refine ⟨List.forall_mem_cons.mpr ⟨?_, ih.asked⟩, ih.imported⟩
    exact fun event hevent ↦ absurd hevent List.not_mem_nil
  | remark _ ih => exact ⟨List.forall_mem_cons.mpr ⟨trivial, ih.asked⟩, ih.imported⟩

/-- A call is visited in the end, unless it was beyond the limit. -/
theorem Run.listed_of_call {seen : List Path} {agenda : List Task} {acts : List Act}
    (hrun : Run files options seen agenda acts) :
    ∀ call ∈ calls acts, isBeyond options call.1 call.2 = true ∨
      Ledger.listed (seen ++ entered acts) call.1 = true := by
  induction hrun with
  | done => exact fun call hcall ↦ absurd hcall List.not_mem_nil
  | again hseen _ ih =>
    refine List.forall_mem_cons.mpr ⟨Or.inr ?_, ih⟩
    rw [Ledger.listed_append, hseen, Bool.true_or]
  | beyond _ hbeyond _ ih => exact List.forall_mem_cons.mpr ⟨Or.inl hbeyond, ih⟩
  | @first seen path depth rest acts _ _ _ ih =>
    rw [List.append_assoc] at ih
    refine List.forall_mem_cons.mpr ⟨Or.inr (Ledger.listed_of_mem ?_), ih⟩
    exact List.mem_append_right seen List.mem_cons_self
  | event _ ih => simpa [entered] using ih
  | closed _ ih => exact ih
  | remark _ ih => exact ih

/-! ### Surveys -/

section Survey

variable {parse : Source.Parser} {tree : FileTree} {root : Path}

theorem isSource_of_imports {path target : Path} (himports : Imports files path target) :
    isSource files path = true := by
  obtain ⟨source, names, hevent, _⟩ := himports
  cases hexamined : examine files path with
  | source parsed => rw [isSource, hexamined]
  | passedOver | unreadable | oversized | unparsable => simp [eventsOf, hexamined] at hevent

theorem mem_entered_iff {acts : List Act} {path : Path} :
    path ∈ entered acts ↔ ∃ depth, (path, depth) ∈ entries acts := by
  simp [entered]

theorem mem_parsed_of_entry {path target : Path} {depth : Nat}
    (hentry : (path, depth) ∈ entries (surveyJournal parse tree options root))
    (himports : Imports (.ofTree parse tree) path target) :
    path ∈ (Survey.run parse tree options root {}).parsed := by
  rw [parsed_survey, List.mem_filter]
  exact ⟨mem_entered_iff.mpr ⟨depth, hentry⟩, isSource_of_imports himports⟩

theorem expects_surveyAgenda {property : Path → Nat → Prop}
    (hhanded : ∀ path ∈ handed tree options root, property path 0) :
    ∀ task ∈ surveyAgenda tree options root,
      Expects (.ofTree parse tree) options property task := by
  intro task htask
  rcases task_of_mem_surveyAgenda htask with ⟨path, hpath, rfl⟩ | ⟨path, message, rfl⟩
  · exact hhanded path hpath
  · trivial

/-- What holds of the files handed over at depth zero, and is handed on from a file that is entered
below the limit to what it imports, holds of every call of a survey. -/
theorem forall_calls_survey (property : Path → Nat → Prop)
    (hhanded : ∀ path ∈ handed tree options root, property path 0)
    (hhop : ∀ path depth target, (path, depth) ∈ entries (surveyJournal parse tree options root) →
      property path depth → Imports (.ofTree parse tree) path target →
        depth < options.importDepth → property target (depth + 1))
    {path : Path} {depth : Nat}
    (hcall : (path, depth) ∈ calls (surveyJournal parse tree options root)) : property path depth :=
  (run_surveyJournal parse tree options root).forall_calls (expects_surveyAgenda hhanded) hhop
    (path, depth) hcall

/-- A call that is made by the walk, at depth zero, or by an import of a file that was entered at
one less, below the limit. -/
def Origin (parse : Source.Parser) (tree : FileTree) (options : Options) (root path : Path)
    (depth : Nat) : Prop :=
  (path ∈ handed tree options root ∧ depth = 0) ∨
    ∃ importer below, (importer, below) ∈ entries (surveyJournal parse tree options root) ∧
      below < options.importDepth ∧ depth = below + 1 ∧ Imports (.ofTree parse tree) importer path

theorem origin_of_call {path : Path} {depth : Nat}
    (hcall : (path, depth) ∈ calls (surveyJournal parse tree options root)) :
    Origin parse tree options root path depth := by
  refine forall_calls_survey (Origin parse tree options root) (fun path hpath ↦ Or.inl ⟨hpath, rfl⟩)
    ?_ hcall
  intro importer below target hentry _ himports hlimit
  exact Or.inr ⟨importer, below, hentry, hlimit, rfl, himports⟩

theorem depth_le_of_call {path : Path} {depth : Nat}
    (hcall : (path, depth) ∈ calls (surveyJournal parse tree options root)) :
    depth ≤ options.importDepth := by
  rcases origin_of_call hcall with ⟨_, rfl⟩ | ⟨_, below, _, hlimit, rfl, _⟩
  · exact Nat.zero_le _
  · exact hlimit

/-- A local import of a file that a survey parsed. -/
def ParsedImport (parse : Source.Parser) (tree : FileTree) (options : Options)
    (root importer target : Path) : Prop :=
  importer ∈ (Survey.run parse tree options root {}).parsed ∧
    Imports (.ofTree parse tree) importer target

/-- A local import of a file that a survey entered, in whatever spelling, below the limit. -/
def Followed (parse : Source.Parser) (tree : FileTree) (options : Options)
    (root importer target : Path) : Prop :=
  ∃ first depth, first.key = importer.key ∧
    (first, depth) ∈ entries (surveyJournal parse tree options root) ∧
      depth < options.importDepth ∧ Imports (.ofTree parse tree) first target

/-- A path at the end of a chain of so many imports, each of a parsed file and each followed, from a
file that is handed over. -/
def Reached (parse : Source.Parser) (tree : FileTree) (options : Options) (root path : Path)
    (length : Nat) : Prop :=
  ∃ start ∈ handed tree options root,
    Chain (fun importer target ↦ ParsedImport parse tree options root importer target ∧
      Followed parse tree options root importer target) length start path

/-- The depth of a call is the length of a chain of imports that leads to it. -/
theorem reached_of_call {path : Path} {depth : Nat}
    (hcall : (path, depth) ∈ calls (surveyJournal parse tree options root)) :
    Reached parse tree options root path depth := by
  refine forall_calls_survey (Reached parse tree options root)
    (fun path hpath ↦ ⟨path, hpath, .here path⟩) ?_ hcall
  rintro importer below target hentry ⟨start, hstart, hchain⟩ himports hlimit
  refine ⟨start, hstart, .onward hchain ⟨⟨mem_parsed_of_entry hentry himports, himports⟩, ?_⟩⟩
  exact ⟨importer, below, rfl, hentry, hlimit, himports⟩

theorem reached_of_entered {path : Path}
    (hentered : path ∈ entered (surveyJournal parse tree options root)) :
    ∃ length ≤ options.importDepth, Reached parse tree options root path length := by
  obtain ⟨depth, hentry⟩ := mem_entered_iff.mp hentered
  have hcall := (run_surveyJournal parse tree options root).entries_subset_calls _ hentry
  exact ⟨depth, depth_le_of_call hcall, reached_of_call hcall⟩

/-- What holds of the files handed over, and is handed on from a file to what it imports, holds of
every file that a survey enters. -/
theorem forall_entered_survey (property : Path → Prop)
    (hhanded : ∀ path ∈ handed tree options root, property path)
    (hhop : ∀ path target, property path → Imports (.ofTree parse tree) path target →
      property target)
    {path : Path} (hentered : path ∈ entered (surveyJournal parse tree options root)) :
    property path := by
  obtain ⟨depth, hentry⟩ := mem_entered_iff.mp hentered
  have hcall := (run_surveyJournal parse tree options root).entries_subset_calls _ hentry
  exact forall_calls_survey (fun path _ ↦ property path) hhanded
    (fun path _ target _ hpath himports _ ↦ hhop path target hpath himports) hcall

theorem not_isBeyond_of_call {path : Path} {depth : Nat}
    (hcall : (path, depth) ∈ calls (surveyJournal parse tree options root)) :
    isBeyond options path depth = false := by
  simp [isBeyond, Nat.not_lt.mpr (depth_le_of_call hcall)]

/-- Every file that is called is visited in the end. -/
theorem isVisited_of_call {path : Path} {depth : Nat}
    (hcall : (path, depth) ∈ calls (surveyJournal parse tree options root)) :
    (Survey.run parse tree options root {}).isVisited path = true := by
  rw [isVisited_survey]
  rcases (run_surveyJournal parse tree options root).listed_of_call _ hcall with hbeyond | hlisted
  · exact absurd hbeyond (Bool.eq_false_iff.mp (not_isBeyond_of_call hcall))
  · exact hlisted

theorem call_of_handed (parse : Source.Parser) {path : Path}
    (hpath : path ∈ handed tree options root) :
    (path, 0) ∈ calls (surveyJournal parse tree options root) :=
  (run_surveyJournal parse tree options root).calls_complete.asked _ (visit_mem_surveyAgenda hpath)

theorem isVisited_of_followed {importer target : Path}
    (hfollowed : Followed parse tree options root importer target) :
    (Survey.run parse tree options root {}).isVisited target = true := by
  obtain ⟨first, depth, _, hentry, hlimit, himports⟩ := hfollowed
  have hcomplete := (run_surveyJournal parse tree options root).calls_complete
  exact isVisited_of_call (hcomplete.imported first depth target hentry himports hlimit)

/-- A project of one file, which imports two files from outside of it. The first of them imports the
second too, and the second a third one. -/
def detour : FileTree where
  root := .directory [
    ("app", .directory [("App.ts", .file (.text "import '../lib/First'; import '../lib/Second'"))]),
    ("lib", .directory [
      ("First.ts", .file (.text "import './Second'")),
      ("Second.ts", .file (.text "import './Third'")),
      ("Third.ts", .file (.text ""))])]
  workingDirectory := []

theorem surveyJournal_detour : surveyJournal Source.parse detour {} ⟨"/app"⟩ =
    [.call ⟨"/app/App.ts"⟩ 0, .enter ⟨"/app/App.ts"⟩ 0,
      .call ⟨"/lib/First.ts"⟩ 1, .enter ⟨"/lib/First.ts"⟩ 1,
      .call ⟨"/lib/Second.ts"⟩ 2, .enter ⟨"/lib/Second.ts"⟩ 2,
      .call ⟨"/lib/Second.ts"⟩ 1] := by
  decide +kernel

theorem survey_detour : Survey.run Source.parse detour {} ⟨"/app"⟩ {} =
    { parsed := [⟨"/app/App.ts"⟩, ⟨"/lib/First.ts"⟩, ⟨"/lib/Second.ts"⟩] } := by
  rw [survey_eq_replay, surveyJournal_detour]
  decide +kernel

theorem handed_detour : handed detour {} ⟨"/app"⟩ = [⟨"/app/App.ts"⟩] := by
  decide +kernel

/-- Following imports is sound. The survey is its journal replayed, and in it a visited file is the
end of a chain of local imports of parsed files that starts at a file handed over by the walk and is
no longer than the limit. Every call is made by the walk or by an import of a file that was entered
at one less. Its depth is within the limit, so the guard against calls beyond it never applies, and
it is a machine word if the limit is one. -/
theorem import_following_sound (parse : Source.Parser) (tree : FileTree) (options : Options)
    (root : Path) :
    Survey.run parse tree options root {} =
      replay (.ofTree parse tree) (surveyJournal parse tree options root) {} ∧
    (∀ path, path ∈ (Survey.run parse tree options root {}).parsed ∨
        path ∈ (Survey.run parse tree options root {}).skipped →
      ∃ start ∈ handed tree options root, ∃ length ≤ options.importDepth,
        Chain (ParsedImport parse tree options root) length start path) ∧
    ∀ path depth, (path, depth) ∈ calls (surveyJournal parse tree options root) →
      Origin parse tree options root path depth ∧ depth ≤ options.importDepth ∧
        isBeyond options path depth = false ∧
          (options.importDepth < UInt64.size → depth < UInt64.size) := by
  refine ⟨survey_eq_replay parse tree options root, ?_, ?_⟩
  · intro path hpath
    have hentered : path ∈ entered (surveyJournal parse tree options root) := by
      rw [parsed_survey, skipped_survey, List.mem_filter, List.mem_filter] at hpath
      rcases hpath with ⟨hentered, _⟩ | ⟨hentered, _⟩ <;> exact hentered
    obtain ⟨length, hlength, start, hstart, hchain⟩ := reached_of_entered hentered
    exact ⟨start, hstart, length, hlength, hchain.imp fun _ _ hhop ↦ hhop.1⟩
  · intro path depth hcall
    have hlimit := depth_le_of_call hcall
    exact ⟨origin_of_call hcall, hlimit, not_isBeyond_of_call hcall,
      fun hword ↦ Nat.lt_of_le_of_lt hlimit hword⟩

theorem import_following_sound_detour :
    (∃ start ∈ handed detour {} ⟨"/app"⟩, ∃ length ≤ 2,
      Chain (ParsedImport Source.parse detour {} ⟨"/app"⟩) length start ⟨"/lib/Second.ts"⟩) ∧
    Origin Source.parse detour {} ⟨"/app"⟩ ⟨"/lib/Second.ts"⟩ 1 := by
  obtain ⟨_, hvisited, hcalls⟩ := import_following_sound Source.parse detour {} ⟨"/app"⟩
  exact ⟨hvisited ⟨"/lib/Second.ts"⟩ (Or.inl (by simp [survey_detour])),
    (hcalls ⟨"/lib/Second.ts"⟩ 1 (by simp [surveyJournal_detour, calls])).1⟩

/-- Following imports is complete below the limit. A chain of local imports from a file handed over
leads to visited files only, however long, if every file on the way was entered below the limit. The
imports of a parsed file are followed unless it was entered at exactly the limit. Nothing else is
visited. -/
theorem import_following_complete_below_limit (parse : Source.Parser) (tree : FileTree)
    (options : Options) (root : Path) :
    (∀ start ∈ handed tree options root, ∀ length last,
      Chain (Followed parse tree options root) length start last →
        (Survey.run parse tree options root {}).isVisited last = true) ∧
    (∀ importer target, ParsedImport parse tree options root importer target →
      Followed parse tree options root importer target ∨
        (importer, options.importDepth) ∈ entries (surveyJournal parse tree options root)) ∧
    ∀ path, (Survey.run parse tree options root {}).isVisited path = true →
      ∃ start ∈ handed tree options root, ∃ length ≤ options.importDepth, ∃ last,
        Chain (Followed parse tree options root) length start last ∧ last.key = path.key := by
  refine ⟨?_, ?_, ?_⟩
  · intro start hstart length last hchain
    cases hchain with
    | here => exact isVisited_of_call (call_of_handed parse hstart)
    | onward _ hhop => exact isVisited_of_followed hhop
  · rintro importer target ⟨hparsed, himports⟩
    rw [parsed_survey, List.mem_filter] at hparsed
    obtain ⟨depth, hentry⟩ := mem_entered_iff.mp hparsed.1
    have hwithin : depth ≤ options.importDepth :=
      depth_le_of_call ((run_surveyJournal parse tree options root).entries_subset_calls _ hentry)
    rcases Nat.lt_or_eq_of_le hwithin with hlimit | rfl
    · exact Or.inl ⟨importer, depth, rfl, hentry, hlimit, himports⟩
    · exact Or.inr hentry
  · intro path hvisited
    rw [isVisited_survey, Ledger.listed_iff] at hvisited
    obtain ⟨last, hentered, hkey⟩ := hvisited
    obtain ⟨length, hlength, start, hstart, hchain⟩ := reached_of_entered hentered
    exact ⟨start, hstart, length, hlength, last, hchain.imp fun _ _ hhop ↦ hhop.2, hkey⟩

theorem import_following_complete_below_limit_detour :
    Chain (Followed Source.parse detour {} ⟨"/app"⟩) 2 ⟨"/app/App.ts"⟩ ⟨"/lib/Second.ts"⟩ ∧
      (Survey.run Source.parse detour {} ⟨"/app"⟩ {}).isVisited ⟨"/lib/Second.ts"⟩ = true := by
  have hfirst : Followed Source.parse detour {} ⟨"/app"⟩ ⟨"/app/App.ts"⟩ ⟨"/lib/First.ts"⟩ :=
    ⟨⟨"/app/App.ts"⟩, 0, rfl, by simp [surveyJournal_detour], by decide, "../lib/First", [],
      by decide +kernel, by decide +kernel⟩
  have hsecond : Followed Source.parse detour {} ⟨"/app"⟩ ⟨"/lib/First.ts"⟩ ⟨"/lib/Second.ts"⟩ :=
    ⟨⟨"/lib/First.ts"⟩, 1, rfl, by simp [surveyJournal_detour], by decide, "./Second", [],
      by decide +kernel, by decide +kernel⟩
  have hchain := Chain.onward (.onward (.here _) hfirst) hsecond
  exact ⟨hchain, (import_following_complete_below_limit Source.parse detour {} ⟨"/app"⟩).1
    ⟨"/app/App.ts"⟩ (by simp [handed_detour]) 2 ⟨"/lib/Second.ts"⟩ hchain⟩

/-- Following imports is not complete up to the limit. In the project of the detour the third file
is two imports away from the only file that is handed over, and the limit is two. But the second
file is first reached by way of the first one, at the limit, and is not entered again when the
project imports it itself. -/
theorem import_following_not_complete :
    ¬ ∀ (tree : FileTree) (options : Options) (root : Path),
      ∀ start ∈ handed tree options root, ∀ length ≤ options.importDepth, ∀ last,
        Chain (ParsedImport Source.parse tree options root) length start last →
          (Survey.run Source.parse tree options root {}).isVisited last = true := by
  intro hcomplete
  have hsecond : ParsedImport Source.parse detour {} ⟨"/app"⟩ ⟨"/app/App.ts"⟩ ⟨"/lib/Second.ts"⟩ :=
    ⟨by simp [survey_detour], "../lib/Second", [], by decide +kernel, by decide +kernel⟩
  have hthird : ParsedImport Source.parse detour {} ⟨"/app"⟩ ⟨"/lib/Second.ts"⟩ ⟨"/lib/Third.ts"⟩ :=
    ⟨by simp [survey_detour], "./Third", [], by decide +kernel, by decide +kernel⟩
  have hvisited := hcomplete detour {} ⟨"/app"⟩ ⟨"/app/App.ts"⟩ (by simp [handed_detour]) 2
    (by decide)
    ⟨"/lib/Third.ts"⟩ (.onward (.onward (.here _) hsecond) hthird)
  have hmissed :
      (Survey.run Source.parse detour {} ⟨"/app"⟩ {}).isVisited ⟨"/lib/Third.ts"⟩ = false := by
    rw [survey_detour]
    decide +kernel
  exact Bool.false_ne_true (hmissed.symm.trans hvisited)

end Survey

end ComponentGraph.Journal
