import ComponentGraph.Proofs.Parallel
import ComponentGraph.Proofs.Reach
import ComponentGraph.Proofs.Resolution
import Mathlib.Data.List.Nodup

/-!
When imports stay among the files that a survey walks through, it does not matter how many of them
are followed. A greater depth only means that some files are entered early, by way of an import, and
are left alone when the walk comes to them.

Every survey of such a project enters exactly the files that are handed over (`mem_entered_handed`),
in an order that depends on the depth. What a file contributes does not depend on it, so two ledgers
agree in everything that can be read off the parsed files one by one (`AgreeUpToOrder`). They may
differ in the order of names and dependencies, and in which of several files is the source of a
name.

Paths are compared by their keys, but a diagnostic shows the path as it was spelled. A file that is
entered by way of an import is spelled as the import leads to it, which is the spelling of the walk
(`SpelledAlike`) if the root is absolute and clean. From a root such as `/.` the two spellings
differ, and the depth shows in the diagnostics (`import_depth_matters_shortcut`).
-/

set_option autoImplicit false
set_option relaxedAutoImplicit false

namespace ComponentGraph.Journal

open Analysis

/-! ### What does not depend on the order of visits -/

/-- Two ledgers that agree in everything that does not depend on the order of visits. -/
structure AgreeUpToOrder (first second : Ledger) : Prop where
  parsed : first.parsed.Perm second.parsed
  skipped : first.skipped.Perm second.skipped
  diagnostics : first.diagnostics.Perm second.diagnostics
  known : ∀ name, (first.record? name).isSome = (second.record? name).isSome
  kind : ∀ name, (first.recordOf name).kind = (second.recordOf name).kind
  uses : ∀ name, (first.recordOf name).uses = (second.recordOf name).uses
  dependencies : ∀ owner name, name ∈ (first.recordOf owner).dependencies ↔
    name ∈ (second.recordOf owner).dependencies
  declared : ∀ name,
    (first.recordOf name).source.isSome = (second.recordOf name).source.isSome

section Records

variable {files : Files} {options options' : Options} {first second : Ledger}

/-- Balanced ledgers with the same parsed files count the same uses. Assumes: the files contribute
the same. -/
theorem Balanced.uses_eq (hfirst : Balanced files options first)
    (hsecond : Balanced files options' second)
    (hcontribution : ∀ path, contribution files options path = contribution files options' path)
    (hparsed : first.parsed.Perm second.parsed) (name : String) :
    (first.recordOf name).uses = (second.recordOf name).uses := by
  have huses (path : Path) : usesIn files options path name = usesIn files options' path name := by
    rw [usesIn, hcontribution, usesIn]
  rw [hfirst.uses, hsecond.uses]
  simp only [huses]
  exact (hparsed.map _).sum_eq

theorem Balanced.dependencies_iff (hfirst : Balanced files options first)
    (hsecond : Balanced files options' second)
    (hcontribution : ∀ path, contribution files options path = contribution files options' path)
    (hparsed : first.parsed.Perm second.parsed) (owner name : String) :
    name ∈ (first.recordOf owner).dependencies ↔ name ∈ (second.recordOf owner).dependencies := by
  rw [hfirst.dependencies, hsecond.dependencies]
  simp only [hcontribution, hparsed.mem_iff]

theorem Balanced.known_eq (hfirst : Balanced files options first)
    (hsecond : Balanced files options' second)
    (hcontribution : ∀ path, contribution files options path = contribution files options' path)
    (hparsed : first.parsed.Perm second.parsed) (name : String) :
    (first.record? name).isSome = (second.record? name).isSome := by
  rw [Bool.eq_iff_iff, hfirst.known, hsecond.known]
  simp only [usesIn, hcontribution, hparsed.mem_iff]

theorem Balanced.declared_eq (hfirst : Balanced files options first)
    (hsecond : Balanced files options' second) (hparsed : first.parsed.Perm second.parsed)
    (name : String) :
    (first.recordOf name).source.isSome = (second.recordOf name).source.isSome := by
  rw [Bool.eq_iff_iff, hfirst.declared, hsecond.declared]
  simp only [hparsed.mem_iff]

end Records

/-! ### Diagnostics -/

/-- The diagnostics that a task leaves without opening a file. -/
def taskDiagnostics : Task → List Ledger.Diagnostic
  | .remark path message => [⟨path.text, .walk, message⟩]
  | _ => []

theorem flatMap_taskDiagnostics_onward {files : Files} {options : Options} (path : Path)
    (depth : Nat) (event : Source.Event) :
    (onward files options path depth event).flatMap taskDiagnostics = [] := by
  refine List.flatMap_eq_nil_iff.mpr fun task htask ↦ ?_
  obtain ⟨target, rfl⟩ := exists_visit_of_mem_onward htask
  rfl

/-- The diagnostics of a journal are, up to order, the remarks on the agenda and what the files that
are entered leave. -/
theorem Run.diagnostics_perm {files : Files} {options : Options} {seen : List Path}
    {agenda : List Task} {acts : List Act} (hrun : Run files options seen agenda acts) :
    (acts.flatMap (actDiagnostics files)).Perm
      (agenda.flatMap taskDiagnostics ++ (entered acts).flatMap (findings files)) := by
  induction hrun with
  | done => exact .nil
  | again _ _ ih => exact ih
  | beyond _ _ _ ih => exact ih
  | @first seen path depth rest acts _ _ _ ih =>
    exact (ih.append_left (findings files path)).trans (List.perm_append_comm_assoc _ _ _)
  | @event seen path depth active event events rest acts _ ih =>
    have hbooked : ((eventBookings options path active event).map Act.book).flatMap
        (actDiagnostics files) = [] := by
      simp [List.flatMap_map, actDiagnostics]
    have hentered : entered ((eventBookings options path active event).map .book ++ acts) =
        entered acts := by simp [entered]
    rw [List.flatMap_append, flatMap_taskDiagnostics_onward, List.nil_append] at ih
    rw [List.flatMap_append, hbooked, List.nil_append, hentered]
    exact ih
  | closed _ ih => exact ih
  | remark _ ih => exact ih.cons _

/-! ### Surveys of a closed project -/

/-- Every local import of a file that is handed over leads to a file that is handed over, in some
spelling of its path. -/
def ImportsStay (parse : Source.Parser) (tree : FileTree) (options : Options) (root : Path) :
    Prop :=
  ∀ importer ∈ handed tree options root, ∀ target, Imports (.ofTree parse tree) importer target →
    Ledger.listed (handed tree options root) target = true

/-- A local import of a file that is handed over spells the path of a file that is handed over in
the same way. -/
def SpelledAlike (parse : Source.Parser) (tree : FileTree) (options : Options) (root : Path) :
    Prop :=
  ∀ importer ∈ handed tree options root, ∀ target, Imports (.ofTree parse tree) importer target →
    ∀ walked ∈ handed tree options root, walked.key = target.key → walked = target

section Survey

variable {parse : Source.Parser} {tree : FileTree} {options : Options} {root : Path}

theorem eq_of_key_of_handed (hnames : tree.isWellNamed = true) {first second : Path}
    (hfirst : first ∈ handed tree options root) (hsecond : second ∈ handed tree options root)
    (hkey : first.key = second.key) : first = second :=
  FileTree.eq_of_key_of_walk hnames ((mem_handed tree options root first).mp hfirst).1
    ((mem_handed tree options root second).mp hsecond).1 hkey

/-- Below an absolute and clean root all paths are clean, and so is what an import leads to. -/
theorem spelledAlike_of_clean (hnames : tree.isWellNamed = true)
    (habsolute : root.isAbsolute = true) (hclean : root.clean = root) :
    SpelledAlike parse tree options root := by
  rintro importer _ target ⟨source, _, _, hleads⟩ walked hwalked hkey
  have htarget : target.clean = target := by
    rw [importTarget?] at hleads
    split at hleads
    · obtain ⟨directory, _, hresolve⟩ := Option.bind_eq_some_iff.mp hleads
      exact (Specifier.clean_of_resolve hresolve).1
    · cases hleads
  have hwalkedClean : walked.clean = walked := by
    have hanchor : root.key.anchor = .root := beq_iff_eq.mp habsolute
    have hplace := hclean.symm.trans (Path.clean_eq_pathOf hanchor)
    have hproper : ∀ name ∈ Path.cleanNames .root root.key.names, Path.isProperName name = true :=
      Path.isProperName_of_mem_cleanNames fun _ ↦ Path.mem_names_key
    obtain ⟨names, hjoined, rfl⟩ :=
      FileTree.file_mem_walk hnames ((mem_handed tree options root walked).mp hwalked).1
    rw [hplace, Path.joined_pathOf hproper hjoined,
      Path.clean_pathOf (List.forall_mem_append.mpr ⟨hproper, hjoined⟩)]
  -- cleaning looks at nothing but the key
  calc
    walked = walked.clean := hwalkedClean.symm
    _ = target.clean := by rw [Path.clean, hkey, Path.clean]
    _ = target := htarget

theorem mem_handed_of_imports (hstay : ImportsStay parse tree options root)
    (hspelled : SpelledAlike parse tree options root) {importer target : Path}
    (himporter : importer ∈ handed tree options root)
    (himports : Imports (.ofTree parse tree) importer target) :
    target ∈ handed tree options root := by
  have hlisted := hstay importer himporter target himports
  obtain ⟨walked, hwalked, hkey⟩ := (Ledger.listed_iff _ _).mp hlisted
  rwa [← hspelled importer himporter target himports walked hwalked hkey]

/-- A survey enters exactly the files that are handed over, if imports stay among them. -/
theorem mem_entered_handed (options : Options) (hnames : tree.isWellNamed = true)
    (hstay : ImportsStay parse tree options root) (hspelled : SpelledAlike parse tree options root)
    (path : Path) :
    path ∈ entered (surveyJournal parse tree options root) ↔ path ∈ handed tree options root := by
  have hsubset (other : Path) (hentered : other ∈ entered (surveyJournal parse tree options root)) :
      other ∈ handed tree options root := by
    obtain ⟨depth, hentry⟩ := mem_entered_iff.mp hentered
    have hcall := (run_surveyJournal parse tree options root).entries_subset_calls _ hentry
    exact forall_calls_survey (fun called _ ↦ called ∈ handed tree options root)
      (fun _ hhanded ↦ hhanded)
      (fun _ _ _ _ himporter himports _ ↦ mem_handed_of_imports hstay hspelled himporter himports)
      hcall
  constructor
  · exact hsubset path
  · intro hpath
    have hvisited := isVisited_of_call (call_of_handed parse hpath)
    rw [isVisited_survey, Ledger.listed_iff] at hvisited
    obtain ⟨other, hother, hkey⟩ := hvisited
    rwa [← eq_of_key_of_handed hnames (hsubset other hother) hpath hkey]

theorem scanBookings_importDepth (depth : Nat) (path : Path) (active : Option Active)
    (events : List Source.Event) :
    scanBookings { options with importDepth := depth } path active events =
      scanBookings options path active events := by
  induction events generalizing active with
  | nil => rfl
  | cons event events ih =>
    have hhere : eventBookings { options with importDepth := depth } path active event =
        eventBookings options path active event := by
      cases event <;> rfl
    have hactive : activeAfter { options with importDepth := depth } active event =
        activeAfter options active event := by
      cases event <;> rfl
    rw [scanBookings, scanBookings, hhere, hactive, ih]

theorem contribution_importDepth (files : Files) (depth : Nat) (path : Path) :
    contribution files { options with importDepth := depth } path =
      contribution files options path :=
  scanBookings_importDepth depth path none (eventsOf files path)

theorem agreeUpToOrder_survey (hnames : tree.isWellNamed = true)
    (hstay : ImportsStay parse tree options root) (hspelled : SpelledAlike parse tree options root)
    (depth depth' : Nat) :
    AgreeUpToOrder (Survey.run parse tree { options with importDepth := depth } root {})
      (Survey.run parse tree { options with importDepth := depth' } root {}) := by
  have hrun (limit : Nat) := run_surveyJournal parse tree { options with importDepth := limit } root
  have hmembers (limit : Nat) (path : Path) :
      path ∈ entered (surveyJournal parse tree { options with importDepth := limit } root) ↔
        path ∈ handed tree options root :=
    mem_entered_handed { options with importDepth := limit } hnames hstay hspelled path
  have hnodup (limit : Nat) :
      (entered (surveyJournal parse tree { options with importDepth := limit } root)).Nodup :=
    List.Nodup.of_map Path.key ((hrun limit).nodup_keys .nil)
  have hentered := (List.perm_ext_iff_of_nodup (hnodup depth) (hnodup depth')).mpr fun path ↦
    (hmembers depth path).trans (hmembers depth' path).symm
  have hbalanced (limit : Nat) : Balanced (.ofTree parse tree) { options with importDepth := limit }
      (Survey.run parse tree { options with importDepth := limit } root {}) := by
    rw [survey_run_eq]
    exact balanced_of_initial (initial_surveyAgenda tree { options with importDepth := limit } root)
  have hcontribution (path : Path) :
      contribution (.ofTree parse tree) { options with importDepth := depth } path =
        contribution (.ofTree parse tree) { options with importDepth := depth' } path :=
    (contribution_importDepth _ depth path).trans (contribution_importDepth _ depth' path).symm
  have hparsed : (Survey.run parse tree { options with importDepth := depth } root {}).parsed.Perm
      (Survey.run parse tree { options with importDepth := depth' } root {}).parsed := by
    rw [parsed_survey, parsed_survey]
    exact hentered.filter _
  exact
    { parsed := hparsed
      skipped := by
        rw [skipped_survey, skipped_survey]
        exact hentered.filter _
      diagnostics := by
        rw [survey_eq_replay, survey_eq_replay, diagnostics_replay, diagnostics_replay]
        refine (hrun depth).diagnostics_perm.trans (.trans ?_ (hrun depth').diagnostics_perm.symm)
        exact (hentered.flatMap_right _).append_left _
      known := (hbalanced depth).known_eq (hbalanced depth') hcontribution hparsed
      kind := fun name ↦ by
        rw [survey_run_eq, survey_run_eq, kind_runAgenda, kind_runAgenda]
      uses := (hbalanced depth).uses_eq (hbalanced depth') hcontribution hparsed
      dependencies := (hbalanced depth).dependencies_iff (hbalanced depth') hcontribution hparsed
      declared := (hbalanced depth).declared_eq (hbalanced depth') hparsed }

end Survey

/-- The depth of a survey does not matter if imports stay among the files that it walks through and
are spelled like them, which they are from every absolute and clean root. Assumes: the names in the
tree are names that entries can have, as they are on every disk. -/
theorem import_depth_irrelevant (parse : Source.Parser) (tree : FileTree) (options : Options)
    (root : Path) (hnames : tree.isWellNamed = true) (hstay : ImportsStay parse tree options root) :
    (root.isAbsolute = true → root.clean = root → SpelledAlike parse tree options root) ∧
      (SpelledAlike parse tree options root → ∀ depth depth',
        AgreeUpToOrder (Survey.run parse tree { options with importDepth := depth } root {})
          (Survey.run parse tree { options with importDepth := depth' } root {})) :=
  ⟨spelledAlike_of_clean hnames, agreeUpToOrder_survey hnames hstay⟩

/-- Three files, of which the first imports the third. The other two cannot be parsed. -/
def shortcut : FileTree where
  root := .directory [
    ("A.ts", .file (.text "import './C'")),
    ("B.ts", .file (.text "(")),
    ("C.ts", .file (.text "("))]
  workingDirectory := []

/-- Two spellings of the directory that these files are in. -/
def spellings : List Path := [⟨"/"⟩, ⟨"/."⟩]

theorem sortedNames_shortcut :
    FileTree.sortedNames shortcut.root [] = ["A.ts", "B.ts", "C.ts"] :=
  List.mergeSort_of_pairwise (by decide +kernel)

theorem sightings_shortcut (depth : Nat) : ∀ root ∈ spellings,
    Survey.sightings shortcut { importDepth := depth } root =
      [.directory root, .file (root.join "A.ts"), .file (root.join "B.ts"),
        .file (root.join "C.ts")] := by
  have hlocate : ∀ root ∈ spellings, shortcut.locate root = .ok [] := by decide +kernel
  have hlimit : shortcut.depthLimit = 3 + 1 := rfl
  obtain ⟨entries, hentries⟩ : ∃ entries, shortcut.root.find? [] = some (.directory entries) :=
    ⟨_, rfl⟩
  intro root hroot
  -- the walk does not look at the depth
  change Survey.sightings shortcut {} root = _
  -- sorting does not reduce in the kernel, so it is rewritten before the walk is evaluated
  simp only [Survey.sightings, FileTree.walk, hlocate root hroot, hentries, hlimit,
    FileTree.walkBelow, sortedNames_shortcut]
  revert root
  decide +kernel

theorem handed_shortcut : ∀ root ∈ spellings,
    handed shortcut {} root = [root.join "A.ts", root.join "B.ts", root.join "C.ts"] := by
  intro root hroot
  rw [handed, sightings_shortcut _ root hroot]
  revert root
  decide +kernel

/-- The only import in these files is that of the third by the first. -/
theorem imports_shortcut {root importer target : Path} (hroot : root ∈ spellings)
    (himporter : importer ∈ handed shortcut {} root)
    (himports : Imports (.ofTree Source.parse shortcut) importer target) : target = ⟨"/C.ts"⟩ := by
  have hevents : ∀ root ∈ spellings,
      ([root.join "A.ts", root.join "B.ts", root.join "C.ts"].map
        (eventsOf (.ofTree Source.parse shortcut))) = [[.imported "./C" []], [], []] := by
    decide +kernel
  have htarget : ∀ root ∈ spellings,
      importTarget? (.ofTree Source.parse shortcut) (root.join "A.ts") "./C" = some ⟨"/C.ts"⟩ := by
    decide +kernel
  have hevents := hevents root hroot
  simp only [List.map_cons, List.map_nil, List.cons.injEq, and_true] at hevents
  obtain ⟨hfirst, hsecond, hthird⟩ := hevents
  obtain ⟨source, names, hevent, hleads⟩ := himports
  rw [handed_shortcut root hroot] at himporter
  simp only [List.mem_cons, List.not_mem_nil, or_false] at himporter
  rcases himporter with rfl | rfl | rfl
  · rw [hfirst, List.mem_singleton] at hevent
    cases hevent
    rw [htarget root hroot] at hleads
    exact (Option.some.inj hleads).symm
  · rw [hsecond] at hevent
    cases hevent
  · rw [hthird] at hevent
    cases hevent

theorem importsStay_shortcut : ∀ root ∈ spellings, ImportsStay Source.parse shortcut {} root := by
  intro root hroot importer himporter target himports
  rw [imports_shortcut hroot himporter himports, handed_shortcut root hroot]
  clear himporter
  revert root
  decide +kernel

theorem run_shortcut : ∀ root ∈ spellings,
    (Survey.run Source.parse shortcut { importDepth := 0 } root {}).diagnostics.map
        Ledger.Diagnostic.file = [(root.join "B.ts").text, (root.join "C.ts").text] ∧
      (Survey.run Source.parse shortcut { importDepth := 1 } root {}).diagnostics.map
        Ledger.Diagnostic.file = ["/C.ts", (root.join "B.ts").text] := by
  intro root hroot
  rw [Survey.run, sightings_shortcut 0 root hroot, Survey.run, sightings_shortcut 1 root hroot]
  revert root
  decide +kernel

/-- With imports followed, the third file comes before the second. -/
theorem import_depth_irrelevant_shortcut :
    shortcut.isWellNamed = true ∧ ImportsStay Source.parse shortcut {} ⟨"/"⟩ ∧
      SpelledAlike Source.parse shortcut {} ⟨"/"⟩ ∧
      AgreeUpToOrder (Survey.run Source.parse shortcut { importDepth := 0 } ⟨"/"⟩ {})
        (Survey.run Source.parse shortcut { importDepth := 1 } ⟨"/"⟩ {}) ∧
      (Survey.run Source.parse shortcut { importDepth := 0 } ⟨"/"⟩ {}).diagnostics.map
        Ledger.Diagnostic.file = ["/B.ts", "/C.ts"] ∧
      (Survey.run Source.parse shortcut { importDepth := 1 } ⟨"/"⟩ {}).diagnostics.map
        Ledger.Diagnostic.file = ["/C.ts", "/B.ts"] := by
  have hnames : shortcut.isWellNamed = true := by decide +kernel
  have hstay := importsStay_shortcut ⟨"/"⟩ List.mem_cons_self
  obtain ⟨hclean, hagree⟩ := import_depth_irrelevant Source.parse shortcut {} ⟨"/"⟩ hnames hstay
  have hspelled := hclean (by decide) (by decide)
  exact ⟨hnames, hstay, hspelled, hagree hspelled 0 1, run_shortcut _ List.mem_cons_self⟩

/-- From a root that is not clean, the third file is shown in another spelling once the first file
is asked for it. -/
theorem import_depth_matters_shortcut :
    shortcut.isWellNamed = true ∧ ImportsStay Source.parse shortcut {} ⟨"/."⟩ ∧
      (Survey.run Source.parse shortcut { importDepth := 0 } ⟨"/."⟩ {}).diagnostics.map
        Ledger.Diagnostic.file = ["/./B.ts", "/./C.ts"] ∧
      (Survey.run Source.parse shortcut { importDepth := 1 } ⟨"/."⟩ {}).diagnostics.map
        Ledger.Diagnostic.file = ["/C.ts", "/./B.ts"] ∧
      ¬ AgreeUpToOrder (Survey.run Source.parse shortcut { importDepth := 0 } ⟨"/."⟩ {})
        (Survey.run Source.parse shortcut { importDepth := 1 } ⟨"/."⟩ {}) := by
  have hroot : ⟨"/."⟩ ∈ spellings := by decide
  obtain ⟨hnear, hfar⟩ := run_shortcut ⟨"/."⟩ hroot
  refine ⟨by decide +kernel, importsStay_shortcut _ hroot, hnear, hfar, fun hagree ↦ ?_⟩
  have hfiles := hagree.diagnostics.map Ledger.Diagnostic.file
  rw [hnear, hfar] at hfiles
  exact absurd hfiles (by decide)

end ComponentGraph.Journal
