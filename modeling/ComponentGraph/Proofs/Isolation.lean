import ComponentGraph.Project
import ComponentGraph.Proofs.Contents
import ComponentGraph.Proofs.Parallel
import ComponentGraph.Proofs.Place

/-!
A broken file does no harm beyond itself.

A source file is broken if it is no text, has too many characters or cannot be parsed. The mended
tree has an empty file in the place of every broken one, and is the same otherwise. A broken file is
skipped and an empty one is parsed, but neither writes anything or leads anywhere, so both trees
leave the same journal (`surveyJournal_mend`). What differs is the judgement of the broken files:
they are on the other side of the count, and their diagnostics are gone (`findings_mend`).

The parser has to take an empty text for an empty module. It may look at the name of a file, but at
nothing above it. A link could give the file a second name, under which it might be whole, so there
must be no links in the tree.
-/

set_option autoImplicit false
set_option relaxedAutoImplicit false

namespace ComponentGraph

open Analysis

/-! ### Broken files -/

namespace FileTree

/-- Whether a file of this name is a source file that cannot be analysed. -/
def isBroken (parse : Source.Parser) (name : String) (content : Content) : Bool :=
  Specifier.hasSourceExtension name &&
    match content with
    | .bytes _ => true
    | .text text => decide (characterLimit < text.length) || (parse name text).isNone

/-- What is put in the place of a content: nothing for a broken file. -/
def mended (parse : Source.Parser) (name : String) (content : Content) : Content :=
  if isBroken parse name content then .text "" else content

/-- The tree with every broken file emptied. -/
def mend (parse : Source.Parser) (tree : FileTree) : FileTree :=
  tree.revise (mended parse)

/-- Whether a path leads to a broken file. -/
def isBrokenAt (parse : Source.Parser) (tree : FileTree) (path : Path) : Bool :=
  match tree.entry path with
  | .ok (.file content) => isBroken parse (tree.nameAt path) content
  | _ => false

theorem isBrokenAt_iff {parse : Source.Parser} {tree : FileTree} {path : Path} :
    tree.isBrokenAt parse path = true ↔
      ∃ content, tree.entry path = .ok (.file content) ∧
        isBroken parse (tree.nameAt path) content = true := by
  rw [isBrokenAt]
  split
  · rename_i content hentry
    simp [hentry]
  · rename_i hother
    simp only [Bool.false_eq_true, false_iff, not_exists, not_and]
    exact fun content hentry ↦ absurd hentry (hother content)

theorem isBrokenAt_eq_false_of_hasFile (parse : Source.Parser) {tree : FileTree} {path : Path}
    (hfile : tree.hasFile path = false) : tree.isBrokenAt parse path = false := by
  refine Bool.eq_false_iff.mpr fun hbroken ↦ ?_
  obtain ⟨content, hentry, _⟩ := isBrokenAt_iff.mp hbroken
  rw [hasFile, hentry] at hfile
  cases hfile

/-- In the mended tree broken files are empty and all others hold what they held. -/
theorem readText_mend (parse : Source.Parser) (tree : FileTree) (path : Path) :
    (tree.mend parse).readText path =
      if tree.isBrokenAt parse path then .ok "" else tree.readText path := by
  rw [readText, readText, mend, entry_revise, isBrokenAt]
  cases tree.entry path with
  | error fault => rfl
  | ok found =>
    cases found with
    | directory entries => rfl
    | link target => rfl
    | file content =>
      simp only [Except.map, Entry.revise, mended]
      by_cases hbroken : isBroken parse (tree.nameAt path) content = true
      · rw [if_pos hbroken, if_pos hbroken]
        rfl
      · rw [if_neg hbroken, if_neg hbroken]

/-- A path that leads to a file ends like the name of the file. Assumes: there are no links, and no
slash is asked for. -/
theorem endsWith_nameAt {tree : FileTree} (hfree : tree.isLinkFree = true) {path : Path}
    {content : Content} (hfile : tree.entry path = .ok (.file content)) (pattern : String)
    (hpattern : '/' ∉ pattern.toList) :
    Text.Search.endsWith path.text pattern =
      Text.Search.endsWith (tree.nameAt path) pattern := by
  obtain ⟨location, hlocate, hfind⟩ := entry_eq_ok_iff.mp hfile
  obtain ⟨before, name, hsegments, hlast⟩ := name_of_file hfree hlocate hfind
  have hname : tree.nameAt path = name := by
    simp [nameAt, hlocate, List.getLastD_eq_getLast?, hlast]
  rw [hname]
  exact Path.endsWith_eq_of_segments hsegments hpattern

/-! ### Faults of a walk -/

theorem hasFile_eq_false_of_fault {tree : FileTree} {path : Path} {fault : Fault}
    (hlocate : tree.locate path = .error fault) : tree.hasFile path = false := by
  rw [hasFile, entry, hlocate]
  rfl

theorem hasFile_eq_false_of_hasDirectory {tree : FileTree} {path : Path}
    (hdirectory : tree.hasDirectory path = true) : tree.hasFile path = false := by
  rw [hasDirectory] at hdirectory
  rw [hasFile]
  split at hdirectory
  · rename_i found _
    cases found with
    | directory entries => rfl
    | file content => cases hdirectory
    | link target => cases hdirectory
  · cases hdirectory

/-- Whether a sighting, if it is a fault, is at something else than a file. -/
def Sighting.FaultAtNoFile (tree : FileTree) : Sighting → Prop
  | .inaccessible path _ => tree.hasFile path = false
  | .loop path _ => tree.hasFile path = false
  | _ => True

theorem faultAtNoFile_walkBelow {tree : FileTree} {excluded : Exclusion} {depth : Nat}
    {opened : List OpenDirectory} {path : Path} {location : Location} {sighting : Sighting}
    (hsighting : sighting ∈ walkBelow tree excluded depth opened path location) :
    sighting.FaultAtNoFile tree := by
  induction depth generalizing opened path location with
  | zero => cases hsighting
  | succ depth ih =>
    rcases mem_walkBelow hsighting with ⟨hlong, rfl⟩ | ⟨name, _, hsighted⟩
    · obtain ⟨fault, hlocate⟩ := locate_of_long hlong
      exact hasFile_eq_false_of_fault (hlocate tree)
    rcases mem_sightName hsighted with rfl | rfl | ⟨place, hbelow⟩ | ⟨fault, hlocate, rfl⟩ |
      ⟨target, entries, ancestor, hlocate, hdirectory, rfl⟩
    · trivial
    · trivial
    · exact ih hbelow
    · exact hasFile_eq_false_of_fault hlocate
    · refine hasFile_eq_false_of_hasDirectory ?_
      rw [hasDirectory, entry_eq_ok_iff.mpr ⟨target, hlocate, hdirectory⟩]
      rfl

/-- A walk reports no fault at a file. -/
theorem faultAtNoFile_walk {tree : FileTree} {excluded : Exclusion} {start : Path}
    {sighting : Sighting} (hsighting : sighting ∈ tree.walk excluded start) :
    sighting.FaultAtNoFile tree := by
  rw [walk] at hsighting
  split at hsighting
  · rename_i fault hlocate
    rw [List.mem_singleton.mp hsighting]
    exact hasFile_eq_false_of_fault hlocate
  · split at hsighting
    · rcases List.mem_cons.mp hsighting with rfl | hbelow
      · trivial
      · exact faultAtNoFile_walkBelow hbelow
    · rw [List.mem_singleton.mp hsighting]
      trivial

end FileTree

namespace Journal

/-! ### The judgement of one file -/

variable {parse : Source.Parser} {tree : FileTree} {path : Path}

theorem examine_mend_of_intact (hintact : tree.isBrokenAt parse path = false) :
    examine (.ofTree parse (tree.mend parse)) path = examine (.ofTree parse tree) path := by
  have hread : (tree.mend parse).readText path = tree.readText path := by
    rw [tree.readText_mend, hintact]
    rfl
  rw [examine_ofTree, examine_ofTree, hread]

/-- An emptied file is a source file with neither events nor faults, if it is looked at. -/
theorem examine_mend_of_broken (hempty : parse.TakesEmpty)
    (hbroken : tree.isBrokenAt parse path = true) :
    examine (.ofTree parse (tree.mend parse)) path = .passedOver ∨
      ∃ parsed, examine (.ofTree parse (tree.mend parse)) path = .source parsed ∧
        parsed.module.events = [] ∧ parsed.faults = 0 := by
  have hread : (tree.mend parse).readText path = .ok "" := by
    rw [tree.readText_mend, hbroken]
    rfl
  obtain ⟨parsed, hparse, hsilent⟩ := hempty path.text
  rw [examine_ofTree, hread]
  by_cases hpassed : isPassedOver path = true
  · exact .inl (if_pos hpassed)
  · refine .inr ⟨parsed, ?_, hsilent⟩
    simp only [if_neg hpassed, hparse]
    rfl

/-- A broken file is not a source file that can be analysed. -/
theorem isSource_eq_false_of_isBrokenAt (hending : parse.GoesByEnding)
    (hfree : tree.isLinkFree = true) (hbroken : tree.isBrokenAt parse path = true) :
    isSource (.ofTree parse tree) path = false := by
  obtain ⟨content, hentry, hcontent⟩ := FileTree.isBrokenAt_iff.mp hbroken
  rw [isSource, examine_ofTree, FileTree.readText, hentry]
  by_cases hpassed : isPassedOver path = true
  · rw [if_pos hpassed]
  · rw [if_neg hpassed]
    cases content with
    | bytes bytes => rfl
    | text text =>
      -- the path and the name of the file end alike, so the text is read in the same way
      have hends := FileTree.endsWith_nameAt hfree hentry ".ts" (by decide)
      have hparse : parse path.text = parse (tree.nameAt path) :=
        hending _ _ (congrArg not hends)
      rw [FileTree.isBroken, Bool.and_eq_true, Bool.or_eq_true, decide_eq_true_eq,
        Option.isNone_iff_eq_none, ← hparse] at hcontent
      rcases hcontent.2 with hlong | hnone
      · simp [hlong, bind, Except.bind]
      · by_cases hlong : characterLimit < text.length <;>
          simp [hlong, hnone, bind, Except.bind]

theorem eventsOf_mend (hending : parse.GoesByEnding) (hempty : parse.TakesEmpty)
    (hfree : tree.isLinkFree = true) (path : Path) :
    eventsOf (.ofTree parse (tree.mend parse)) path = eventsOf (.ofTree parse tree) path := by
  cases hbroken : tree.isBrokenAt parse path with
  | false => rw [eventsOf, examine_mend_of_intact hbroken, eventsOf]
  | true =>
    rw [eventsOf_of_not_source (isSource_eq_false_of_isBrokenAt hending hfree hbroken), eventsOf]
    rcases examine_mend_of_broken hempty hbroken with hpassed | ⟨parsed, hsource, hevents, _⟩
    · rw [hpassed]
    · rw [hsource]
      exact hevents

/-- Whether a diagnostic is about a file that is not broken. -/
def aboutIntact (parse : Source.Parser) (tree : FileTree) (diagnostic : Ledger.Diagnostic) : Bool :=
  !tree.isBrokenAt parse ⟨diagnostic.file⟩

/-- Mending takes away the diagnostics of broken files and no others. -/
theorem findings_mend (hempty : parse.TakesEmpty) (tree : FileTree) (path : Path) :
    findings (.ofTree parse (tree.mend parse)) path =
      (findings (.ofTree parse tree) path).filter (aboutIntact parse tree) := by
  have habout (diagnostic : Ledger.Diagnostic)
      (hfound : diagnostic ∈ findings (.ofTree parse tree) path) :
      aboutIntact parse tree diagnostic = !tree.isBrokenAt parse path := by
    obtain ⟨complaint, _, rfl⟩ := List.mem_map.mp hfound
    rfl
  rw [List.filter_congr habout]
  cases hbroken : tree.isBrokenAt parse path with
  | false =>
    rw [findings, examine_mend_of_intact hbroken, ← findings]
    exact (List.filter_true _).symm
  | true =>
    rw [Bool.not_true, List.filter_false, findings]
    rcases examine_mend_of_broken hempty hbroken with hpassed | ⟨parsed, hsource, _, hfaults⟩
    · rw [hpassed]
      rfl
    · rw [hsource, Examination.complaints, hfaults]
      rfl

/-! ### The journal of a survey -/

theorem importTarget?_mend (tree : FileTree) (path : Path) (source : String) :
    importTarget? (.ofTree parse (tree.mend parse)) path source =
      importTarget? (.ofTree parse tree) path source := by
  have hfiles : (Files.ofTree parse (tree.mend parse)).isFile =
      (Files.ofTree parse tree).isFile := by
    funext other
    exact tree.hasFile_revise (FileTree.mended parse) other
  rw [importTarget?, importTarget?, hfiles]

theorem parallel_mend (hending : parse.GoesByEnding) (hempty : parse.TakesEmpty)
    (hfree : tree.isLinkFree = true) (options : Options) :
    Parallel (fun _ ↦ true) (.ofTree parse tree) (.ofTree parse (tree.mend parse)) options
      options where
  events := eventsOf_mend hending hempty hfree
  target := importTarget?_mend tree
  importDepth := rfl
  bookings := fun _ _ _ ↦ rfl

theorem surveyAgenda_mend (tree : FileTree) (options : Options) (root : Path) :
    surveyAgenda (tree.mend parse) options root = surveyAgenda tree options root := by
  rw [surveyAgenda, surveyAgenda, Survey.sightings, Survey.sightings, FileTree.mend,
    FileTree.walk_revise]

theorem outline_all (acts : List Act) : outline (fun _ ↦ true) acts = acts := by
  refine List.filter_eq_self.mpr fun act _ ↦ ?_
  cases act <;> rfl

/-- Broken files and empty ones leave the same journal. -/
theorem surveyJournal_mend (hending : parse.GoesByEnding) (hempty : parse.TakesEmpty)
    (hfree : tree.isLinkFree = true) (options : Options) (root : Path) :
    surveyJournal parse (tree.mend parse) options root =
      surveyJournal parse tree options root := by
  have halike := (parallel_mend hending hempty hfree options).outline_journal
    (initial_surveyAgenda tree options root) []
  rw [outline_all, outline_all] at halike
  rw [surveyJournal, surveyAgenda_mend, halike, surveyJournal]

/-! ### Remarks -/

/-- A remark in a journal was on the agenda. -/
theorem Run.remark_mem_agenda {files : Files} {options : Options} {seen : List Path}
    {agenda : List Task} {acts : List Act} (hrun : Run files options seen agenda acts)
    {path : Path} {message : String} (hremark : .remark path message ∈ acts) :
    .remark path message ∈ agenda := by
  induction hrun with
  | done => cases hremark
  | again _ _ ih => exact List.mem_cons_of_mem _ (ih (by simpa using hremark))
  | beyond _ _ _ ih => exact List.mem_cons_of_mem _ (ih (by simpa using hremark))
  | first _ _ _ ih =>
    have hlater := ih (by simpa using hremark)
    exact List.mem_cons_of_mem _ (by simpa using hlater)
  | event _ ih =>
    have hlater := ih (by simpa using hremark)
    rcases List.mem_append.mp hlater with honward | hrest
    · obtain ⟨target, heq⟩ := exists_visit_of_mem_onward honward
      cases heq
    · exact List.mem_cons_of_mem _ (by simpa using hrest)
  | closed _ ih => exact List.mem_cons_of_mem _ (ih hremark)
  | remark _ ih =>
    rcases List.mem_cons.mp hremark with heq | hlater
    · cases heq
      exact List.mem_cons_self
    · exact List.mem_cons_of_mem _ (ih hlater)

/-- A survey remarks on no file. Assumes: its root is not one. -/
theorem hasFile_eq_false_of_remark {options : Options} {root : Path}
    (hroot : tree.hasFile root = false) {message : String}
    (hremark : .remark path message ∈ surveyAgenda tree options root) :
    tree.hasFile path = false := by
  rw [surveyAgenda, List.mem_append, List.mem_map, List.mem_filterMap] at hremark
  rcases hremark with ⟨complaint, _, heq⟩ | ⟨sighting, hsighting, htask⟩
  · cases heq
    exact hroot
  · have hfault := FileTree.faultAtNoFile_walk hsighting
    cases sighting with
    | file found => simp [taskOf?] at htask
    | directory found => cases htask
    | inaccessible found fault =>
      cases htask
      exact hfault
    | loop found ancestor =>
      cases htask
      exact hfault

/-! ### Surveys -/

section Survey

variable (hending : parse.GoesByEnding) (hempty : parse.TakesEmpty)
  (hfree : tree.isLinkFree = true) (options : Options) (root : Path)

include hending hempty hfree

theorem records_survey_mend :
    (Survey.run parse (tree.mend parse) options root {}).records =
      (Survey.run parse tree options root {}).records := by
  rw [survey_eq_replay, survey_eq_replay, records_replay, records_replay,
    surveyJournal_mend hending hempty hfree]

theorem diagnostics_survey_mend (hroot : tree.hasFile root = false) :
    (Survey.run parse (tree.mend parse) options root {}).diagnostics =
      (Survey.run parse tree options root {}).diagnostics.filter (aboutIntact parse tree) := by
  rw [survey_eq_replay, survey_eq_replay, diagnostics_replay, diagnostics_replay,
    surveyJournal_mend hending hempty hfree, List.nil_append, List.nil_append, List.filter_flatMap]
  refine List.flatMap_congr fun act hact ↦ ?_
  cases act with
  | call path depth => rfl
  | book booking => rfl
  | enter path depth => exact findings_mend hempty tree path
  | remark path message =>
    have hagenda := (run_surveyJournal parse tree options root).remark_mem_agenda hact
    have hfile := hasFile_eq_false_of_remark hroot hagenda
    have hintact := FileTree.isBrokenAt_eq_false_of_hasFile parse hfile
    simp [actDiagnostics, aboutIntact, hintact]

omit hending hempty hfree in
theorem length_marks_survey (parse : Source.Parser) (tree : FileTree) :
    (Survey.run parse tree options root {}).parsed.length +
      (Survey.run parse tree options root {}).skipped.length =
        (entered (surveyJournal parse tree options root)).length := by
  rw [parsed_survey, skipped_survey]
  exact (List.length_eq_length_filter_add _).symm

end Survey

end Journal

/-! ### Whole analyses -/

namespace Project

/-- The figures of a summary, the parsed and the skipped files taken together, or the reason of a
failure. -/
def Summary.figures : Summary → Except String (Nat × Nat × Nat)
  | .completed total shown parsed skipped => .ok (total, shown, parsed + skipped)
  | .failed reason => .error reason

/-- The second outcome is the first without what is due to the broken files of a tree. -/
structure Isolated (parse : Source.Parser) (tree : FileTree) (outcome mended : Outcome) : Prop where
  nodes : mended.nodes = outcome.nodes
  figures : mended.summary.figures = outcome.summary.figures
  diagnostics : mended.diagnostics = outcome.diagnostics.filter (Journal.aboutIntact parse tree)

theorem rootOf_mend (parse : Source.Parser) (tree : FileTree) (root : Path) :
    rootOf (tree.mend parse) root = rootOf tree root := by
  rw [rootOf, rootOf, FileTree.canonical, FileTree.canonical, FileTree.mend, FileTree.locate_revise]
  simp only [FileTree.hasDirectory_revise]

theorem hasDirectory_of_rootOf {tree : FileTree} {root path : Path}
    (hroot : rootOf tree root = .ok path) : tree.hasDirectory path = true := by
  rw [rootOf] at hroot
  split at hroot
  · cases hroot
  · split at hroot
    · cases hroot
      assumption
    · cases hroot

theorem isolated_mend {parse : Source.Parser} (hending : parse.GoesByEnding)
    (hempty : parse.TakesEmpty) {tree : FileTree} (hfree : tree.isLinkFree = true)
    (options : Options) (root : Path) :
    Isolated parse tree (analyze parse tree options root)
      (analyze parse (tree.mend parse) options root) := by
  rw [analyze, analyze, tryAnalyze, tryAnalyze, rootOf_mend]
  cases hroot : rootOf tree root with
  | error problem => exact ⟨rfl, rfl, rfl⟩
  | ok path =>
    have hranking :
        Ranking.ofLedger (ledgerOf parse (tree.mend parse) options path) options.maxNodes =
          Ranking.ofLedger (ledgerOf parse tree options path) options.maxNodes := by
      rw [Ranking.ofLedger, Ranking.ofLedger, Ranking.ordered, Ranking.ordered, ledgerOf, ledgerOf,
        Journal.records_survey_mend hending hempty hfree]
    have hcount : (ledgerOf parse (tree.mend parse) options path).parsed.length +
        (ledgerOf parse (tree.mend parse) options path).skipped.length =
          (ledgerOf parse tree options path).parsed.length +
            (ledgerOf parse tree options path).skipped.length := by
      rw [ledgerOf, ledgerOf, Journal.length_marks_survey, Journal.length_marks_survey,
        Journal.surveyJournal_mend hending hempty hfree]
    have hfile := FileTree.hasFile_eq_false_of_hasDirectory (hasDirectory_of_rootOf hroot)
    refine ⟨?_, ?_, ?_⟩
    · exact congrArg Ranking.nodes hranking
    · simp only [Except.map, outcomeOf, Summary.figures, hranking, hcount]
    · exact Journal.diagnostics_survey_mend hending hempty hfree options path hfile

/-- Broken files are isolated: an analysis finds the same without them, except for what it says
about them. This is so for every parser that goes by the ending of a path and takes an empty text.
Assumes: there are no links. -/
theorem broken_files_isolated (tree : FileTree) (options : Options) (root : Path)
    (hfree : tree.isLinkFree = true) :
    (Source.parse.GoesByEnding ∧ Source.parse.TakesEmpty) ∧
    ∀ parse : Source.Parser, parse.GoesByEnding → parse.TakesEmpty →
      Isolated parse tree (analyze parse tree options root)
        (analyze parse (tree.mend parse) options root) := by
  refine ⟨⟨Source.goesByEnding_parse, Source.takesEmpty_parse⟩, fun parse hending hempty ↦ ?_⟩
  exact isolated_mend hending hempty hfree options root

/-- A project whose only file is not quite right and uses two files outside. Of these one
cannot be parsed and the other is no text. -/
def damaged : FileTree where
  root := .directory [
    ("app", .directory [
      ("A.ts", .file (.text "import '../lib/B'; import '../lib/C'; const Main"))]),
    ("lib", .directory [("B.ts", .file (.text "(")), ("C.js", .file (.bytes [255]))])]
  workingDirectory := []

theorem broken_files_isolated_damaged :
    damaged.isLinkFree = true ∧
    Isolated Source.parse damaged (analyze Source.parse damaged {} ⟨"/app"⟩)
      (analyze Source.parse (damaged.mend Source.parse) {} ⟨"/app"⟩) ∧
    (analyze Source.parse damaged {} ⟨"/app"⟩).summary = .completed 1 1 1 2 ∧
    (analyze Source.parse (damaged.mend Source.parse) {} ⟨"/app"⟩).summary =
      .completed 1 1 3 0 ∧
    (analyze Source.parse damaged {} ⟨"/app"⟩).diagnostics.map (fun diagnostic ↦ diagnostic.file) =
      ["/app/A.ts", "/lib/B.ts", "/lib/C.js"] ∧
    (analyze Source.parse (damaged.mend Source.parse) {} ⟨"/app"⟩).diagnostics.map
        (fun diagnostic ↦ diagnostic.file) = ["/app/A.ts"] :=
  ⟨by decide +kernel, (broken_files_isolated damaged {} ⟨"/app"⟩ (by decide +kernel)).2 _
    Source.goesByEnding_parse Source.takesEmpty_parse, by decide +kernel⟩

end Project

end ComponentGraph
