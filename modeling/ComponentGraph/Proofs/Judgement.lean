import ComponentGraph.Proofs.Reach
import Mathlib.Data.List.Nodup

/-!
Every visited file is judged once, by its own path and content.

`Accepted` says in terms of the path and the text of a file what it takes to be parsed, and
`Judgement` adds which diagnostics the file leaves. Both are about one file and hold for every
parser: neither the options nor the other files have a part in them. `Run.judged` shows of every run
of the machine that starts with an empty ledger that each file it enters is parsed or skipped
accordingly, and that the diagnostics which are not about the walk are the blocks of the files in
the order of their first visits. A survey is such a run, and it leaves out none of the files that
are handed over.
-/

set_option autoImplicit false
set_option relaxedAutoImplicit false

namespace ComponentGraph

/-! ### Parts of texts -/

namespace Text.Search

theorem occursIn_iff (pattern text : List Char) :
    occursIn pattern text = true ↔ pattern <:+: text := by
  induction text with
  | nil => rw [occursIn, List.isEmpty_iff, List.infix_nil]
  | cons character rest ih =>
    rw [occursIn, Bool.or_eq_true, List.isPrefixOf_iff_prefix, ih, List.infix_cons_iff]

theorem contains_iff (text pattern : String) :
    contains text pattern = true ↔ pattern.toList <:+: text.toList :=
  occursIn_iff pattern.toList text.toList

theorem endsWith_iff (text pattern : String) :
    endsWith text pattern = true ↔ pattern.toList <:+ text.toList :=
  List.isSuffixOf_iff_suffix

end Text.Search

namespace Journal

open Analysis

/-! ### One file by itself -/

/-- A path that is passed over: it ends with `.d.ts` or contains `node_modules`. -/
def PassedOver (path : Path) : Prop :=
  ".d.ts".toList <:+ path.text.toList ∨ "node_modules".toList <:+: path.text.toList

/-- A file that is parsed: it is not passed over, it can be read, it has at most half a million
characters, and the parser makes a module of its text. -/
def Accepted (parse : Source.Parser) (tree : FileTree) (path : Path) : Prop :=
  ¬ PassedOver path ∧ ∃ text, tree.readText path = .ok text ∧ text.length ≤ 500000 ∧
    (parse path.text text).isSome = true

/-- The judgement of a file: whether it is parsed, and what it leaves in the diagnostics. The path
is looked at first, then whether the file can be read, then its length, and its text last. -/
inductive Judgement (parse : Source.Parser) (tree : FileTree) (path : Path) :
    Bool → List Ledger.Diagnostic → Prop where
  | passedOver (hpassed : PassedOver path) : Judgement parse tree path false []
  | unreadable {fault : FileTree.Fault} (hpassed : ¬ PassedOver path)
      (hread : tree.readText path = .error fault) :
      Judgement parse tree path false
        [⟨path.text, .read, "Failed to read " ++ path.text ++ ": " ++ fault.message⟩]
  | oversized {text : String} (hpassed : ¬ PassedOver path)
      (hread : tree.readText path = .ok text) (hlength : 500000 < text.length) :
      Judgement parse tree path false [⟨path.text, .read, "File exceeds 500000 characters"⟩]
  | unparsable {text : String} (hpassed : ¬ PassedOver path)
      (hread : tree.readText path = .ok text) (hlength : text.length ≤ 500000)
      (hparse : parse path.text text = none) :
      Judgement parse tree path false
        [⟨path.text, .parse, "Failed to parse " ++ path.text ++ ": " ++ "*"⟩]
  | parsed {text : String} {parsed : Source.Parsed} (hpassed : ¬ PassedOver path)
      (hread : tree.readText path = .ok text) (hlength : text.length ≤ 500000)
      (hparse : parse path.text text = some parsed) :
      Judgement parse tree path true
        (List.replicate parsed.faults ⟨path.text, .parse, "recovered: *"⟩)

variable {parse : Source.Parser} {tree : FileTree} {options : Options} {path : Path}

theorem isPassedOver_iff : isPassedOver path = true ↔ PassedOver path := by
  rw [isPassedOver, Bool.or_eq_true, Text.Search.endsWith_iff, Text.Search.contains_iff, PassedOver]

/-- The examination of a file is its judgement. -/
theorem judgement_examine (parse : Source.Parser) (tree : FileTree) (path : Path) :
    Judgement parse tree path (isSource (.ofTree parse tree) path)
      (findings (.ofTree parse tree) path) := by
  rw [isSource, findings, examine_ofTree]
  by_cases hpassed : isPassedOver path = true
  · rw [if_pos hpassed]
    exact .passedOver (isPassedOver_iff.mp hpassed)
  · have hover : ¬ PassedOver path := fun hover ↦ hpassed (isPassedOver_iff.mpr hover)
    rw [if_neg hpassed]
    cases hread : tree.readText path with
    | error fault => exact .unreadable hover hread
    | ok text =>
      dsimp only
      by_cases hlength : characterLimit < text.length
      · rw [if_pos hlength]
        exact .oversized hover hread hlength
      · rw [if_neg hlength]
        have hfits : text.length ≤ 500000 := Nat.not_lt.mp hlength
        cases hparse : parse path.text text with
        | none => exact .unparsable hover hread hfits hparse
        | some parsed =>
          rw [Examination.complaints, List.map_replicate]
          exact .parsed hover hread hfits hparse

theorem Judgement.accepted_iff {isParsed : Bool} {diagnostics : List Ledger.Diagnostic}
    (hjudgement : Judgement parse tree path isParsed diagnostics) :
    isParsed = true ↔ Accepted parse tree path := by
  unfold Accepted
  cases hjudgement with
  | passedOver hpassed => simp [hpassed]
  | unreadable _ hread => simp [hread]
  | oversized _ hread hlength => simp [hread, Nat.not_le.mpr hlength]
  | unparsable _ hread _ hparse => simp [hread, hparse]
  | parsed hpassed hread hlength hparse => simp [hpassed, hread, hlength, hparse]

/-- No judgement is about the walk. -/
theorem Judgement.step_ne_walk {isParsed : Bool} {diagnostics : List Ledger.Diagnostic}
    (hjudgement : Judgement parse tree path isParsed diagnostics) :
    ∀ diagnostic ∈ diagnostics, diagnostic.step ≠ .walk := by
  intro diagnostic hdiagnostic
  cases hjudgement with
  | passedOver => cases hdiagnostic
  | parsed => simp [List.eq_of_mem_replicate hdiagnostic]
  | unreadable | oversized | unparsable => simp [List.mem_singleton.mp hdiagnostic]

/-! ### All files of a run -/

/-- The file that an act reads. -/
def Act.read? : Act → Option Path
  | .enter path _ => if isPassedOver path then none else some path
  | _ => none

/-- The file whose text an act parses. -/
def Act.parse? (files : Files) : Act → Option Path
  | .enter path _ =>
      match examine files path with
      | .unparsable => some path
      | .source _ => some path
      | _ => none
  | _ => none

/-- Each file of a journal was judged once, by its own path and content, and the ledger holds these
judgements in the order of the first visits. -/
structure JudgedOnce (parse : Source.Parser) (tree : FileTree) (acts : List Act) (ledger : Ledger) :
    Prop where
  /-- The visited files are those that the journal enters. -/
  visited : ∀ path, path ∈ entered acts ↔ path ∈ ledger.parsed ∨ path ∈ ledger.skipped
  /-- A visited file is parsed if it is accepted by itself. -/
  parsed : ∀ path ∈ entered acts, path ∈ ledger.parsed ↔ Accepted parse tree path
  /-- Every other visited file is skipped. -/
  skipped : ∀ path ∈ entered acts, path ∈ ledger.skipped ↔ ¬ Accepted parse tree path
  /-- No file is both, in whatever spelling. -/
  exclusive : ∀ path,
    ¬ (Ledger.listed ledger.parsed path = true ∧ Ledger.listed ledger.skipped path = true)
  /-- Each file leaves one block of diagnostics. -/
  blocks : ∃ block : Path → List Ledger.Diagnostic,
    (∀ path ∈ entered acts,
      Judgement parse tree path (decide (path ∈ ledger.parsed)) (block path)) ∧
      ledger.diagnostics.filter (fun diagnostic ↦ diagnostic.step ≠ .walk) =
        (entered acts).flatMap block
  /-- No file is entered twice, in whatever spelling. -/
  entered_once : ((entered acts).map Path.key).Nodup
  /-- No file is read twice. -/
  read_once : ((acts.filterMap Act.read?).map Path.key).Nodup
  /-- No file is parsed twice. -/
  parsed_once : ((acts.filterMap (Act.parse? (.ofTree parse tree))).map Path.key).Nodup

/-- What is picked from the entries of a journal comes in their order. -/
theorem filterMap_sublist_entered {pick : Act → Option Path}
    (hpick : ∀ act path, pick act = some path → ∃ depth, act = .enter path depth)
    (acts : List Act) : (acts.filterMap pick).Sublist (entered acts) := by
  induction acts with
  | nil => exact .slnil
  | cons act rest ih =>
    cases hpicked : pick act with
    | none =>
      rw [List.filterMap_cons_none hpicked]
      cases act with
      | enter path depth => exact .cons path ih
      | call | book | remark => exact ih
    | some path =>
      obtain ⟨depth, rfl⟩ := hpick act path hpicked
      rw [List.filterMap_cons_some hpicked]
      exact .cons_cons path ih

theorem enter_of_read? {act : Act} (hread : act.read? = some path) :
    ∃ depth, act = .enter path depth := by
  cases act with
  | enter other depth =>
    rw [Act.read?, Option.ite_none_left_eq_some] at hread
    obtain ⟨_, hother⟩ := hread
    cases hother
    exact ⟨depth, rfl⟩
  | call | book | remark => cases hread

theorem enter_of_parse? {files : Files} {act : Act} (hparse : act.parse? files = some path) :
    ∃ depth, act = .enter path depth := by
  cases act with
  | enter other depth =>
    have hother : other = path := by
      cases hexamined : examine files other with
      | unparsable | source => simpa [Act.parse?, hexamined] using hparse
      | passedOver | unreadable | oversized => simp [Act.parse?, hexamined] at hparse
    exact ⟨depth, by rw [hother]⟩
  | call | book | remark => cases hparse

/-- The diagnostics of a journal that are not about the walk come from its entries. -/
theorem filter_actDiagnostics (parse : Source.Parser) (tree : FileTree) (acts : List Act) :
    (acts.flatMap (actDiagnostics (.ofTree parse tree))).filter
        (fun diagnostic ↦ diagnostic.step ≠ .walk) =
      (entered acts).flatMap (findings (.ofTree parse tree)) := by
  induction acts with
  | nil => rfl
  | cons act rest ih =>
    rw [List.flatMap_cons, List.filter_append, ih]
    cases act with
    | enter path depth =>
      have hkept : (findings (.ofTree parse tree) path).filter
          (fun diagnostic ↦ diagnostic.step ≠ .walk) = findings (.ofTree parse tree) path := by
        refine List.filter_eq_self.mpr fun diagnostic hdiagnostic ↦ ?_
        exact decide_eq_true
          ((judgement_examine parse tree path).step_ne_walk diagnostic hdiagnostic)
      rw [actDiagnostics, hkept]
      rfl
    | call | book | remark => rfl

/-- Files of different keys cannot be among the chosen ones in one spelling and among the others in
another. -/
theorem not_listed_both {paths : List Path} (hkeys : (paths.map Path.key).Nodup)
    (choose : Path → Bool) (path : Path) :
    ¬ (Ledger.listed (paths.filter choose) path = true ∧
      Ledger.listed (paths.filter fun other ↦ !choose other) path = true) := by
  rintro ⟨hchosen, hother⟩
  obtain ⟨first, hfirst, hfirstKey⟩ := (Ledger.listed_iff _ path).mp hchosen
  obtain ⟨second, hsecond, hsecondKey⟩ := (Ledger.listed_iff _ path).mp hother
  rw [List.mem_filter] at hfirst hsecond
  have hsame : first = second :=
    List.inj_on_of_nodup_map hkeys hfirst.1 hsecond.1 (hfirstKey.trans hsecondKey.symm)
  subst hsame
  simp [hfirst.2] at hsecond

/-- A run from an empty ledger judges each file once. -/
theorem Run.judged {agenda : List Task} {acts : List Act}
    (hrun : Run (.ofTree parse tree) options [] agenda acts) :
    JudgedOnce parse tree acts (replay (.ofTree parse tree) acts {}) := by
  obtain ⟨hparsed, hskipped⟩ := hrun.marks_replay covers_empty
  have hkeys : ((entered acts).map Path.key).Nodup := hrun.nodup_keys .nil
  have hmem_parsed (path : Path) (hentered : path ∈ entered acts) :
      path ∈ (replay (.ofTree parse tree) acts {}).parsed ↔
        isSource (.ofTree parse tree) path = true := by
    simp [hparsed, hentered]
  have hmem_skipped (path : Path) (hentered : path ∈ entered acts) :
      path ∈ (replay (.ofTree parse tree) acts {}).skipped ↔
        ¬ isSource (.ofTree parse tree) path = true := by
    simp [hskipped, hentered]
  have haccepted (path : Path) := (judgement_examine parse tree path).accepted_iff
  refine
    { visited := fun path ↦ ?_
      parsed := fun path hentered ↦ (hmem_parsed path hentered).trans (haccepted path)
      skipped := fun path hentered ↦
        (hmem_skipped path hentered).trans (not_congr (haccepted path))
      exclusive := ?_
      blocks := ⟨findings (.ofTree parse tree), fun path hentered ↦ ?_, ?_⟩
      entered_once := hkeys
      read_once := ?_
      parsed_once := ?_ }
  · rw [hparsed, hskipped]
    cases hsource : isSource (.ofTree parse tree) path <;> simp [hsource]
  · intro path
    rw [hparsed, hskipped]
    exact not_listed_both hkeys (isSource (.ofTree parse tree)) path
  · have hverdict : decide (path ∈ (replay (.ofTree parse tree) acts {}).parsed) =
        isSource (.ofTree parse tree) path :=
      Bool.eq_iff_iff.mpr (decide_eq_true_iff.trans (hmem_parsed path hentered))
    rw [hverdict]
    exact judgement_examine parse tree path
  · rw [diagnostics_replay, List.nil_append, filter_actDiagnostics]
  · exact ((filterMap_sublist_entered (fun _ _ ↦ enter_of_read?) acts).map Path.key).nodup hkeys
  · exact ((filterMap_sublist_entered (fun _ _ ↦ enter_of_parse?) acts).map Path.key).nodup hkeys

/-- A survey judges every file that it visits once, by its own path and content only, and it visits
every file that the walk hands over. -/
theorem survey_judges_once (parse : Source.Parser) (tree : FileTree) (options : Options)
    (root : Path) :
    JudgedOnce parse tree (surveyJournal parse tree options root)
        (Survey.run parse tree options root {}) ∧
      ∀ path ∈ handed tree options root,
        (Survey.run parse tree options root {}).isVisited path = true := by
  refine ⟨?_, fun path hpath ↦ isVisited_of_call (call_of_handed parse hpath)⟩
  rw [survey_eq_replay]
  exact (run_surveyJournal parse tree options root).judged

/-- A project of one file, which imports a type declaration, a file that is missing and one that
cannot be parsed. -/
def mixed : FileTree where
  root := .directory [
    ("app", .directory [("App.ts", .file (.text
      "import '../lib/Types.d.ts'; import './Missing.ts'; import '../lib/Broken'"))]),
    ("lib", .directory [
      ("Types.d.ts", .file (.text "")),
      ("Broken.ts", .file (.text "function ("))])]
  workingDirectory := []

theorem surveyJournal_mixed : surveyJournal Source.parse mixed {} ⟨"/app"⟩ =
    [.call ⟨"/app/App.ts"⟩ 0, .enter ⟨"/app/App.ts"⟩ 0,
      .call ⟨"/lib/Types.d.ts"⟩ 1, .enter ⟨"/lib/Types.d.ts"⟩ 1,
      .call ⟨"/app/Missing.ts"⟩ 1, .enter ⟨"/app/Missing.ts"⟩ 1,
      .call ⟨"/lib/Broken.ts"⟩ 1, .enter ⟨"/lib/Broken.ts"⟩ 1] := by
  decide +kernel

theorem parsed_mixed :
    (Survey.run Source.parse mixed {} ⟨"/app"⟩ {}).parsed = [⟨"/app/App.ts"⟩] := by
  rw [survey_eq_replay, surveyJournal_mixed]
  decide +kernel

theorem survey_judges_once_mixed :
    Accepted Source.parse mixed ⟨"/app/App.ts"⟩ ∧
      ¬ Accepted Source.parse mixed ⟨"/lib/Types.d.ts"⟩ ∧
      ¬ Accepted Source.parse mixed ⟨"/app/Missing.ts"⟩ ∧
      ¬ Accepted Source.parse mixed ⟨"/lib/Broken.ts"⟩ ∧
        (Survey.run Source.parse mixed {} ⟨"/app"⟩ {}).isVisited ⟨"/app/App.ts"⟩ = true := by
  obtain ⟨hjudged, hvisited⟩ := survey_judges_once Source.parse mixed {} ⟨"/app"⟩
  have haccepted (path : Path)
      (hentered : path ∈ entered (surveyJournal Source.parse mixed {} ⟨"/app"⟩)) :
      Accepted Source.parse mixed path ↔ path ∈ [⟨"/app/App.ts"⟩] := by
    rw [← hjudged.parsed path hentered, parsed_mixed]
  simp only [surveyJournal_mixed, entered, entries_call, entries_enter] at haccepted
  refine ⟨(haccepted _ (by simp)).mpr (by simp), ?_, ?_, ?_, hvisited _ (by decide +kernel)⟩
  · exact fun htypes ↦ absurd ((haccepted _ (by simp)).mp htypes) (by simp)
  · exact fun hmissing ↦ absurd ((haccepted _ (by simp)).mp hmissing) (by simp)
  · exact fun hbroken ↦ absurd ((haccepted _ (by simp)).mp hbroken) (by simp)

end Journal

end ComponentGraph
