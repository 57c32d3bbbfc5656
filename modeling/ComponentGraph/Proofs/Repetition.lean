import ComponentGraph.Proofs.Depth
import ComponentGraph.Proofs.History
import ComponentGraph.Proofs.Judgement

/-!
Doing an analysis again changes nothing.

A file that is asked for within the limit is visited in the end (`isVisited_runAgenda`), and what is
visited stays visited whatever is done to the ledger afterwards. From then on the first guard of the
analysis keeps every request for the file from doing anything, at any depth and in any spelling. A
file that was beyond the limit is left alone the second time for the same reason as the first time.

A survey asks for all its files at depth zero, which is within every limit. The second time nothing
is left to visit, and only the remarks of the walk are made again (`runAgenda_of_visited`). They are
exactly the diagnostics of the first time that are about the walk (`Run.walk_diagnostics`).
-/

set_option autoImplicit false
set_option relaxedAutoImplicit false

namespace ComponentGraph.Journal

open Analysis

variable {files : Files} {options : Options}

/-! ### Visited files -/

/-- What an agenda asks for within the limit is visited in the end. -/
theorem isVisited_runAgenda {agenda : List Task} {path : Path} {depth : Nat}
    (hvisit : .visit path depth ∈ agenda) (hwithin : isBeyond options path depth = false)
    (ledger : Ledger) : (runAgenda files options agenda ledger).isVisited path = true := by
  have hrun : Run files options (ledger.parsed ++ ledger.skipped) agenda _ := run_journal agenda _
  have hcall := hrun.calls_complete.asked _ hvisit
  rw [hrun.run_eq_replay (covers_marked ledger), hrun.covers_replay (covers_marked ledger)]
  refine (hrun.listed_of_call _ hcall).resolve_left ?_
  rw [hwithin]
  exact Bool.false_ne_true

theorem analyze_of_visited {path : Path} {ledger : Ledger} (hvisited : ledger.isVisited path = true)
    (depth : Nat) : analyze files options path depth ledger = ledger := by
  rw [analyze_eq, if_pos hvisited]

theorem analyze_twice (files : Files) (options : Options) (path : Path) (depth : Nat)
    (ledger : Ledger) :
    analyze files options path depth (analyze files options path depth ledger) =
      analyze files options path depth ledger := by
  by_cases hbeyond : isBeyond options path depth = true
  · have hunchanged (unvisited : Ledger) :
        analyze files options path depth unvisited = unvisited := by
      rw [analyze_eq, if_pos hbeyond, ite_self]
    rw [hunchanged, hunchanged]
  · have hvisited : (runAgenda files options [.visit path depth] ledger).isVisited path = true :=
      isVisited_runAgenda List.mem_cons_self (Bool.eq_false_iff.mpr hbeyond) ledger
    exact analyze_of_visited hvisited depth

theorem extends_foldl_apply (operations : List Operation) (ledger : Ledger) :
    ledger.Extends (operations.foldl Operation.apply ledger) := by
  induction operations generalizing ledger with
  | nil => exact .refl ledger
  | cons operation rest ih => exact (extends_apply ledger operation).trans (ih _)

/-- A file that was analysed within the limit, or in focus, is left alone ever after, in any
spelling. -/
theorem analyze_after_operations {path other : Path} {depth : Nat}
    (hreached : depth ≤ options.importDepth ∨ options.focus?.isSome = true)
    (hkey : other.key = path.key) (operations : List Operation) (later : Nat) (ledger : Ledger) :
    analyze files options other later
        (operations.foldl Operation.apply (analyze files options path depth ledger)) =
      operations.foldl Operation.apply (analyze files options path depth ledger) := by
  have hwithin : isBeyond options path depth = false := by
    rcases hreached with hlimit | hfocus
    · simp [isBeyond, Nat.not_lt.mpr hlimit]
    · cases hfocused : options.focus? with
      | none => simp [hfocused] at hfocus
      | some focus => simp [isBeyond, hfocused]
  have hvisited : (runAgenda files options [.visit path depth] ledger).isVisited path = true :=
    isVisited_runAgenda List.mem_cons_self hwithin ledger
  have hstays := (extends_foldl_apply operations _).visited path hvisited
  refine analyze_of_visited ?_ later
  rwa [Ledger.isVisited, Ledger.listed_congr hkey, Ledger.listed_congr hkey, ← Ledger.isVisited]

/-! ### Remarks -/

/-- Where all files on an agenda are visited, only its remarks are left to be made. -/
theorem runAgenda_of_visited {agenda : List Task} {ledger : Ledger}
    (hinitial : ∀ task ∈ agenda, task.Initial options)
    (hvisited : ∀ path depth, .visit path depth ∈ agenda → ledger.isVisited path = true) :
    runAgenda files options agenda ledger =
      { ledger with diagnostics := ledger.diagnostics ++ agenda.flatMap taskDiagnostics } := by
  induction agenda generalizing ledger with
  | nil =>
    rw [List.flatMap_nil, List.append_nil]
    rfl
  | cons task rest ih =>
    obtain ⟨hhere, hlater⟩ := List.forall_mem_cons.mp hinitial
    have hrest (path : Path) (depth : Nat) (hvisit : .visit path depth ∈ rest) :
        ledger.isVisited path = true := hvisited path depth (List.mem_cons_of_mem task hvisit)
    rw [runAgenda_cons]
    cases task with
    | visit path depth =>
      rw [runTask, analyze_of_visited (hvisited path depth List.mem_cons_self), ih hlater hrest]
      rfl
    | scan path depth active events => exact hhere.elim
    | remark path message =>
      have hremarked (other : Path) (depth : Nat) (hvisit : .visit other depth ∈ rest) :
          (ledger.diagnose path .walk message).isVisited other = true := hrest other depth hvisit
      rw [runTask, ih hlater hremarked, List.flatMap_cons, ← List.append_assoc]
      rfl

theorem filter_walk_findings (parse : Source.Parser) (tree : FileTree) (path : Path) :
    (findings (.ofTree parse tree) path).filter
      (fun diagnostic ↦ diagnostic.step = .walk) = [] := by
  refine List.filter_eq_nil_iff.mpr fun diagnostic hdiagnostic ↦ ?_
  rw [decide_eq_true_eq]
  exact (judgement_examine parse tree path).step_ne_walk diagnostic hdiagnostic

/-- The diagnostics of a journal that are about the walk are the remarks on the agenda, in order. -/
theorem Run.walk_diagnostics {parse : Source.Parser} {tree : FileTree} {seen : List Path}
    {agenda : List Task} {acts : List Act}
    (hrun : Run (.ofTree parse tree) options seen agenda acts) :
    (acts.flatMap (actDiagnostics (.ofTree parse tree))).filter
        (fun diagnostic ↦ diagnostic.step = .walk) =
      agenda.flatMap taskDiagnostics := by
  induction hrun with
  | done => rfl
  | again _ _ ih => exact ih
  | beyond _ _ _ ih => exact ih
  | @first seen path depth rest acts _ _ _ ih =>
    have hjournal : (Act.call path depth :: .enter path depth :: acts).flatMap
        (actDiagnostics (.ofTree parse tree)) =
          findings (.ofTree parse tree) path ++
            acts.flatMap (actDiagnostics (.ofTree parse tree)) := rfl
    rw [hjournal, List.filter_append, filter_walk_findings, List.nil_append, ih]
    rfl
  | @event seen path depth active event events rest acts _ ih =>
    have hbooked : ((eventBookings options path active event).map Act.book).flatMap
        (actDiagnostics (.ofTree parse tree)) = [] := by
      simp [List.flatMap_map, actDiagnostics]
    rw [List.flatMap_append, flatMap_taskDiagnostics_onward, List.nil_append] at ih
    rw [List.flatMap_append, hbooked, List.nil_append, ih]
    rfl
  | closed _ ih => exact ih
  | @remark seen path message rest acts _ ih =>
    have hremark (more : List Act) : (Act.remark path message :: more).flatMap
        (actDiagnostics (.ofTree parse tree)) =
          ⟨path.text, .walk, message⟩ :: more.flatMap (actDiagnostics (.ofTree parse tree)) := rfl
    rw [hremark, List.filter_cons_of_pos (by simp), ih]
    rfl

/-- A second survey makes the remarks of the first one again and does nothing else. -/
theorem survey_twice (parse : Source.Parser) (tree : FileTree) (options : Options) (root : Path)
    (ledger : Ledger) :
    ∃ appended,
      (Survey.run parse tree options root ledger).diagnostics = ledger.diagnostics ++ appended ∧
      Survey.run parse tree options root (Survey.run parse tree options root ledger) =
        { Survey.run parse tree options root ledger with
          diagnostics := (Survey.run parse tree options root ledger).diagnostics ++
            appended.filter fun diagnostic ↦ diagnostic.step = .walk } := by
  have hinitial := initial_surveyAgenda tree options root
  obtain ⟨acts, hrun⟩ : ∃ acts, Run (.ofTree parse tree) options (ledger.parsed ++ ledger.skipped)
      (surveyAgenda tree options root) acts := ⟨_, run_journal _ _⟩
  refine ⟨acts.flatMap (actDiagnostics (.ofTree parse tree)), ?_, ?_⟩
  · rw [survey_run_eq, hrun.run_eq_replay (covers_marked ledger), diagnostics_replay]
  · rw [hrun.walk_diagnostics, survey_run_eq parse tree options root ledger, survey_run_eq]
    refine runAgenda_of_visited hinitial fun path depth hvisit ↦ ?_
    have hlimit : depth ≤ options.importDepth := hinitial _ hvisit
    have hwithin : isBeyond options path depth = false := by
      simp [isBeyond, Nat.not_lt.mpr hlimit]
    exact isVisited_runAgenda hvisit hwithin ledger

/-- Analyses are idempotent. The same file at the same depth makes no difference a second time. A
file that was analysed within the limit, or in focus, makes no difference ever after, in whatever
spelling, at whatever depth and whatever was done in between. A second survey appends the
diagnostics of the first one that are about the walk, and changes nothing else. -/
theorem analysis_idempotent (parse : Source.Parser) (tree : FileTree) (options : Options)
    (ledger : Ledger) :
    (∀ path depth,
      analyze (.ofTree parse tree) options path depth
          (analyze (.ofTree parse tree) options path depth ledger) =
        analyze (.ofTree parse tree) options path depth ledger) ∧
    (∀ path depth, depth ≤ options.importDepth ∨ options.focus?.isSome = true →
      ∀ (operations : List Operation) (other : Path), other.key = path.key → ∀ later,
        analyze (.ofTree parse tree) options other later
            (operations.foldl Operation.apply
              (analyze (.ofTree parse tree) options path depth ledger)) =
          operations.foldl Operation.apply
            (analyze (.ofTree parse tree) options path depth ledger)) ∧
    ∀ root, ∃ appended,
      (Survey.run parse tree options root ledger).diagnostics = ledger.diagnostics ++ appended ∧
      Survey.run parse tree options root (Survey.run parse tree options root ledger) =
        { Survey.run parse tree options root ledger with
          diagnostics := (Survey.run parse tree options root ledger).diagnostics ++
            appended.filter fun diagnostic ↦ diagnostic.step = .walk } := by
  refine ⟨?_, ?_, fun root ↦ survey_twice parse tree options root ledger⟩
  · intro path depth
    exact analyze_twice (.ofTree parse tree) options path depth ledger
  · intro path depth hreached operations other hkey later
    exact analyze_after_operations hreached hkey operations later ledger

/-- In the project of the detour, with a pattern that cannot be read, a file is left alone after it
was analysed, in another spelling and beyond the limit, even if it was marked otherwise and the
project was surveyed in between. -/
theorem analysis_idempotent_detour :
    (2 ≤ ({} : Options).importDepth ∨ ({} : Options).focus?.isSome = true) ∧
    (Path.mk "//app/./App.ts/").key = (Path.mk "/app/App.ts").key ∧
    (analyze (.ofTree Source.parse detour) {} ⟨"/app/App.ts"⟩ 2 {}).parsed = [⟨"/app/App.ts"⟩] ∧
    analyze (.ofTree Source.parse detour) {} ⟨"//app/./App.ts/"⟩ 7
        ([.markSkipped ⟨"/app/App.ts"⟩,
            .analysis Source.parse detour { ignores := ["["] } (.project ⟨"/app"⟩)].foldl
          Operation.apply (analyze (.ofTree Source.parse detour) {} ⟨"/app/App.ts"⟩ 2 {})) =
      [.markSkipped ⟨"/app/App.ts"⟩,
          .analysis Source.parse detour { ignores := ["["] } (.project ⟨"/app"⟩)].foldl
        Operation.apply (analyze (.ofTree Source.parse detour) {} ⟨"/app/App.ts"⟩ 2 {}) := by
  have hkey : (Path.mk "//app/./App.ts/").key = (Path.mk "/app/App.ts").key := by decide +kernel
  refine ⟨by decide, hkey, by decide +kernel, ?_⟩
  exact (analysis_idempotent Source.parse detour {} {}).2.1 ⟨"/app/App.ts"⟩ 2 (by decide) _ _ hkey 7

end ComponentGraph.Journal
