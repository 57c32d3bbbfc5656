import ComponentGraph.Proofs.Operation

/-!
What a ledger holds is never taken back. A later ledger extends an earlier one if names, the
dependencies of each name and diagnostics have only been appended, no count has gone down, no kind
and no source has changed, and every visited path is still visited. Nothing is assumed of the
earlier ledger.

Extensions compose, and every operation is one (`extends_apply`). For a request this is shown
act by act: the journal of an analysis is replayed, and each act extends the ledger. Marking a file
may move it between parsed and skipped. An analysis never does that to a file that was visited
before, because the files it enters are new (`Run.not_listed_of_entered`).
-/

set_option autoImplicit false
set_option relaxedAutoImplicit false

namespace ComponentGraph

namespace Ledger

/-! ### Extensions -/

/-- What may become of a record. -/
structure Record.Extends (before after : Record) : Prop where
  kind : after.kind = before.kind
  source : ∀ file, before.source = some file → after.source = some file
  uses : before.uses ≤ after.uses
  dependencies : before.dependencies <+: after.dependencies

/-- What may become of a ledger. -/
structure Extends (before after : Ledger) : Prop where
  names : before.names <+: after.names
  records : ∀ name, (before.recordOf name).Extends (after.recordOf name)
  diagnostics : before.diagnostics <+: after.diagnostics
  visited : ∀ path, before.isVisited path = true → after.isVisited path = true

theorem Record.Extends.refl (record : Record) : record.Extends record :=
  ⟨rfl, fun _ hsource ↦ hsource, Nat.le_refl _, List.prefix_rfl⟩

theorem Record.Extends.trans {first middle last : Record} (hfirst : first.Extends middle)
    (hlast : middle.Extends last) : first.Extends last where
  kind := hlast.kind.trans hfirst.kind
  source := fun file hsource ↦ hlast.source file (hfirst.source file hsource)
  uses := Nat.le_trans hfirst.uses hlast.uses
  dependencies := hfirst.dependencies.trans hlast.dependencies

theorem Extends.refl (ledger : Ledger) : ledger.Extends ledger :=
  ⟨List.prefix_rfl, fun name ↦ .refl (ledger.recordOf name), List.prefix_rfl,
    fun _ hvisited ↦ hvisited⟩

theorem Extends.trans {first middle last : Ledger} (hfirst : first.Extends middle)
    (hlast : middle.Extends last) : first.Extends last where
  names := hfirst.names.trans hlast.names
  records := fun name ↦ (hfirst.records name).trans (hlast.records name)
  diagnostics := hfirst.diagnostics.trans hlast.diagnostics
  visited := fun path hvisited ↦ hlast.visited path (hfirst.visited path hvisited)

/-! ### Single changes -/

theorem Record.extends_bookAll (ledger : Ledger) (bookings : List Booking) (name : String) :
    (ledger.recordOf name).Extends ((ledger.bookAll bookings).recordOf name) := by
  rw [recordOf_bookAll]
  refine ⟨rfl, ?_, Nat.le_add_right _ _, prefix_addNames _ _⟩
  intro file hsource
  rw [hsource, Option.some_or]

theorem extends_book (ledger : Ledger) (booking : Booking) :
    ledger.Extends (ledger.book booking) where
  names := names_book ledger booking ▸ prefix_addNames _ _
  records := Record.extends_bookAll ledger [booking]
  diagnostics := diagnostics_book ledger booking ▸ List.prefix_rfl
  visited := by
    intro path hvisited
    rwa [isVisited, parsed_book, skipped_book]

theorem extends_diagnose (ledger : Ledger) (file : Path) (step : Step) (message : String) :
    ledger.Extends (ledger.diagnose file step message) :=
  { Extends.refl ledger with diagnostics := List.prefix_append _ _ }

theorem listed_congr {first second : Path} (hkey : first.key = second.key) (paths : List Path) :
    listed paths first = listed paths second := by
  unfold listed Path.sameKey
  rw [hkey]

theorem listed_addPath_self (paths : List Path) (path : Path) :
    listed (addPath paths path) path = true := by
  by_cases hlisted : listed paths path = true
  · rwa [addPath, if_pos hlisted]
  · rw [addPath, if_neg hlisted]
    exact listed_of_mem (List.mem_append_right _ (List.mem_singleton_self path))

theorem listed_addPath_of_listed {paths : List Path} {other : Path}
    (hlisted : listed paths other = true) (path : Path) :
    listed (addPath paths path) other = true := by
  unfold addPath
  split
  · exact hlisted
  · rw [listed_append, hlisted, Bool.true_or]

/-- A path that moves from the others to the marked ones leaves no path unmarked. -/
theorem listed_move {marked others : List Path} {other : Path} (path : Path)
    (hlisted : listed marked other = true ∨ listed others other = true) :
    listed (addPath marked path) other = true ∨ listed (dropPath others path) other = true := by
  rcases hlisted with hmarked | hothers
  · exact Or.inl (listed_addPath_of_listed hmarked path)
  · obtain ⟨found, hfound, hkey⟩ := (listed_iff others other).mp hothers
    by_cases hmoved : found.key = path.key
    · rw [listed_congr (hkey.symm.trans hmoved)]
      exact Or.inl (listed_addPath_self marked path)
    · have hkept : found ∈ dropPath others path :=
        List.mem_filter.mpr ⟨hfound, by simpa [Path.sameKey] using hmoved⟩
      exact Or.inr ((listed_iff _ other).mpr ⟨found, hkept, hkey⟩)

theorem extends_markParsed (ledger : Ledger) (path : Path) :
    ledger.Extends (ledger.markParsed path) := by
  refine { Extends.refl ledger with visited := ?_ }
  intro other hvisited
  rw [isVisited, Bool.or_eq_true] at hvisited ⊢
  exact listed_move path hvisited

theorem extends_markSkipped (ledger : Ledger) (path : Path) :
    ledger.Extends (ledger.markSkipped path) := by
  refine { Extends.refl ledger with visited := ?_ }
  intro other hvisited
  rw [isVisited, Bool.or_eq_true] at hvisited ⊢
  exact (listed_move path hvisited.symm).symm

theorem extends_attempt {α : Type} (ledger : Ledger) (file : Path) (step : Step)
    (outcome : Except (List String) α) :
    ledger.Extends (ledger.attempt file step outcome).1 := by
  cases outcome with
  | ok value => exact .refl ledger
  | error causes => exact extends_diagnose ledger file step (chain causes)

end Ledger

namespace Journal

open Analysis

/-! ### Analyses -/

theorem extends_complain (ledger : Ledger) (path : Path)
    (complaints : List (Ledger.Step × String)) :
    ledger.Extends (complain ledger path complaints) := by
  rw [complain_eq]
  exact { Ledger.Extends.refl ledger with diagnostics := List.prefix_append _ _ }

theorem extends_judge (files : Files) (path : Path) (ledger : Ledger) :
    ledger.Extends (judge files path ledger) := by
  unfold judge
  split
  · exact (ledger.extends_markParsed path).trans (extends_complain _ path _)
  · exact (extends_complain ledger path _).trans (Ledger.extends_markSkipped _ path)

theorem extends_perform (files : Files) (ledger : Ledger) (act : Act) :
    ledger.Extends (perform files ledger act) := by
  cases act with
  | call path depth => exact .refl ledger
  | enter path depth => exact extends_judge files path ledger
  | book booking => exact ledger.extends_book booking
  | remark path message => exact ledger.extends_diagnose path .walk message

theorem extends_replay (files : Files) (acts : List Act) (ledger : Ledger) :
    ledger.Extends (replay files acts ledger) := by
  induction acts generalizing ledger with
  | nil => exact .refl ledger
  | cons act rest ih => exact (extends_perform files ledger act).trans (ih _)

theorem extends_apply (ledger : Ledger) (operation : Operation) :
    ledger.Extends (operation.apply ledger) := by
  cases operation with
  | book booking => exact ledger.extends_book booking
  | markParsed path => exact ledger.extends_markParsed path
  | markSkipped path => exact ledger.extends_markSkipped path
  | diagnose file step message => exact ledger.extends_diagnose file step message
  | attempt file step outcome => exact ledger.extends_attempt file step outcome
  | analysis parse tree options request =>
    obtain ⟨acts, _, hserved⟩ := serve_eq_replay parse tree options ledger request
    rw [Operation.apply, hserved]
    exact extends_replay _ acts ledger

/-! ### Verdicts -/

/-- A path that was visited before is parsed or skipped as it was. -/
def KeepsVerdicts (before after : Ledger) : Prop :=
  ∀ path, before.isVisited path = true →
    Ledger.listed after.parsed path = Ledger.listed before.parsed path ∧
      Ledger.listed after.skipped path = Ledger.listed before.skipped path

/-- A run enters only files that were not visited before. -/
theorem Run.not_listed_of_entered {files : Files} {options : Options} {seen : List Path}
    {agenda : List Task} {acts : List Act} (hrun : Run files options seen agenda acts) :
    ∀ path ∈ entered acts, Ledger.listed seen path = false := by
  induction hrun with
  | done => exact fun path hpath ↦ absurd hpath List.not_mem_nil
  | again _ _ ih => exact ih
  | beyond _ _ _ ih => exact ih
  | @first seen path depth rest acts hnew _ _ ih =>
    intro other hother
    rcases List.mem_cons.mp hother with rfl | hlater
    · exact hnew
    · have hunlisted := ih other hlater
      rw [Ledger.listed_append, Bool.or_eq_false_iff] at hunlisted
      exact hunlisted.1
  | event _ ih => simpa [entered] using ih
  | closed _ ih => exact ih
  | remark _ ih => exact ih

theorem keepsVerdicts_serve (parse : Source.Parser) (tree : FileTree) (options : Options)
    (ledger : Ledger) (request : Request) :
    KeepsVerdicts ledger (serve parse tree options ledger request) := by
  obtain ⟨acts, hrun, hserved⟩ := serve_eq_replay parse tree options ledger request
  obtain ⟨hparsed, hskipped⟩ := hrun.marks_replay (covers_marked ledger)
  intro path hvisited
  -- no file that is entered has the key of a path that was visited
  have hold (choose : Path → Bool) :
      Ledger.listed ((entered acts).filter choose) path = false := by
    rw [Ledger.listed_eq_false_iff]
    intro other hother hkey
    have hnew := hrun.not_listed_of_entered other (List.mem_filter.mp hother).1
    rw [Ledger.listed_congr hkey, ← covers_marked ledger path, hvisited] at hnew
    exact Bool.false_ne_true hnew.symm
  rw [hserved, hparsed, hskipped, Ledger.listed_append, Ledger.listed_append, hold, hold,
    Bool.or_false, Bool.or_false]
  exact ⟨rfl, rfl⟩

/-- Whatever is done to a ledger, its history is not rewritten: the ledger afterwards extends the
one before. Beyond that, an analysis of a file or of a project leaves every path that was visited
before parsed or skipped as it was. -/
theorem history_never_rewritten (ledger : Ledger) :
    (∀ operation : Operation, ledger.Extends (operation.apply ledger)) ∧
      ∀ (parse : Source.Parser) (tree : FileTree) (options : Options) (request : Request),
        KeepsVerdicts ledger (serve parse tree options ledger request) :=
  ⟨extends_apply ledger, fun parse tree options request ↦
    keepsVerdicts_serve parse tree options ledger request⟩

end Journal

end ComponentGraph
