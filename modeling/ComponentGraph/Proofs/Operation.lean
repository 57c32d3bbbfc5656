import ComponentGraph.Proofs.Accounting

/-!
What can be done to a ledger, and what stays true of it.

An operation writes a booking, marks a file, reports a fault, takes the result of a step that may
fail, or serves a request for an analysis. A request carries the tree and the options it is served
with, so a sequence of operations may change the options and rewrite files in between. However an
operation comes about, there is little that it can do: the records afterwards are those before with
some bookings written in (`Operation.records_apply`), and each file is marked at most once
(`Operation.marked_once_apply`).

A ledger is well-formed if no file is both parsed and skipped, every name has one record, of the
kind that the name asks for, and the dependencies of a record are distinct names with records of
their own. Every operation keeps this (`Ledger.WellFormed.apply`), so it holds after every sequence
of operations on an empty ledger.
-/

set_option autoImplicit false
set_option relaxedAutoImplicit false

namespace ComponentGraph

/-! ### Marks -/

namespace Ledger

theorem listed_dropPath_self (paths : List Path) (path : Path) :
    listed (dropPath paths path) path = false := by
  rw [listed_eq_false_iff]
  intro other hother
  obtain ⟨_, hkept⟩ := List.mem_filter.mp hother
  simpa [Path.sameKey] using hkept

theorem dropPath_sublist (paths : List Path) (path : Path) : (dropPath paths path).Sublist paths :=
  List.filter_sublist

/-- A path that moves from the others to the marked ones is still marked once. -/
theorem nodup_keys_move {marked others : List Path}
    (honce : ((marked ++ others).map Path.key).Nodup) (path : Path) :
    ((addPath marked path ++ dropPath others path).map Path.key).Nodup := by
  have hkept : ((marked ++ dropPath others path).map Path.key).Nodup :=
    honce.sublist (((dropPath_sublist others path).append_left marked).map Path.key)
  by_cases hlisted : listed marked path = true
  · rwa [addPath, if_pos hlisted]
  · have hnew : path.key ∉ (marked ++ dropPath others path).map Path.key := by
      rw [← listed_iff_mem_keys, listed_append, listed_dropPath_self, Bool.or_false]
      exact hlisted
    have hmoved : ((marked ++ [path]) ++ dropPath others path).Perm
        (path :: (marked ++ dropPath others path)) := by
      rw [List.append_assoc]
      exact List.perm_middle
    rw [addPath_of_not_listed (Bool.eq_false_iff.mpr hlisted), (hmoved.map Path.key).nodup_iff]
    exact List.nodup_cons.mpr ⟨hnew, hkept⟩

theorem not_listed_of_nodup_keys {first second : List Path}
    (honce : ((first ++ second).map Path.key).Nodup) (path : Path) :
    ¬ (listed first path = true ∧ listed second path = true) := by
  rintro ⟨hfirst, hsecond⟩
  rw [listed_iff_mem_keys] at hfirst hsecond
  rw [List.map_append, List.nodup_append] at honce
  exact honce.2.2 path.key hfirst path.key hsecond rfl

end Ledger

/-! ### Operations -/

namespace Journal

open Analysis

/-- Something that is done to a ledger. -/
inductive Operation : Type 1 where
  /-- A name is declared or used, or a declaration comes to depend on a name. -/
  | book (booking : Ledger.Booking)
  | markParsed (path : Path)
  | markSkipped (path : Path)
  | diagnose (file : Path) (step : Ledger.Step) (message : String)
  /-- A step comes to a result, or fails with some causes. -/
  | attempt {α : Type} (file : Path) (step : Ledger.Step) (outcome : Except (List String) α)
  /-- A file or a project is analysed in a tree with some options, and read by some parser. -/
  | analysis (parse : Source.Parser) (tree : FileTree) (options : Options) (request : Request)

/-- Carries out an operation. -/
def Operation.apply (ledger : Ledger) : Operation → Ledger
  | .book booking => ledger.book booking
  | .markParsed path => ledger.markParsed path
  | .markSkipped path => ledger.markSkipped path
  | .diagnose file step message => ledger.diagnose file step message
  | .attempt file step outcome => (ledger.attempt file step outcome).1
  | .analysis parse tree options request => serve parse tree options ledger request

/-- The ledger after operations, which start with an empty one. -/
def ledgerAfter (operations : List Operation) : Ledger :=
  operations.foldl Operation.apply {}

theorem covers_marked (ledger : Ledger) : Covers (ledger.parsed ++ ledger.skipped) ledger := by
  intro path
  rw [Ledger.listed_append]
  rfl

/-- A request is served by doing the acts of some run of the machine. -/
theorem serve_eq_replay (parse : Source.Parser) (tree : FileTree) (options : Options)
    (ledger : Ledger) (request : Request) :
    ∃ acts, Run (.ofTree parse tree) options (ledger.parsed ++ ledger.skipped)
        (requestAgenda tree options request) acts ∧
      serve parse tree options ledger request = replay (.ofTree parse tree) acts ledger := by
  have hrun : Run (.ofTree parse tree) options (ledger.parsed ++ ledger.skipped)
      (requestAgenda tree options request) _ := run_journal _ _
  have hserved : serve parse tree options ledger request =
      runAgenda (.ofTree parse tree) options (requestAgenda tree options request) ledger := by
    cases request with
    | file path depth => rfl
    | project root => exact survey_run_eq parse tree options root ledger
  exact ⟨_, hrun, hserved.trans (hrun.run_eq_replay (covers_marked ledger))⟩

/-- The records change by bookings only. -/
theorem Operation.records_apply (operation : Operation) (ledger : Ledger) :
    ∃ bookings, (operation.apply ledger).records = (ledger.bookAll bookings).records := by
  cases operation with
  | book booking => exact ⟨[booking], rfl⟩
  | markParsed path => exact ⟨[], rfl⟩
  | markSkipped path => exact ⟨[], rfl⟩
  | diagnose file step message => exact ⟨[], rfl⟩
  | attempt file step outcome =>
    refine ⟨[], ?_⟩
    cases outcome <;> rfl
  | analysis parse tree options request =>
    obtain ⟨acts, _, hserved⟩ := serve_eq_replay parse tree options ledger request
    refine ⟨booked acts, ?_⟩
    rw [Operation.apply, hserved, records_replay]

/-- A run marks the files that it enters, each once, and no other file. -/
theorem Run.nodup_keys_replay {files : Files} {options : Options} {agenda : List Task}
    {acts : List Act} {ledger : Ledger}
    (hrun : Run files options (ledger.parsed ++ ledger.skipped) agenda acts)
    (honce : ((ledger.parsed ++ ledger.skipped).map Path.key).Nodup) :
    (((replay files acts ledger).parsed ++ (replay files acts ledger).skipped).map
      Path.key).Nodup := by
  obtain ⟨hparsed, hskipped⟩ := hrun.marks_replay (covers_marked ledger)
  have hperm : ((replay files acts ledger).parsed ++ (replay files acts ledger).skipped).Perm
      (ledger.parsed ++ ledger.skipped ++ entered acts) := by
    rw [hparsed, hskipped]
    refine List.Perm.trans ?_ ((List.filter_append_perm (isSource files) (entered acts)).append_left
      (ledger.parsed ++ ledger.skipped))
    rw [List.append_assoc, List.append_assoc]
    exact (List.perm_append_comm_assoc _ _ _).append_left _
  exact (hperm.map Path.key).nodup_iff.mpr (hrun.nodup_keys honce)

/-- No operation marks a file twice. -/
theorem Operation.marked_once_apply (operation : Operation) {ledger : Ledger}
    (honce : ((ledger.parsed ++ ledger.skipped).map Path.key).Nodup) :
    (((operation.apply ledger).parsed ++ (operation.apply ledger).skipped).map
      Path.key).Nodup := by
  cases operation with
  | book booking => simpa [Operation.apply] using honce
  | markParsed path => exact Ledger.nodup_keys_move honce path
  | markSkipped path =>
    have hswapped : ((ledger.skipped ++ ledger.parsed).map Path.key).Nodup :=
      (List.perm_append_comm.map Path.key).nodup_iff.mp honce
    exact (List.perm_append_comm.map Path.key).nodup_iff.mp
      (Ledger.nodup_keys_move hswapped path)
  | diagnose file step message => exact honce
  | attempt file step outcome => cases outcome <;> exact honce
  | analysis parse tree options request =>
    obtain ⟨acts, hrun, hserved⟩ := serve_eq_replay parse tree options ledger request
    rw [Operation.apply, hserved]
    exact hrun.nodup_keys_replay honce

end Journal

/-! ### Well-formed ledgers -/

namespace Ledger

/-- A ledger that is what it should be. -/
structure WellFormed (ledger : Ledger) : Prop where
  /-- No path is parsed and skipped, in whatever spelling. -/
  exclusive : ∀ path, ¬ (listed ledger.parsed path = true ∧ listed ledger.skipped path = true)
  /-- No path is marked twice. -/
  marked_once : ((ledger.parsed ++ ledger.skipped).map Path.key).Nodup
  /-- No two records have one name. -/
  names_distinct : ledger.names.Nodup
  /-- A record has the kind that its name asks for. -/
  kinds : ∀ name, (ledger.recordOf name).kind = Name.kind name
  /-- No dependency of a record is noted twice. -/
  dependencies_distinct : ∀ name, (ledger.recordOf name).dependencies.Nodup
  /-- A dependency has a record itself. -/
  dependencies_known : ∀ owner, ∀ name ∈ (ledger.recordOf owner).dependencies, name ∈ ledger.names

theorem wellFormed_empty : WellFormed {} where
  exclusive := fun _ ⟨hparsed, _⟩ ↦ Bool.false_ne_true hparsed
  marked_once := .nil
  names_distinct := .nil
  kinds := fun _ ↦ rfl
  dependencies_distinct := fun _ ↦ .nil
  dependencies_known := fun _ _ hname ↦ absurd hname List.not_mem_nil

theorem names_congr {first second : Ledger} (hrecords : first.records = second.records) :
    first.names = second.names :=
  congrArg (List.map Prod.fst) hrecords

/-- Bookings leave the records well-formed: whatever a name comes to depend on is met by the booking
that says so. -/
theorem WellFormed.dependencies_known_bookAll {ledger : Ledger} (hledger : WellFormed ledger)
    (bookings : List Booking) (owner : String) :
    ∀ name ∈ ((ledger.bookAll bookings).recordOf owner).dependencies,
      name ∈ (ledger.bookAll bookings).names := by
  intro name hname
  rw [names_bookAll, mem_addNames, List.mem_flatMap]
  rcases (mem_dependencies_bookAll ledger bookings owner name).mp hname with hold | hbooked
  · exact Or.inl (hledger.dependencies_known owner name hold)
  · exact Or.inr ⟨.depend owner name, hbooked, List.mem_cons_self⟩

/-- Every operation keeps a ledger well-formed. -/
theorem WellFormed.apply {ledger : Ledger} (hledger : WellFormed ledger)
    (operation : Journal.Operation) : WellFormed (operation.apply ledger) := by
  obtain ⟨bookings, hrecords⟩ := operation.records_apply ledger
  have honce := operation.marked_once_apply hledger.marked_once
  have hrecord := recordOf_congr hrecords
  have hnames := names_congr hrecords
  refine ⟨not_listed_of_nodup_keys honce, honce, ?_, ?_, ?_, ?_⟩
  · rw [hnames, names_bookAll]
    exact nodup_addNames hledger.names_distinct _
  · intro name
    rw [hrecord, recordOf_bookAll]
    exact hledger.kinds name
  · intro name
    rw [hrecord, recordOf_bookAll]
    exact nodup_addNames (hledger.dependencies_distinct name) _
  · intro owner
    rw [hrecord, hnames]
    exact hledger.dependencies_known_bookAll bookings owner

theorem WellFormed.foldl_apply {ledger : Ledger} (hledger : WellFormed ledger)
    (operations : List Journal.Operation) :
    WellFormed (operations.foldl Journal.Operation.apply ledger) := by
  induction operations generalizing ledger with
  | nil => exact hledger
  | cons operation rest ih => exact ih (hledger.apply operation)

end Ledger

/-- After any sequence of operations, with options and files that may change in between, the ledger
is well-formed. -/
theorem Journal.wellFormed_ledgerAfter (operations : List Journal.Operation) :
    (Journal.ledgerAfter operations).WellFormed :=
  Ledger.wellFormed_empty.foldl_apply operations

end ComponentGraph
