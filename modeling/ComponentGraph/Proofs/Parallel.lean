import ComponentGraph.Proofs.Accounting

/-!
Two analyses side by side, with different options or in different trees.

What an analysis opens is decided by the events of the files, by where their imports lead and by the
depth of the options. Two settings that have these in common enter the same files in the same order,
whatever else they differ in, and what is left to compare is what the events write into the records.
An outline of a journal leaves out the bookings that are not of interest. If no single event tells
two settings apart as far as the outline goes, no journal does (`Parallel.outline_journal`).

The comparison goes by the name that was declared last, which is the same in both settings even
where only one of them lets that declaration take uses.
-/

set_option autoImplicit false
set_option relaxedAutoImplicit false

namespace ComponentGraph.Journal

open Analysis

/-! ### The declaration that was made last -/

/-- The active declaration where this name was declared last. -/
def activeOf (options : Options) (last : Option String) : Option Active :=
  last.map fun name ↦ ⟨name, takesUses options name⟩

/-- The name that was declared last after an event. -/
def lastAfter (last : Option String) : Source.Event → Option String
  | .declared name => some name
  | _ => last

theorem activeAfter_activeOf (options : Options) (last : Option String) (event : Source.Event) :
    activeAfter options (activeOf options last) event =
      activeOf options (lastAfter last event) := by
  cases event <;> rfl

theorem owner?_activeOf (options : Options) (last : Option String) :
    owner? (activeOf options last) = last.filter (takesUses options) := by
  cases last with
  | none => rfl
  | some name => rfl

/-! ### Outlines -/

/-- Whether an act is part of an outline that is about these bookings. -/
def inOutline (keep : Ledger.Booking → Bool) : Act → Bool
  | .book booking => keep booking
  | _ => true

/-- A journal with only those bookings that are of interest. -/
def outline (keep : Ledger.Booking → Bool) (acts : List Act) : List Act :=
  acts.filter (inOutline keep)

section Outline

variable (keep : Ledger.Booking → Bool) (acts more : List Act)

theorem outline_append : outline keep (acts ++ more) = outline keep acts ++ outline keep more :=
  List.filter_append ..

theorem outline_map_book (bookings : List Ledger.Booking) :
    outline keep (bookings.map .book) = (bookings.filter keep).map .book := by
  rw [outline, List.filter_map]
  rfl

theorem outline_cons_congr {acts more : List Act} (act : Act)
    (hrest : outline keep acts = outline keep more) :
    outline keep (act :: acts) = outline keep (act :: more) := by
  rw [← List.singleton_append, ← List.singleton_append (l := more), outline_append, outline_append,
    hrest]

theorem outline_cons_of_drop {act : Act} (hdrop : inOutline keep act = false) :
    outline keep (act :: acts) = outline keep acts :=
  List.filter_cons_of_neg (Bool.eq_false_iff.mp hdrop)

theorem outline_cons_of_keep {act : Act} (hkeep : inOutline keep act = true) :
    outline keep (act :: acts) = act :: outline keep acts :=
  List.filter_cons_of_pos hkeep

/-- An outline enters the same files. -/
theorem entries_outline : entries (outline keep acts) = entries acts := by
  induction acts with
  | nil => rfl
  | cons act rest ih =>
    cases act with
    | book booking =>
      cases hkeep : inOutline keep (.book booking) with
      | true =>
        rw [outline_cons_of_keep keep rest hkeep]
        exact ih
      | false =>
        rw [outline_cons_of_drop keep rest hkeep]
        exact ih
    | enter path depth => exact congrArg ((path, depth) :: ·) ih
    | call | remark => exact ih

theorem booked_outline : booked (outline keep acts) = (booked acts).filter keep := by
  induction acts with
  | nil => rfl
  | cons act rest ih =>
    cases act with
    | book booking =>
      have hbooked (more : List Act) : booked (.book booking :: more) = booking :: booked more :=
        rfl
      cases hkeep : inOutline keep (.book booking) with
      | true =>
        have hpos : keep booking = true := hkeep
        rw [outline_cons_of_keep keep rest hkeep, hbooked, hbooked, List.filter_cons_of_pos hpos,
          ih]
      | false =>
        have hneg : ¬ keep booking = true := Bool.eq_false_iff.mp hkeep
        rw [outline_cons_of_drop keep rest hkeep, hbooked, List.filter_cons_of_neg hneg, ih]
    | call | enter | remark => exact ih

/-- An outline leaves the same diagnostics. -/
theorem actDiagnostics_outline (files : Files) :
    (outline keep acts).flatMap (actDiagnostics files) = acts.flatMap (actDiagnostics files) := by
  induction acts with
  | nil => rfl
  | cons act rest ih =>
    cases hkeep : inOutline keep act with
    | true => rw [outline_cons_of_keep keep rest hkeep, List.flatMap_cons, List.flatMap_cons, ih]
    | false =>
      have hsilent : actDiagnostics files act = [] := by
        cases act with
        | book booking => rfl
        | call | enter | remark => cases hkeep
      rw [outline_cons_of_drop keep rest hkeep, List.flatMap_cons, hsilent, List.nil_append, ih]

end Outline

/-! ### Parallel settings -/

/-- Two settings in which the same files are opened, and in which no event differs in the bookings
that are of interest. -/
structure Parallel (keep : Ledger.Booking → Bool) (files files' : Files)
    (options options' : Options) : Prop where
  events : ∀ path, eventsOf files' path = eventsOf files path
  target : ∀ path source, importTarget? files' path source = importTarget? files path source
  importDepth : options'.importDepth = options.importDepth
  bookings : ∀ path last event,
    (eventBookings options' path (activeOf options' last) event).filter keep =
      (eventBookings options path (activeOf options last) event).filter keep

/-- Two continuations leave the same outlines, whatever was visited before. -/
def Alike (keep : Ledger.Booking → Bool) (first second : Continuation) : Prop :=
  ∀ seen, outline keep (first seen) = outline keep (second seen)

/-- A task with which an analysis can begin: a visit within the limit or a remark. -/
def Task.Initial (options : Options) : Task → Prop
  | .visit _ depth => depth ≤ options.importDepth
  | .scan _ _ _ _ => False
  | .remark _ _ => True

section Journal

variable {keep : Ledger.Booking → Bool} {files files' : Files} {options options' : Options}

/-- The events of a file leave the same outlines. Assumes: following an import does. -/
theorem Parallel.alike_scan (hparallel : Parallel keep files files' options options')
    {follow follow' : Path → Continuation → Continuation}
    (hfollow : ∀ target next next', Alike keep next' next →
      Alike keep (follow' target next') (follow target next))
    (path : Path) (last : Option String) (events : List Source.Event) {next next' : Continuation}
    (hnext : Alike keep next' next) :
    Alike keep (scanActs files' options' follow' path (activeOf options' last) events next')
      (scanActs files options follow path (activeOf options last) events next) := by
  induction events generalizing last with
  | nil => exact hnext
  | cons event events ih =>
    have hlater := ih (lastAfter last event)
    rw [← activeAfter_activeOf, ← activeAfter_activeOf] at hlater
    intro seen
    simp only [scanActs, outline_append, outline_map_book]
    rw [hparallel.bookings]
    congr 1
    cases event with
    | declared name => exact hlater seen
    | rendered name => exact hlater seen
    | imported source names =>
      dsimp only
      rw [hparallel.target]
      cases importTarget? files path source with
      | none => exact hlater seen
      | some target => exact hfollow target _ _ hlater seen

theorem Parallel.isBeyond_eq_false (hparallel : Parallel keep files files' options options')
    (path : Path) {depth : Nat} (hlimit : depth ≤ options.importDepth) :
    isBeyond options path depth = false ∧ isBeyond options' path depth = false := by
  have hlimit' : depth ≤ options'.importDepth := hparallel.importDepth.symm ▸ hlimit
  simp [isBeyond, Nat.not_lt.mpr hlimit, Nat.not_lt.mpr hlimit']

theorem Parallel.alike_visit (hparallel : Parallel keep files files' options options')
    (path : Path) {depth : Nat} (hlimit : depth ≤ options.importDepth) {next next' : Continuation}
    (hnext : Alike keep next' next) :
    Alike keep (visitActs files' options' path depth next')
      (visitActs files options path depth next) := by
  -- the number of imports that may still be followed goes down with each one
  induction hhops : options.importDepth - depth using Nat.strongRecOn
    generalizing path depth next next' with
  | _ hops ih =>
    intro seen
    obtain ⟨hwithin, hwithin'⟩ := hparallel.isBeyond_eq_false path hlimit
    rw [visitActs, visitActs, hwithin, hwithin', hparallel.events]
    refine outline_cons_congr keep (.call path depth) ?_
    by_cases hseen : Ledger.listed seen path = true
    · rw [if_pos hseen, if_pos hseen]
      exact hnext seen
    · rw [if_neg hseen, if_neg hseen, if_neg Bool.false_ne_true, if_neg Bool.false_ne_true]
      refine outline_cons_congr keep (.enter path depth) ?_
      refine hparallel.alike_scan ?_ path none (eventsOf files path) hnext (seen ++ [path])
      intro target later later' hlater seen
      rw [hparallel.importDepth]
      dsimp only
      by_cases hfurther : depth < options.importDepth
      · rw [if_pos hfurther, if_pos hfurther]
        exact ih _ (by omega) target hfurther hlater rfl seen
      · rw [if_neg hfurther, if_neg hfurther]
        exact hlater seen

/-- Parallel settings leave the same outlines. -/
theorem Parallel.outline_journal (hparallel : Parallel keep files files' options options')
    {agenda : List Task} (hinitial : ∀ task ∈ agenda, task.Initial options) :
    Alike keep (journal files' options' agenda) (journal files options agenda) := by
  induction agenda with
  | nil => exact fun seen ↦ rfl
  | cons task rest ih =>
    obtain ⟨hhere, hlater⟩ := List.forall_mem_cons.mp hinitial
    cases task with
    | visit path depth => exact hparallel.alike_visit path hhere (ih hlater)
    | scan path depth active events => exact hhere.elim
    | remark path message =>
      exact fun seen ↦ outline_cons_congr keep (.remark path message) (ih hlater seen)

theorem Parallel.entered_journal (hparallel : Parallel keep files files' options options')
    {agenda : List Task} (hinitial : ∀ task ∈ agenda, task.Initial options) :
    entered (journal files' options' agenda []) = entered (journal files options agenda []) := by
  rw [entered, ← entries_outline keep, hparallel.outline_journal hinitial, entries_outline, entered]

/-- Parallel settings write the bookings that are of interest in the same order. -/
theorem Parallel.booked_journal (hparallel : Parallel keep files files' options options')
    {agenda : List Task} (hinitial : ∀ task ∈ agenda, task.Initial options) :
    (booked (journal files' options' agenda [])).filter keep =
      (booked (journal files options agenda [])).filter keep := by
  rw [← booked_outline, hparallel.outline_journal hinitial, booked_outline]

end Journal

/-! ### Ledgers -/

section Ledgers

variable {keep : Ledger.Booking → Bool} {files : Files} {options options' : Options}

/-- An analysis that begins with an empty ledger is its journal replayed. -/
theorem runAgenda_eq_replay (files : Files) (options : Options) (agenda : List Task) :
    runAgenda files options agenda {} = replay files (journal files options agenda []) {} :=
  (run_journal agenda []).run_eq_replay covers_empty

theorem flatMap_pending_of_initial {agenda : List Task}
    (hinitial : ∀ task ∈ agenda, task.Initial options) :
    agenda.flatMap (pending options) = [] := by
  refine List.flatMap_eq_nil_iff.mpr fun task htask ↦ ?_
  have hhere := hinitial task htask
  cases task with
  | visit path depth => rfl
  | scan path depth active events => exact hhere.elim
  | remark path message => rfl

/-- A ledger is balanced after every agenda with which an analysis can begin. -/
theorem balanced_of_initial {agenda : List Task}
    (hinitial : ∀ task ∈ agenda, task.Initial options) :
    Balanced files options (runAgenda files options agenda {}) :=
  balanced_runAgenda (flatMap_pending_of_initial hinitial)

theorem initial_surveyAgenda (tree : FileTree) (options : Options) (root : Path) :
    ∀ task ∈ surveyAgenda tree options root, task.Initial options := by
  intro task htask
  rcases task_of_mem_surveyAgenda htask with ⟨path, _, rfl⟩ | ⟨path, message, rfl⟩
  · exact Nat.zero_le _
  · trivial

theorem recordOf_runAgenda (files : Files) (options : Options) (agenda : List Task)
    (name : String) :
    (runAgenda files options agenda {}).recordOf name =
      (Ledger.bookAll {} (booked (journal files options agenda []))).recordOf name := by
  rw [runAgenda_eq_replay]
  exact congrFun (Ledger.recordOf_congr (records_replay _ _)) name

theorem kind_runAgenda (files : Files) (options : Options) (agenda : List Task) (name : String) :
    ((runAgenda files options agenda {}).recordOf name).kind = Name.kind name := by
  rw [recordOf_runAgenda, Ledger.recordOf_bookAll]
  rfl

/-- A name that is known is known wherever the same files use it as often or more. -/
theorem Balanced.known_of_usesIn_le {first second : Ledger}
    (hfirst : Balanced files options first) (hsecond : Balanced files options' second)
    (hparsed : first.parsed = second.parsed) {name : String}
    (huses : ∀ path, usesIn files options path name ≤ usesIn files options' path name)
    (hknown : (first.record? name).isSome = true) : (second.record? name).isSome = true := by
  obtain ⟨path, hpath, hmet⟩ := (hfirst.known name).mp hknown
  refine (hsecond.known name).mpr ⟨path, hparsed ▸ hpath, ?_⟩
  exact hmet.imp_right fun hused ↦ Nat.lt_of_lt_of_le hused (huses path)

/-- Two ledgers with the same files in them, judged in the same way. -/
structure SameFiles (first second : Ledger) : Prop where
  parsed : first.parsed = second.parsed
  skipped : first.skipped = second.skipped
  diagnostics : first.diagnostics = second.diagnostics

/-- Parallel settings for the same files open and judge the same ones. -/
theorem Parallel.sameFiles (hparallel : Parallel keep files files options options')
    {agenda : List Task} (hinitial : ∀ task ∈ agenda, task.Initial options) :
    SameFiles (runAgenda files options' agenda {}) (runAgenda files options agenda {}) := by
  have hrun : Run files options [] agenda _ := run_journal agenda []
  have hrun' : Run files options' [] agenda _ := run_journal agenda []
  obtain ⟨hparsed, hskipped⟩ := hrun.marks_replay covers_empty
  obtain ⟨hparsed', hskipped'⟩ := hrun'.marks_replay covers_empty
  rw [runAgenda_eq_replay, runAgenda_eq_replay]
  refine ⟨?_, ?_, ?_⟩
  · rw [hparsed, hparsed', hparallel.entered_journal hinitial]
  · rw [hskipped, hskipped', hparallel.entered_journal hinitial]
  · rw [diagnostics_replay, diagnostics_replay, ← actDiagnostics_outline keep,
      hparallel.outline_journal hinitial, actDiagnostics_outline]

/-- What is picked from the bookings that are of interest is the same in parallel settings. -/
theorem Parallel.filterMap_booked (hparallel : Parallel keep files files options options')
    {agenda : List Task} (hinitial : ∀ task ∈ agenda, task.Initial options) {α : Type}
    {pick : Ledger.Booking → Option α}
    (hpick : ∀ booking, keep booking = false → pick booking = none) :
    (booked (journal files options' agenda [])).filterMap pick =
      (booked (journal files options agenda [])).filterMap pick := by
  have hfilter (bookings : List Ledger.Booking) :
      (bookings.filter keep).filterMap pick = bookings.filterMap pick := by
    rw [List.filterMap_filter]
    congr 1
    funext booking
    cases hkeep : keep booking with
    | true => rw [if_pos rfl]
    | false => rw [if_neg Bool.false_ne_true, hpick booking hkeep]
  rw [← hfilter, hparallel.booked_journal hinitial, hfilter]

/-- Where declarations are of interest, every name gets the same source. -/
theorem Parallel.source_runAgenda (hparallel : Parallel keep files files options options')
    {agenda : List Task} (hinitial : ∀ task ∈ agenda, task.Initial options)
    (hdeclare : ∀ name file, keep (.declare name file) = true) (name : String) :
    ((runAgenda files options' agenda {}).recordOf name).source =
      ((runAgenda files options agenda {}).recordOf name).source := by
  have hpick (booking : Ledger.Booking) (hdrop : keep booking = false) :
      booking.declarer? name = none := by
    cases booking with
    | declare declared file => exact absurd (hdeclare declared file) (Bool.eq_false_iff.mp hdrop)
    | use | depend => rfl
  rw [recordOf_runAgenda, recordOf_runAgenda, Ledger.source_bookAll, Ledger.source_bookAll,
    ← List.head?_filterMap, hparallel.filterMap_booked hinitial hpick, List.head?_filterMap]

end Ledgers

end ComponentGraph.Journal
