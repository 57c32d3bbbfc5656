import ComponentGraph.Proofs.Replay
import Mathlib.Algebra.BigOperators.Group.List.Basic
import Mathlib.Algebra.Ring.Nat
import Mathlib.Data.List.Perm.Basic

/-!
Exact accounting. However the analyses of files interrupt each other, the records in the end hold
what every parsed file contributes by itself, once, and nothing else.

The contribution of a file is read off its own events, with no look at any other file and with no
declaration at first. While a run is under way the records are not the sum of contributions, because
some files are half entered. What stays in balance is that the bookings of a journal are, up to
order, what the agenda still had to scan together with the contributions of the files that the
journal enters (`Run.booked_perm`). At the end the agenda is empty. Uses and dependencies do not see
the order of bookings, so they can be read off parsed files one by one.

`exact_accounting` states this for every sequence of requests, each for one file at any depth or for
a whole project.
-/

set_option autoImplicit false
set_option relaxedAutoImplicit false

namespace ComponentGraph.Journal

open Analysis

variable {files : Files} {options : Options}

/-! ### Contributions -/

theorem eventsOf_of_not_source {path : Path} (hsource : isSource files path = false) :
    eventsOf files path = [] := by
  unfold isSource at hsource
  unfold eventsOf
  split
  · simp_all
  · rfl

theorem contribution_of_not_source {path : Path} (hsource : isSource files path = false) :
    contribution files options path = [] := by
  rw [contribution, eventsOf_of_not_source hsource, scanBookings]

theorem flatMap_contribution_filter (paths : List Path) :
    (paths.filter (isSource files)).flatMap (contribution files options) =
      paths.flatMap (contribution files options) := by
  induction paths with
  | nil => rfl
  | cons path rest ih =>
    by_cases hsource : isSource files path = true
    · rw [List.filter_cons_of_pos hsource, List.flatMap_cons, List.flatMap_cons, ih]
    · rw [List.filter_cons_of_neg hsource, List.flatMap_cons, ih,
        contribution_of_not_source (Bool.eq_false_iff.mpr hsource), List.nil_append]

theorem declare_not_mem_creditBookings (owner : Option String) (used name : String)
    (file : Path) : Ledger.Booking.declare name file ∉ creditBookings owner used := by
  cases owner <;> simp [creditBookings]

theorem declare_mem_eventBookings (path file : Path) (name : String) (active : Option Active)
    (event : Source.Event) :
    Ledger.Booking.declare name file ∈ eventBookings options path active event ↔
      file = path ∧ event = .declared name := by
  cases event with
  | declared declared =>
    simp only [eventBookings, List.mem_singleton, Ledger.Booking.declare.injEq,
      Source.Event.declared.injEq, eq_comm, and_comm]
  | rendered used =>
    cases howner : owner? active <;>
      simp [eventBookings, howner, declare_not_mem_creditBookings]
  | imported source names =>
    by_cases hcounts : countsImport options source = true <;>
      simp [eventBookings, hcounts, declare_not_mem_creditBookings]

/-- A file declares exactly the names that its events declare, and declares them by itself. -/
theorem declare_mem_scanBookings (path file : Path) (name : String) (active : Option Active)
    (events : List Source.Event) :
    Ledger.Booking.declare name file ∈ scanBookings options path active events ↔
      file = path ∧ Source.Event.declared name ∈ events := by
  induction events generalizing active with
  | nil => simp [scanBookings]
  | cons event events ih =>
    rw [scanBookings, List.mem_append, ih, declare_mem_eventBookings, ← and_or_left,
      List.mem_cons, eq_comm (a := event)]

/-- Where an event makes a declaration depend on a name, that declaration is the active one, and
the name is used. -/
theorem depend_mem_eventBookings {path : Path} {active : Option Active} {event : Source.Event}
    {owner name : String}
    (hdepend : .depend owner name ∈ eventBookings options path active event) :
    owner? active = some owner ∧ .use name ∈ eventBookings options path active event := by
  have hcredit (used : String) (hmem : .depend owner name ∈ creditBookings (owner? active) used) :
      owner? active = some owner ∧ .use name ∈ creditBookings (owner? active) used := by
    cases howner : owner? active with
    | none => simp [creditBookings, howner] at hmem
    | some declaration =>
      simp only [creditBookings, howner, List.mem_cons, Ledger.Booking.depend.injEq, reduceCtorEq,
        List.not_mem_nil, or_false] at hmem
      simp [creditBookings, hmem.1, hmem.2]
  cases event with
  | declared declared => simp [eventBookings] at hdepend
  | rendered used =>
    cases howner : owner? active with
    | none => simp [eventBookings, howner] at hdepend
    | some declaration =>
      rw [howner] at hcredit
      simp only [eventBookings, howner] at hdepend ⊢
      exact hcredit used hdepend
  | imported source names =>
    by_cases hcounts : countsImport options source = true
    · simp only [eventBookings, hcounts, if_true, List.mem_flatMap] at hdepend ⊢
      obtain ⟨used, hused, hmem⟩ := hdepend
      exact ⟨(hcredit used hmem).1, used, hused, (hcredit used hmem).2⟩
    · simp [eventBookings, hcounts] at hdepend

theorem owner?_activeAfter {active : Option Active} {event : Source.Event} {owner : String}
    (howner : owner? (activeAfter options active event) = some owner) :
    owner? active = some owner ∨ event = .declared owner := by
  cases event with
  | declared name =>
    refine Or.inr ?_
    simp only [activeAfter, owner?] at howner
    split at howner
    · rw [Option.some.inj howner]
    · cases howner
  | rendered name => exact Or.inl howner
  | imported source names => exact Or.inl howner

/-- A dependency that a file contributes comes from a declaration of that file, or from the one that
was active at the start, and goes to a name that the file uses. -/
theorem depend_mem_scanBookings {path : Path} {active : Option Active}
    {events : List Source.Event} {owner name : String}
    (hdepend : .depend owner name ∈ scanBookings options path active events) :
    (owner? active = some owner ∨ .declared owner ∈ events) ∧
      .use name ∈ scanBookings options path active events := by
  induction events generalizing active with
  | nil => simp [scanBookings] at hdepend
  | cons event events ih =>
    rw [scanBookings, List.mem_append] at hdepend
    rw [scanBookings, List.mem_append]
    rcases hdepend with hhere | hlater
    · obtain ⟨howner, huse⟩ := depend_mem_eventBookings hhere
      exact ⟨Or.inl howner, Or.inl huse⟩
    · obtain ⟨howner, huse⟩ := ih hlater
      refine ⟨?_, Or.inr huse⟩
      rcases howner with hactive | hdeclared
      · rcases owner?_activeAfter hactive with hbefore | rfl
        · exact Or.inl hbefore
        · exact Or.inr List.mem_cons_self
      · exact Or.inr (List.mem_cons_of_mem _ hdeclared)

/-- A use is counted once, whoever it is credited to. -/
theorem count_use_creditBookings (owner : Option String) (used name : String) :
    (creditBookings owner used).count (.use name) = if used = name then 1 else 0 := by
  by_cases hused : used = name
  · cases owner <;> simp [creditBookings, hused]
  · cases owner <;> simp [creditBookings, hused]

theorem count_use_flatMap_creditBookings (owner : Option String) (names : List String)
    (name : String) :
    (names.flatMap (creditBookings owner)).count (.use name) = names.count name := by
  induction names with
  | nil => rfl
  | cons used rest ih =>
    rw [List.flatMap_cons, List.count_append, count_use_creditBookings, ih, List.count_cons,
      Nat.add_comm]
    simp only [beq_iff_eq]

/-- A file mentions exactly the names that it declares or uses. -/
theorem exists_names_contribution (path : Path) (name : String) :
    (∃ booking ∈ contribution files options path, name ∈ booking.names) ↔
      .declared name ∈ eventsOf files path ∨ .use name ∈ contribution files options path := by
  constructor
  · rintro ⟨booking, hbooking, hname⟩
    cases booking with
    | declare declared file =>
      rw [Ledger.Booking.names, List.mem_singleton] at hname
      subst hname
      exact Or.inl ((declare_mem_scanBookings _ _ _ _ _).mp hbooking).2
    | use used =>
      rw [Ledger.Booking.names, List.mem_singleton] at hname
      subst hname
      exact Or.inr hbooking
    | depend owner dependency =>
      obtain ⟨howner, huse⟩ := depend_mem_scanBookings hbooking
      simp only [Ledger.Booking.names, List.mem_cons, List.not_mem_nil, or_false] at hname
      rcases hname with rfl | rfl
      · exact Or.inr huse
      · rcases howner with hactive | hdeclared
        · cases hactive
        · exact Or.inl hdeclared
  · rintro (hdeclared | huse)
    · exact ⟨.declare name path, (declare_mem_scanBookings _ _ _ _ _).mpr ⟨rfl, hdeclared⟩,
        List.mem_singleton_self name⟩
    · exact ⟨.use name, huse, List.mem_singleton_self name⟩

/-! ### The balance of a run -/

/-- What a task still has to write by scanning. -/
def pending (options : Options) : Task → List Ledger.Booking
  | .scan path _ active events => scanBookings options path active events
  | _ => []

theorem flatMap_pending_onward (path : Path) (depth : Nat) (event : Source.Event) :
    (onward files options path depth event).flatMap (pending options) = [] := by
  refine List.flatMap_eq_nil_iff.mpr fun task htask ↦ ?_
  obtain ⟨target, rfl⟩ := exists_visit_of_mem_onward htask
  rfl

/-- The bookings of a journal are, up to order, what the agenda still had to scan and the
contributions of the files that are entered. -/
theorem Run.booked_perm {seen : List Path} {agenda : List Task} {acts : List Act}
    (hrun : Run files options seen agenda acts) :
    (booked acts).Perm (agenda.flatMap (pending options) ++
      (entered acts).flatMap (contribution files options)) := by
  induction hrun with
  | done => exact .nil
  | again _ _ ih => exact ih
  | beyond _ _ _ ih => exact ih
  | @first seen path depth rest acts _ _ _ ih =>
    -- the scan of the file is no longer ahead but part of what was entered
    have hmoved : ((scanBookings options path none (eventsOf files path) ++
          rest.flatMap (pending options)) ++
        (entered acts).flatMap (contribution files options)).Perm
        (rest.flatMap (pending options) ++ (contribution files options path ++
          (entered acts).flatMap (contribution files options))) := by
      rw [List.append_assoc]
      exact List.perm_append_comm_assoc _ _ _
    exact ih.trans hmoved
  | @event seen path depth active event events rest acts _ ih =>
    rw [List.flatMap_append, flatMap_pending_onward, List.nil_append, List.flatMap_cons] at ih
    rw [booked_append, booked_map_book, List.flatMap_cons, pending, scanBookings,
      List.append_assoc, List.append_assoc]
    have hentered : entered ((eventBookings options path active event).map .book ++ acts) =
        entered acts := by simp [entered]
    rw [hentered]
    rw [pending, List.append_assoc] at ih
    exact ih.append_left _
  | closed _ ih => exact ih
  | remark _ ih => exact ih

/-! ### Balanced ledgers -/

/-- How often a file uses a name. -/
def usesIn (files : Files) (options : Options) (path : Path) (name : String) : Nat :=
  (contribution files options path).count (.use name)

/-- The records hold what the parsed files contribute, each file once. -/
structure Balanced (files : Files) (options : Options) (ledger : Ledger) : Prop where
  /-- No file was parsed twice, so that a sum over the parsed files is one over files. -/
  distinct : (ledger.parsed.map Path.key).Nodup
  uses : ∀ name, (ledger.recordOf name).uses =
    (ledger.parsed.map fun path ↦ usesIn files options path name).sum
  dependencies : ∀ owner name, name ∈ (ledger.recordOf owner).dependencies ↔
    ∃ path ∈ ledger.parsed, .depend owner name ∈ contribution files options path
  known : ∀ name, (ledger.record? name).isSome = true ↔
    ∃ path ∈ ledger.parsed,
      .declared name ∈ eventsOf files path ∨ 0 < usesIn files options path name
  declared : ∀ name, (ledger.recordOf name).source.isSome = true ↔
    ∃ path ∈ ledger.parsed, .declared name ∈ eventsOf files path
  source : ∀ name path, (ledger.recordOf name).source = some path →
    path ∈ ledger.parsed ∧ .declared name ∈ eventsOf files path

theorem declarer?_eq_some_iff (booking : Ledger.Booking) (name : String) (file : Path) :
    booking.declarer? name = some file ↔ booking = .declare name file := by
  cases booking <;> simp [Ledger.Booking.declarer?]

section OfPerm

variable {ledger : Ledger} {bookings : List Ledger.Booking}

theorem mem_bookings_iff
    (hperm : bookings.Perm (ledger.parsed.flatMap (contribution files options)))
    (booking : Ledger.Booking) :
    booking ∈ bookings ↔
      ∃ path ∈ ledger.parsed, booking ∈ contribution files options path := by
  rw [hperm.mem_iff, List.mem_flatMap]

theorem declare_mem_bookings_iff
    (hperm : bookings.Perm (ledger.parsed.flatMap (contribution files options)))
    (name : String) (file : Path) :
    .declare name file ∈ bookings ↔
      file ∈ ledger.parsed ∧ .declared name ∈ eventsOf files file := by
  rw [mem_bookings_iff hperm]
  simp only [contribution, declare_mem_scanBookings]
  constructor
  · rintro ⟨_, hpath, rfl, hevent⟩
    exact ⟨hpath, hevent⟩
  · rintro ⟨hfile, hevent⟩
    exact ⟨file, hfile, rfl, hevent⟩

theorem exists_names_bookings_iff
    (hperm : bookings.Perm (ledger.parsed.flatMap (contribution files options)))
    (name : String) :
    (∃ booking ∈ bookings, name ∈ booking.names) ↔
      ∃ path ∈ ledger.parsed,
        .declared name ∈ eventsOf files path ∨ 0 < usesIn files options path name := by
  constructor
  · rintro ⟨booking, hbooking, hname⟩
    obtain ⟨path, hpath, hcontributed⟩ := (mem_bookings_iff hperm booking).mp hbooking
    have hmentioned := (exists_names_contribution path name).mp ⟨booking, hcontributed, hname⟩
    exact ⟨path, hpath, hmentioned.imp_right List.count_pos_iff.mpr⟩
  · rintro ⟨path, hpath, hmentioned⟩
    obtain ⟨booking, hcontributed, hname⟩ := (exists_names_contribution path name).mpr
      (hmentioned.imp_right List.count_pos_iff.mp)
    exact ⟨booking, (mem_bookings_iff hperm booking).mpr ⟨path, hpath, hcontributed⟩, hname⟩

/-- A ledger is balanced if its records are made of bookings that are, up to order, the
contributions of its parsed files. -/
theorem balanced_of_perm (hdistinct : (ledger.parsed.map Path.key).Nodup)
    (hrecords : ledger.records = (Ledger.bookAll {} bookings).records)
    (hperm : bookings.Perm (ledger.parsed.flatMap (contribution files options))) :
    Balanced files options ledger := by
  have hknown (name : String) :
      ledger.record? name = (Ledger.bookAll {} bookings).record? name :=
    congrArg (List.lookup name) hrecords
  have hrecord (name : String) :
      ledger.recordOf name = (Ledger.bookAll {} bookings).recordOf name := by
    rw [Ledger.recordOf, hknown, Ledger.recordOf]
  have hsource (name : String) : (ledger.recordOf name).source =
      bookings.findSome? (Ledger.Booking.declarer? name) := by
    rw [hrecord, Ledger.source_bookAll]
    rfl
  refine ⟨hdistinct, ?_, ?_, ?_, ?_, ?_⟩
  · intro name
    rw [hrecord, Ledger.uses_bookAll, hperm.count_eq, List.count_flatMap]
    exact Nat.zero_add _
  · intro owner name
    rw [hrecord, Ledger.mem_dependencies_bookAll, mem_bookings_iff hperm]
    exact or_iff_right List.not_mem_nil
  · intro name
    rw [hknown, Ledger.isSome_record?_bookAll, exists_names_bookings_iff hperm]
    exact or_iff_right Bool.false_ne_true
  · intro name
    rw [hsource, List.findSome?_isSome_iff]
    constructor
    · rintro ⟨booking, hbooking, hdeclarer⟩
      obtain ⟨file, hfile⟩ := Option.isSome_iff_exists.mp hdeclarer
      rw [(declarer?_eq_some_iff booking name file).mp hfile] at hbooking
      exact ⟨file, (declare_mem_bookings_iff hperm name file).mp hbooking⟩
    · rintro ⟨file, hfile⟩
      refine ⟨_, (declare_mem_bookings_iff hperm name file).mpr hfile, ?_⟩
      rw [(declarer?_eq_some_iff _ name file).mpr rfl]
      rfl
  · intro name file hfile
    rw [hsource] at hfile
    obtain ⟨booking, hbooking, hdeclarer⟩ := List.exists_of_findSome?_eq_some hfile
    rw [(declarer?_eq_some_iff booking name file).mp hdeclarer] at hbooking
    exact (declare_mem_bookings_iff hperm name file).mp hbooking

end OfPerm

/-- An empty ledger is balanced after every agenda that has no file half entered. -/
theorem balanced_runAgenda {agenda : List Task} (hidle : agenda.flatMap (pending options) = []) :
    Balanced files options (runAgenda files options agenda {}) := by
  have hrun : Run files options [] agenda (journal files options agenda []) :=
    run_journal agenda []
  generalize journal files options agenda [] = acts at hrun
  have hparsed : (replay files acts {}).parsed = (entered acts).filter (isSource files) :=
    (hrun.marks_replay covers_empty).1
  have hdistinct : ((entered acts).map Path.key).Nodup := hrun.nodup_keys .nil
  rw [hrun.run_eq_replay covers_empty]
  refine balanced_of_perm ?_ (records_replay acts {}) ?_
  · rw [hparsed]
    exact hdistinct.sublist (List.filter_sublist.map Path.key)
  · rw [hparsed, flatMap_contribution_filter]
    simpa only [hidle, List.nil_append] using hrun.booked_perm

/-! ### Requests -/

/-- A request for an analysis: of one file at a depth, or of the project below a root. -/
inductive Request where
  | file (path : Path) (depth : Nat)
  | project (root : Path)

/-- The agenda of a request. -/
def requestAgenda (tree : FileTree) (options : Options) : Request → List Task
  | .file path depth => [.visit path depth]
  | .project root => surveyAgenda tree options root

/-- Serves a request. -/
def serve (parse : Source.Parser) (tree : FileTree) (options : Options) (ledger : Ledger) :
    Request → Ledger
  | .file path depth => analyze (.ofTree parse tree) options path depth ledger
  | .project root => Survey.run parse tree options root ledger

theorem foldl_serve_eq (parse : Source.Parser) (tree : FileTree) (options : Options)
    (requests : List Request) (ledger : Ledger) :
    requests.foldl (serve parse tree options) ledger =
      runAgenda (.ofTree parse tree) options (requests.flatMap (requestAgenda tree options))
        ledger := by
  induction requests generalizing ledger with
  | nil => rfl
  | cons request rest ih =>
    rw [List.foldl_cons, ih, List.flatMap_cons, runAgenda_append]
    congr 1
    cases request with
    | file path depth => rfl
    | project root => exact survey_run_eq parse tree options root ledger

/-- After any sequence of requests, for files at any depth and for projects, the records hold what
the parsed files contribute, each file once and by itself. -/
theorem exact_accounting (parse : Source.Parser) (tree : FileTree) (options : Options)
    (requests : List Request) :
    Balanced (.ofTree parse tree) options (requests.foldl (serve parse tree options) {}) := by
  rw [foldl_serve_eq]
  refine balanced_runAgenda (List.flatMap_eq_nil_iff.mpr fun task htask ↦ ?_)
  obtain ⟨request, _, hrequest⟩ := List.mem_flatMap.mp htask
  cases request with
  | file path depth =>
    rw [List.mem_singleton.mp hrequest]
    rfl
  | project root =>
    rcases task_of_mem_surveyAgenda hrequest with ⟨path, _, rfl⟩ | ⟨path, message, rfl⟩ <;> rfl

end ComponentGraph.Journal
