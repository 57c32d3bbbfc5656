import ComponentGraph.Proofs.OneKey
import ComponentGraph.Proofs.Ranking

/-!
Two analyses of one project that stands in two places.

A relocation moves the paths inside a project. It does not have to know what an analysis does with
them: it is enough that two paths have one key before if and only if they have one key afterwards,
that a file is judged in the same way in both places, and that its imports lead to files that were
moved along (`Relocation`). A run of the machine is then moved as a whole, task by task and act by
act (`Relocation.run_move`).

Everything in the ledger afterwards is what it was, with the paths moved (`Moved`), and so are the
nodes (`Moved.nodes`). A file that cannot be read may be unreadable for another reason in the other
place, so of a diagnostic only the step and the file are compared.
-/

set_option autoImplicit false
set_option relaxedAutoImplicit false

namespace ComponentGraph

/-! ### Moving what holds paths -/

namespace Ledger

/-- A booking with its path moved. -/
def Booking.move (move : Path → Path) : Booking → Booking
  | .declare name file => .declare name (move file)
  | .use name => .use name
  | .depend owner name => .depend owner name

/-- A record with its source moved. -/
def Record.move (move : Path → Path) (record : Record) : Record :=
  { record with source := record.source.map move }

/-- Records with their sources moved. -/
def moveRecords (move : Path → Path) (records : List (String × Record)) : List (String × Record) :=
  records.map fun entry ↦ (entry.1, entry.2.move move)

variable {move : Path → Path}

theorem changeRecord_moveRecords {name : String} {change change' : Record → Record}
    (hchange : ∀ record, change' (record.move move) = (change record).move move)
    (records : List (String × Record)) :
    changeRecord name change' (moveRecords move records) =
      moveRecords move (changeRecord name change records) := by
  induction records with
  | nil =>
    have hfresh : Record.fresh name = (Record.fresh name).move move := rfl
    rw [changeRecord, moveRecords, List.map_nil, changeRecord, hfresh, hchange]
    rfl
  | cons entry rest ih =>
    obtain ⟨other, record⟩ := entry
    have hcons (more : List (String × Record)) :
        moveRecords move ((other, record) :: more) =
          (other, record.move move) :: moveRecords move more := rfl
    rw [hcons, changeRecord, changeRecord, ih]
    by_cases hother : other = name
    · rw [if_pos hother, if_pos hother, hchange]
      rfl
    · rw [if_neg hother, if_neg hother, hcons]

/-- A moved booking does to moved records what the booking does to the records. -/
theorem records_book_move {ledger ledger' : Ledger}
    (hrecords : ledger'.records = moveRecords move ledger.records) (booking : Booking) :
    (ledger'.book (booking.move move)).records =
      moveRecords move (ledger.book booking).records := by
  cases booking with
  | declare name file =>
    simp only [Booking.move, book, declare, update, hrecords]
    refine changeRecord_moveRecords (fun record ↦ ?_) _
    cases hsource : record.source <;> simp [Record.move, hsource]
  | use name =>
    simp only [Booking.move, book, recordUse, update, hrecords]
    refine changeRecord_moveRecords ?_ _
    exact fun record ↦ rfl
  | depend owner name =>
    simp only [Booking.move, book, addDependency, update, hrecords]
    have hknown : changeRecord name id (moveRecords move ledger.records) =
        moveRecords move (changeRecord name id ledger.records) := by
      refine changeRecord_moveRecords ?_ _
      exact fun record ↦ rfl
    rw [hknown]
    refine changeRecord_moveRecords ?_ _
    exact fun record ↦ rfl

theorem records_bookAll_move {ledger ledger' : Ledger}
    (hrecords : ledger'.records = moveRecords move ledger.records) (bookings : List Booking) :
    (ledger'.bookAll (bookings.map (Booking.move move))).records =
      moveRecords move (ledger.bookAll bookings).records := by
  induction bookings generalizing ledger ledger' with
  | nil => exact hrecords
  | cons booking rest ih => exact ih (records_book_move hrecords booking)

end Ledger

namespace Journal

open Analysis

/-- An act with its path moved. -/
def Act.move (move : Path → Path) : Act → Act
  | .call path depth => .call (move path) depth
  | .enter path depth => .enter (move path) depth
  | .book booking => .book (booking.move move)
  | .remark path message => .remark (move path) message

/-- A task with its path moved. -/
def Task.move (move : Path → Path) : Task → Task
  | .visit path depth => .visit (move path) depth
  | .scan path depth active events => .scan (move path) depth active events
  | .remark path message => .remark (move path) message

theorem entered_map_move (move : Path → Path) (acts : List Act) :
    entered (acts.map (Act.move move)) = (entered acts).map move := by
  induction acts with
  | nil => rfl
  | cons act rest ih =>
    cases act with
    | enter path depth => exact congrArg (move path :: ·) ih
    | call | book | remark => exact ih

theorem booked_map_move (move : Path → Path) (acts : List Act) :
    booked (acts.map (Act.move move)) = (booked acts).map (Ledger.Booking.move move) := by
  induction acts with
  | nil => rfl
  | cons act rest ih =>
    cases act with
    | book booking => exact congrArg (booking.move move :: ·) ih
    | call | enter | remark => exact ih

/-! ### Relocations -/

/-- Two examinations with the same verdict. The faults of unreadable files may differ. -/
def SameVerdict (first second : Examination) : Prop :=
  first = second ∨
    ∃ fault fault', first = .unreadable fault ∧ second = .unreadable fault'

/-- A project whose inside is moved. -/
structure Relocation (files files' : Files) (inside : Path → Prop) (move : Path → Path) :
    Prop where
  keys : ∀ first second, inside first → inside second →
    ((move first).key = (move second).key ↔ first.key = second.key)
  passedOver : ∀ path, inside path → isPassedOver (move path) = isPassedOver path
  examined : ∀ path, inside path →
    SameVerdict (examine files path) (examine files' (move path))
  target : ∀ path source names, inside path → .imported source names ∈ eventsOf files path →
    importTarget? files' (move path) source = (importTarget? files path source).map move
  stays : ∀ path target, inside path → Imports files path target → inside target

/-- A task that is inside the project. -/
def Task.Inside (files : Files) (inside : Path → Prop) : Task → Prop
  | .visit path _ => inside path
  | .scan path _ _ events => inside path ∧ ∀ event ∈ events, event ∈ eventsOf files path
  | .remark path _ => inside path

/-- An act that is inside the project. -/
def Act.Inside (inside : Path → Prop) : Act → Prop
  | .call path _ => inside path
  | .enter path _ => inside path
  | .book (.declare _ file) => inside file
  | .book _ => True
  | .remark path _ => inside path

section Runs

variable {files files' : Files} {options : Options} {inside : Path → Prop} {move : Path → Path}

theorem eventBookings_move (path : Path) (active : Option Active) (event : Source.Event) :
    eventBookings options (move path) active event =
      (eventBookings options path active event).map (Ledger.Booking.move move) := by
  have hcredit (owner : Option String) (name : String) :
      (creditBookings owner name).map (Ledger.Booking.move move) = creditBookings owner name := by
    cases owner <;> rfl
  cases event with
  | declared name => rfl
  | rendered name =>
    cases howner : owner? active with
    | none => simp [eventBookings, howner]
    | some owner => simp only [eventBookings, howner, hcredit]
  | imported source names =>
    rw [eventBookings, eventBookings]
    split
    · rw [List.map_flatMap]
      exact List.flatMap_congr fun name _ ↦ (hcredit _ name).symm
    · rfl

variable (hrelocation : Relocation files files' inside move)

include hrelocation

theorem Relocation.eventsOf_move {path : Path} (hpath : inside path) :
    eventsOf files' (move path) = eventsOf files path := by
  rw [eventsOf, eventsOf]
  rcases hrelocation.examined path hpath with hsame | ⟨fault, fault', hfirst, hsecond⟩
  · rw [hsame]
  · rw [hfirst, hsecond]

theorem Relocation.isSource_move {path : Path} (hpath : inside path) :
    isSource files' (move path) = isSource files path := by
  rw [isSource, isSource]
  rcases hrelocation.examined path hpath with hsame | ⟨fault, fault', hfirst, hsecond⟩
  · rw [hsame]
  · rw [hfirst, hsecond]

theorem Relocation.listed_move {seen : List Path} (hseen : ∀ path ∈ seen, inside path)
    {path : Path} (hpath : inside path) :
    Ledger.listed (seen.map move) (move path) = Ledger.listed seen path := by
  rw [Bool.eq_iff_iff, Ledger.listed_iff, Ledger.listed_iff]
  constructor
  · rintro ⟨moved, hmoved, hkey⟩
    obtain ⟨other, hother, rfl⟩ := List.mem_map.mp hmoved
    exact ⟨other, hother, (hrelocation.keys other path (hseen other hother) hpath).mp hkey⟩
  · rintro ⟨other, hother, hkey⟩
    exact ⟨move other, List.mem_map_of_mem hother,
      (hrelocation.keys other path (hseen other hother) hpath).mpr hkey⟩

theorem Relocation.isBeyond_move {path : Path} (hpath : inside path) (depth : Nat) :
    isBeyond options (move path) depth = isBeyond options path depth := by
  rw [isBeyond, isBeyond, hrelocation.passedOver path hpath]

theorem Relocation.onward_move {path : Path} (hpath : inside path) (depth : Nat)
    {event : Source.Event} (hevent : event ∈ eventsOf files path) :
    onward files' options (move path) depth event =
      (onward files options path depth event).map (Task.move move) := by
  cases event with
  | declared name => rfl
  | rendered name => rfl
  | imported source names =>
    rw [onward, onward, hrelocation.target path source names hpath hevent]
    split
    · cases importTarget? files path source <;> rfl
    · rfl

theorem Relocation.inside_onward {path : Path} (hpath : inside path) {depth : Nat}
    {event : Source.Event} (hevent : event ∈ eventsOf files path) :
    ∀ task ∈ onward files options path depth event, task.Inside files inside := by
  intro task htask
  obtain ⟨target, rfl⟩ := exists_visit_of_mem_onward htask
  exact hrelocation.stays path target hpath (imports_of_visit_mem_onward hevent htask).1

omit hrelocation in
theorem inside_eventBookings {path : Path} (hpath : inside path) (active : Option Active)
    (event : Source.Event) :
    ∀ act ∈ (eventBookings options path active event).map Act.book, act.Inside inside := by
  intro act hact
  obtain ⟨booking, hbooking, rfl⟩ := List.mem_map.mp hact
  cases booking with
  | declare name file =>
    rw [declare_mem_eventBookings] at hbooking
    exact hbooking.1 ▸ hpath
  | use | depend => trivial

/-- A run of the machine can be moved, and what it does is inside the project. -/
theorem Relocation.run_move {seen : List Path} {agenda : List Task} {acts : List Act}
    (hrun : Run files options seen agenda acts) (hseen : ∀ path ∈ seen, inside path)
    (hagenda : ∀ task ∈ agenda, task.Inside files inside) :
    Run files' options (seen.map move) (agenda.map (Task.move move))
        (acts.map (Act.move move)) ∧
      ∀ act ∈ acts, act.Inside inside := by
  induction hrun with
  | done => exact ⟨.done, fun act hact ↦ absurd hact List.not_mem_nil⟩
  | @again seen path depth rest acts hlisted _ ih =>
    obtain ⟨hpath, hrest⟩ := List.forall_mem_cons.mp hagenda
    obtain ⟨hmoved, hinside⟩ := ih hseen hrest
    rw [← hrelocation.listed_move hseen hpath] at hlisted
    exact ⟨.again hlisted hmoved, List.forall_mem_cons.mpr ⟨hpath, hinside⟩⟩
  | @beyond seen path depth rest acts hnew hbeyond _ ih =>
    obtain ⟨hpath, hrest⟩ := List.forall_mem_cons.mp hagenda
    obtain ⟨hmoved, hinside⟩ := ih hseen hrest
    rw [← hrelocation.listed_move hseen hpath] at hnew
    rw [← hrelocation.isBeyond_move hpath] at hbeyond
    exact ⟨.beyond hnew hbeyond hmoved, List.forall_mem_cons.mpr ⟨hpath, hinside⟩⟩
  | @first seen path depth rest acts hnew hwithin _ ih =>
    obtain ⟨hpath, hrest⟩ := List.forall_mem_cons.mp hagenda
    have hlonger : ∀ other ∈ seen ++ [path], inside other :=
      List.forall_mem_append.mpr ⟨hseen, List.forall_mem_singleton.mpr hpath⟩
    have hscan : Task.Inside files inside (.scan path depth none (eventsOf files path)) :=
      ⟨hpath, fun event hevent ↦ hevent⟩
    obtain ⟨hmoved, hinside⟩ := ih hlonger (List.forall_mem_cons.mpr ⟨hscan, hrest⟩)
    rw [← hrelocation.listed_move hseen hpath] at hnew
    rw [← hrelocation.isBeyond_move hpath] at hwithin
    have hscanned : Task.move move (.scan path depth none (eventsOf files path)) =
        .scan (move path) depth none (eventsOf files' (move path)) := by
      rw [hrelocation.eventsOf_move hpath]
      rfl
    rw [List.map_append, List.map_singleton, List.map_cons, hscanned] at hmoved
    refine ⟨.first hnew hwithin hmoved, ?_⟩
    exact List.forall_mem_cons.mpr ⟨hpath, List.forall_mem_cons.mpr ⟨hpath, hinside⟩⟩
  | @event seen path depth active event events rest acts _ ih =>
    obtain ⟨⟨hpath, hevents⟩, hrest⟩ := List.forall_mem_cons.mp hagenda
    obtain ⟨hevent, hlater⟩ := List.forall_mem_cons.mp hevents
    have hscan : Task.Inside files inside
        (.scan path depth (activeAfter options active event) events) := ⟨hpath, hlater⟩
    obtain ⟨hmoved, hinside⟩ := ih hseen (List.forall_mem_append.mpr
      ⟨hrelocation.inside_onward hpath hevent, List.forall_mem_cons.mpr ⟨hscan, hrest⟩⟩)
    rw [List.map_append, List.map_cons, ← hrelocation.onward_move hpath depth hevent] at hmoved
    have hbooked : ((eventBookings options path active event).map Act.book).map (Act.move move) =
        (eventBookings options (move path) active event).map Act.book := by
      rw [eventBookings_move, List.map_map, List.map_map]
      rfl
    rw [List.map_append, hbooked]
    exact ⟨.event hmoved,
      List.forall_mem_append.mpr ⟨inside_eventBookings hpath active event, hinside⟩⟩
  | closed _ ih =>
    obtain ⟨_, hrest⟩ := List.forall_mem_cons.mp hagenda
    obtain ⟨hmoved, hinside⟩ := ih hseen hrest
    exact ⟨.closed hmoved, hinside⟩
  | @remark seen path message rest acts _ ih =>
    obtain ⟨hpath, hrest⟩ := List.forall_mem_cons.mp hagenda
    obtain ⟨hmoved, hinside⟩ := ih hseen hrest
    exact ⟨.remark hmoved, List.forall_mem_cons.mpr ⟨hpath, hinside⟩⟩

end Runs

/-! ### Ledgers -/

/-- A text that is the path of a file inside the project, and the text it is moved to. -/
def MovedFile (inside : Path → Prop) (move : Path → Path) (file file' : String) : Prop :=
  ∃ path, inside path ∧ file = path.text ∧ file' = (move path).text

/-- A diagnostic of the same step about the moved file. -/
structure MovedDiagnostic (inside : Path → Prop) (move : Path → Path)
    (diagnostic diagnostic' : Ledger.Diagnostic) : Prop where
  step : diagnostic'.step = diagnostic.step
  file : MovedFile inside move diagnostic.file diagnostic'.file

/-- The ledgers of a project in two places. -/
structure Moved (inside : Path → Prop) (move : Path → Path) (ledger ledger' : Ledger) : Prop where
  parsed : ledger'.parsed = ledger.parsed.map move
  skipped : ledger'.skipped = ledger.skipped.map move
  records : ledger'.records = Ledger.moveRecords move ledger.records
  diagnostics : List.Forall₂ (MovedDiagnostic inside move) ledger.diagnostics ledger'.diagnostics
  sources : ∀ entry ∈ ledger.records, ∀ file, entry.2.source = some file → inside file

section Ledgers

variable {files files' : Files} {options : Options} {inside : Path → Prop} {move : Path → Path}
  (hrelocation : Relocation files files' inside move)

include hrelocation

theorem Relocation.forall₂_findings {path : Path} (hpath : inside path) :
    List.Forall₂ (MovedDiagnostic inside move) (findings files path)
      (findings files' (move path)) := by
  have hcomplaints : List.Forall₂ (fun first second ↦ second.1 = first.1)
      ((examine files path).complaints path)
      ((examine files' (move path)).complaints (move path)) := by
    rcases hrelocation.examined path hpath with hsame | ⟨fault, fault', hfirst, hsecond⟩
    · rw [← hsame]
      cases examine files path with
      | passedOver => exact .nil
      | unreadable fault => exact .cons rfl .nil
      | oversized => exact .cons rfl .nil
      | unparsable => exact .cons rfl .nil
      | source parsed => exact List.forall₂_same.mpr fun _ _ ↦ rfl
    · rw [hfirst, hsecond]
      exact .cons rfl .nil
  rw [findings, findings, List.forall₂_map_left_iff, List.forall₂_map_right_iff]
  exact hcomplaints.imp fun first second hstep ↦ ⟨hstep, path, hpath, rfl, rfl⟩

theorem Relocation.forall₂_actDiagnostics {acts : List Act}
    (hacts : ∀ act ∈ acts, act.Inside inside) :
    List.Forall₂ (MovedDiagnostic inside move) (acts.flatMap (actDiagnostics files))
      ((acts.map (Act.move move)).flatMap (actDiagnostics files')) := by
  induction acts with
  | nil => exact .nil
  | cons act rest ih =>
    obtain ⟨hact, hrest⟩ := List.forall_mem_cons.mp hacts
    rw [List.map_cons, List.flatMap_cons, List.flatMap_cons]
    refine List.rel_append ?_ (ih hrest)
    cases act with
    | call path depth => exact .nil
    | book booking => exact .nil
    | enter path depth => exact hrelocation.forall₂_findings hact
    | remark path message => exact .cons ⟨rfl, path, hact, rfl, rfl⟩ .nil

theorem Relocation.filter_isSource_move {paths : List Path} (hpaths : ∀ path ∈ paths, inside path) :
    (paths.map move).filter (isSource files') = (paths.filter (isSource files)).map move := by
  rw [List.filter_map]
  congr 1
  exact List.filter_congr fun path hpath ↦ hrelocation.isSource_move (hpaths path hpath)

theorem Relocation.filter_not_isSource_move {paths : List Path}
    (hpaths : ∀ path ∈ paths, inside path) :
    ((paths.map move).filter fun path ↦ !isSource files' path) =
      (paths.filter fun path ↦ !isSource files path).map move := by
  rw [List.filter_map]
  congr 1
  refine List.filter_congr fun path hpath ↦ ?_
  rw [Function.comp_apply, hrelocation.isSource_move (hpaths path hpath)]

omit hrelocation in
theorem inside_of_entered {acts : List Act} (hacts : ∀ act ∈ acts, act.Inside inside) :
    ∀ path ∈ entered acts, inside path := by
  intro path hpath
  obtain ⟨depth, hentry⟩ := mem_entered_iff.mp hpath
  obtain ⟨act, hact, hentered⟩ := List.mem_filterMap.mp hentry
  cases act with
  | enter entered depth =>
    cases hentered
    exact hacts _ hact
  | call | book | remark => cases hentered

omit hrelocation in
theorem inside_of_source {acts : List Act} (hacts : ∀ act ∈ acts, act.Inside inside) :
    ∀ entry ∈ (replay files acts {}).records, ∀ file, entry.2.source = some file → inside file := by
  intro entry hentry file hsource
  have hnames : (replay files acts {}).names.Nodup := by
    rw [Ledger.names_congr (records_replay acts {}), Ledger.names_bookAll]
    exact Ledger.nodup_addNames .nil _
  rw [← Ledger.recordOf_of_mem hnames hentry] at hsource
  have hdeclare := declare_mem_of_source hsource
  obtain ⟨act, hact, hbooked⟩ := List.mem_filterMap.mp hdeclare
  cases act with
  | book booking =>
    cases hbooked
    exact hacts _ hact
  | call | enter | remark => cases hbooked

/-- Working off a moved agenda leaves a moved ledger. -/
theorem Relocation.moved_runAgenda {agenda : List Task}
    (hagenda : ∀ task ∈ agenda, task.Inside files inside) :
    Moved inside move (runAgenda files options agenda {})
      (runAgenda files' options (agenda.map (Task.move move)) {}) := by
  obtain ⟨acts, hrun⟩ : ∃ acts, Run files options [] agenda acts := ⟨_, run_journal agenda []⟩
  obtain ⟨hmoved, hinside⟩ :=
    hrelocation.run_move hrun (fun path hpath ↦ absurd hpath List.not_mem_nil) hagenda
  rw [hrun.run_eq_replay covers_empty, hmoved.run_eq_replay covers_empty]
  obtain ⟨hparsed, hskipped⟩ := hrun.marks_replay covers_empty
  obtain ⟨hparsed', hskipped'⟩ := hmoved.marks_replay covers_empty
  have hentered := inside_of_entered hinside
  refine ⟨?_, ?_, ?_, ?_, inside_of_source hinside⟩
  · rw [hparsed', hparsed, entered_map_move]
    exact hrelocation.filter_isSource_move hentered
  · rw [hskipped', hskipped, entered_map_move]
    exact hrelocation.filter_not_isSource_move hentered
  · rw [records_replay, records_replay, booked_map_move]
    exact Ledger.records_bookAll_move rfl _
  · rw [diagnostics_replay, diagnostics_replay]
    exact hrelocation.forall₂_actDiagnostics hinside

end Ledgers

/-! ### Nodes -/

/-- A node of a moved project: the same, except that it shows the moved file. -/
structure MovedNode (inside : Path → Prop) (move : Path → Path) (node node' : Node) : Prop where
  id : node'.id = node.id
  children : node'.children = node.children
  kind : node'.kind = node.kind
  usedCount : node'.usedCount = node.usedCount
  file : MovedFile inside move node.filePath node'.filePath ∨
    node.filePath = Ranking.unknownPath node.id ∧ node'.filePath = Ranking.unknownPath node.id

section Nodes

open Ranking

variable {inside : Path → Prop} {move : Path → Path} {ledger ledger' : Ledger}

/-- Whether the node of an entry may stand before that of another. -/
def entryPrecedes (first second : String × Ledger.Record) : Bool :=
  mayPrecede (nodeOf first) (nodeOf second)

/-- The nodes of a ledger in order are those of its entries in order. -/
theorem ordered_eq_map (ledger : Ledger) :
    ordered ledger = (ledger.records.mergeSort entryPrecedes).map nodeOf := by
  have hsame : ∀ first ∈ ledger.records, ∀ second ∈ ledger.records,
      entryPrecedes first second = mayPrecede (nodeOf first) (nodeOf second) :=
    fun _ _ _ _ ↦ rfl
  rw [ordered, List.map_mergeSort hsame]

theorem nodeOf_move {entry : String × Ledger.Record}
    (hsource : ∀ file, entry.2.source = some file → inside file) :
    MovedNode inside move (nodeOf entry) (nodeOf (entry.1, entry.2.move move)) := by
  refine ⟨rfl, rfl, rfl, rfl, ?_⟩
  cases hdeclared : entry.2.source with
  | none =>
    refine Or.inr ⟨?_, ?_⟩
    · simp [nodeOf, hdeclared]
    · simp [nodeOf, Ledger.Record.move, hdeclared]
  | some file =>
    refine Or.inl ⟨file, hsource file hdeclared, ?_, ?_⟩
    · simp [nodeOf, hdeclared]
    · simp [nodeOf, Ledger.Record.move, hdeclared]

theorem forall₂_closeChildren {nodes nodes' : List Node}
    (hnodes : List.Forall₂ (MovedNode inside move) nodes nodes') :
    List.Forall₂ (MovedNode inside move) (closeChildren nodes) (closeChildren nodes') := by
  have hids : nodes'.map Node.id = nodes.map Node.id := by
    induction hnodes with
    | nil => rfl
    | cons hnode _ ih => rw [List.map_cons, List.map_cons, hnode.id, ih]
  rw [closeChildren, closeChildren, hids, List.forall₂_map_left_iff, List.forall₂_map_right_iff]
  refine hnodes.imp fun node node' hnode ↦ ?_
  refine ⟨hnode.id, ?_, hnode.kind, hnode.usedCount, hnode.file⟩
  dsimp only
  rw [hnode.children]

/-- The ranking of a moved ledger shows the moved nodes. -/
theorem Moved.nodes (hmoved : Moved inside move ledger ledger') (maxNodes : Nat) :
    List.Forall₂ (MovedNode inside move) (ofLedger ledger maxNodes).nodes
      (ofLedger ledger' maxNodes).nodes := by
  have hordered : ordered ledger' = (ledger.records.mergeSort entryPrecedes).map
      fun entry ↦ nodeOf (entry.1, entry.2.move move) := by
    -- Where a node stands does not depend on the file it shows.
    have hsame : ∀ first ∈ ledger.records, ∀ second ∈ ledger.records,
        entryPrecedes first second =
          entryPrecedes (first.1, first.2.move move) (second.1, second.2.move move) :=
      fun _ _ _ _ ↦ rfl
    rw [ordered_eq_map, hmoved.records, Ledger.moveRecords, ← List.map_mergeSort hsame,
      List.map_map]
    rfl
  refine forall₂_closeChildren ?_
  rw [ordered_eq_map, hordered, ← List.map_take, ← List.map_take, List.forall₂_map_left_iff,
    List.forall₂_map_right_iff, List.forall₂_same]
  intro entry hentry
  have hrecord : entry ∈ ledger.records := List.mem_mergeSort.mp (List.mem_of_mem_take hentry)
  exact nodeOf_move (hmoved.sources entry hrecord)

end Nodes

end Journal

end ComponentGraph
