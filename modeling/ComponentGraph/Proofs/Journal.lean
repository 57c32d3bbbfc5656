import ComponentGraph.Proofs.Ledger
import ComponentGraph.Survey

/-!
The journal of an analysis: everything that it does, in order.

An analysis is a recursion in which the events of a file are interrupted at every import by the
analysis of the imported file. Its journal lays that recursion out flat. `Run` is the recursion as a
machine with an agenda: a task is taken from the front, it may put new tasks in front of the others,
and it leaves acts in the journal. Each rule has one premise, so what holds of all journals is shown
by one induction over a list of rules.

`run_journal` says that the journal computed by recursion is the one that the machine leaves. That
the journal is the one of the analysis is shown by replaying it: its acts, done to a ledger one
after the other, give the ledger of the analysis.

The machine asks a ledger only whether a file was visited, so a list of the visited paths is all
that it keeps.
-/

set_option autoImplicit false
set_option relaxedAutoImplicit false

namespace ComponentGraph.Journal

open Analysis

/-! ### Acts -/

/-- Something that an analysis does. -/
inductive Act where
  /-- The analysis of a file is asked for. -/
  | call (path : Path) (depth : Nat)
  /-- A file that was not visited before is read, judged and marked. -/
  | enter (path : Path) (depth : Nat)
  /-- Something is written into the records. -/
  | book (booking : Ledger.Booking)
  /-- A fault of the walk is reported. -/
  | remark (path : Path) (message : String)
  deriving Repr, DecidableEq

/-- The calls of a journal: which file, and how many imports away. -/
def calls (acts : List Act) : List (Path × Nat) :=
  acts.filterMap fun
    | .call path depth => some (path, depth)
    | _ => none

/-- The files of a journal in the order of their first visits, with the depths of these. -/
def entries (acts : List Act) : List (Path × Nat) :=
  acts.filterMap fun
    | .enter path depth => some (path, depth)
    | _ => none

/-- The files of a journal in the order of their first visits. -/
def entered (acts : List Act) : List Path :=
  (entries acts).map Prod.fst

/-- What a journal writes into the records. -/
def booked (acts : List Act) : List Ledger.Booking :=
  acts.filterMap fun
    | .book booking => some booking
    | _ => none

section Readings

variable (path : Path) (depth : Nat) (acts more : List Act) (bookings : List Ledger.Booking)

@[simp] theorem calls_append : calls (acts ++ more) = calls acts ++ calls more :=
  List.filterMap_append

@[simp] theorem calls_map_book : calls (bookings.map .book) = [] := by
  simp [calls, List.filterMap_map]

@[simp] theorem entries_append : entries (acts ++ more) = entries acts ++ entries more :=
  List.filterMap_append

@[simp] theorem entries_call : entries (.call path depth :: acts) = entries acts := rfl

@[simp] theorem entries_enter :
    entries (.enter path depth :: acts) = (path, depth) :: entries acts := rfl

@[simp] theorem entries_map_book : entries (bookings.map .book) = [] := by
  simp [entries, List.filterMap_map]

@[simp] theorem booked_append : booked (acts ++ more) = booked acts ++ booked more :=
  List.filterMap_append

@[simp] theorem booked_map_book : booked (bookings.map .book) = bookings := by
  induction bookings with
  | nil => rfl
  | cons booking rest ih => exact congrArg (booking :: ·) ih

end Readings

/-- The ledger after a file was judged. -/
def judge (files : Files) (path : Path) (ledger : Ledger) : Ledger :=
  match examine files path with
  | .source parsed =>
      complain (ledger.markParsed path) path ((Examination.source parsed).complaints path)
  | examination => (complain ledger path (examination.complaints path)).markSkipped path

/-- Does an act to a ledger. -/
def perform (files : Files) (ledger : Ledger) : Act → Ledger
  | .call _ _ => ledger
  | .enter path _ => judge files path ledger
  | .book booking => ledger.book booking
  | .remark path message => ledger.diagnose path .walk message

/-- Does the acts of a journal to a ledger. -/
def replay (files : Files) (acts : List Act) (ledger : Ledger) : Ledger :=
  acts.foldl (perform files) ledger

/-! ### The events of a file by themselves -/

theorem examine_ofTree (parse : Source.Parser) (tree : FileTree) (path : Path) :
    examine (.ofTree parse tree) path =
      if isPassedOver path then .passedOver
      else
        match tree.readText path with
        | .error fault => .unreadable fault
        | .ok text =>
            if characterLimit < text.length then .oversized
            else
              match parse path.text text with
              | none => .unparsable
              | some parsed => .source parsed :=
  rfl

/-- The events of a file, if it is a source file. -/
def eventsOf (files : Files) (path : Path) : List Source.Event :=
  match examine files path with
  | .source parsed => parsed.module.events
  | _ => []

/-- One use of a name, and the dependency of its owner if there is one. -/
def creditBookings (owner : Option String) (name : String) : List Ledger.Booking :=
  match owner with
  | some declaration => [.depend declaration name, .use name]
  | none => [.use name]

/-- What an event writes into the records. -/
def eventBookings (options : Options) (path : Path) (active : Option Active) :
    Source.Event → List Ledger.Booking
  | .declared name => [.declare name path]
  | .rendered name =>
      match owner? active with
      | some owner => creditBookings (some owner) name
      | none => []
  | .imported source names =>
      if countsImport options source then names.flatMap (creditBookings (owner? active)) else []

/-- The declaration that takes uses after an event. -/
def activeAfter (options : Options) (active : Option Active) : Source.Event → Option Active
  | .declared name => some ⟨name, takesUses options name⟩
  | _ => active

/-- What the events of a file write into the records, whatever stands between them. -/
def scanBookings (options : Options) (path : Path) :
    Option Active → List Source.Event → List Ledger.Booking
  | _, [] => []
  | active, event :: events =>
      eventBookings options path active event ++
        scanBookings options path (activeAfter options active event) events

/-- The contribution of a file by itself: its events are scanned with no declaration at first. -/
def contribution (files : Files) (options : Options) (path : Path) : List Ledger.Booking :=
  scanBookings options path none (eventsOf files path)

/-! ### The machine -/

/-- Something that is still to be done. -/
inductive Task where
  /-- Analyse a file. -/
  | visit (path : Path) (depth : Nat)
  /-- Go on with the events of a file. -/
  | scan (path : Path) (depth : Nat) (active : Option Active) (events : List Source.Event)
  /-- Report a fault of the walk. -/
  | remark (path : Path) (message : String)

/-- Whether a file is left alone because it is too many imports away. -/
def isBeyond (options : Options) (path : Path) (depth : Nat) : Bool :=
  options.importDepth < depth && options.focus?.isNone && !isPassedOver path

/-- The visits that an event of a file leads to. -/
def onward (files : Files) (options : Options) (path : Path) (depth : Nat) :
    Source.Event → List Task
  | .imported source _ =>
      if depth < options.importDepth then
        (importTarget? files path source).toList.map (Task.visit · (depth + 1))
      else []
  | _ => []

theorem exists_visit_of_mem_onward {files : Files} {options : Options} {path : Path} {depth : Nat}
    {event : Source.Event} {task : Task} (htask : task ∈ onward files options path depth event) :
    ∃ target, task = .visit target (depth + 1) := by
  cases event with
  | declared name => cases htask
  | rendered name => cases htask
  | imported source names =>
    rw [onward] at htask
    split at htask
    · obtain ⟨target, _, rfl⟩ := List.mem_map.mp htask
      exact ⟨target, rfl⟩
    · cases htask

/-- The machine: with these files visited, this agenda leaves this journal. -/
inductive Run (files : Files) (options : Options) : List Path → List Task → List Act → Prop where
  | done {seen : List Path} : Run files options seen [] []
  | again {seen : List Path} {path : Path} {depth : Nat} {rest : List Task} {acts : List Act}
      (hseen : Ledger.listed seen path = true) (hrest : Run files options seen rest acts) :
      Run files options seen (.visit path depth :: rest) (.call path depth :: acts)
  | beyond {seen : List Path} {path : Path} {depth : Nat} {rest : List Task} {acts : List Act}
      (hnew : Ledger.listed seen path = false) (hbeyond : isBeyond options path depth = true)
      (hrest : Run files options seen rest acts) :
      Run files options seen (.visit path depth :: rest) (.call path depth :: acts)
  | first {seen : List Path} {path : Path} {depth : Nat} {rest : List Task} {acts : List Act}
      (hnew : Ledger.listed seen path = false) (hwithin : isBeyond options path depth = false)
      (hrest : Run files options (seen ++ [path])
        (.scan path depth none (eventsOf files path) :: rest) acts) :
      Run files options seen (.visit path depth :: rest)
        (.call path depth :: .enter path depth :: acts)
  | event {seen : List Path} {path : Path} {depth : Nat} {active : Option Active}
      {event : Source.Event} {events : List Source.Event} {rest : List Task} {acts : List Act}
      (hrest : Run files options seen (onward files options path depth event ++
        .scan path depth (activeAfter options active event) events :: rest) acts) :
      Run files options seen (.scan path depth active (event :: events) :: rest)
        ((eventBookings options path active event).map .book ++ acts)
  | closed {seen : List Path} {path : Path} {depth : Nat} {active : Option Active}
      {rest : List Task} {acts : List Act} (hrest : Run files options seen rest acts) :
      Run files options seen (.scan path depth active [] :: rest) acts
  | remark {seen : List Path} {path : Path} {message : String} {rest : List Task}
      {acts : List Act} (hrest : Run files options seen rest acts) :
      Run files options seen (.remark path message :: rest) (.remark path message :: acts)

/-- No file is entered twice, whatever its spelling, nor one that was visited before. -/
theorem Run.nodup_keys {files : Files} {options : Options} {seen : List Path}
    {agenda : List Task} {acts : List Act} (hrun : Run files options seen agenda acts)
    (hseen : (seen.map Path.key).Nodup) : ((seen ++ entered acts).map Path.key).Nodup := by
  induction hrun with
  | done => simpa [entered, entries] using hseen
  | again _ _ ih => exact ih hseen
  | beyond _ _ _ ih => exact ih hseen
  | @first seen path depth rest acts hnew _ _ ih =>
    have hfresh : path.key ∉ seen.map Path.key := by
      rw [← Ledger.listed_iff_mem_keys, hnew]
      exact Bool.false_ne_true
    have hextended : ((seen ++ [path]).map Path.key).Nodup := by
      rw [List.map_append, List.nodup_append]
      refine ⟨hseen, by simp, fun first hfirst second hsecond heq ↦ ?_⟩
      rw [List.map_singleton, List.mem_singleton] at hsecond
      exact hfresh (hsecond ▸ heq ▸ hfirst)
    have hrest := ih hextended
    rwa [List.append_assoc] at hrest
  | event _ ih => simpa [entered] using ih hseen
  | closed _ ih => exact ih hseen
  | remark _ ih => exact ih hseen

/-! ### The journal -/

/-- What remains to be written into a journal, given the files visited so far. -/
abbrev Continuation := List Path → List Act

/-- The journal of the events of a file, and of what comes after them. `follow` is the journal of a
visit that an event leads to. -/
def scanActs (files : Files) (options : Options)
    (follow : Path → Continuation → Continuation) (path : Path) :
    Option Active → List Source.Event → Continuation → Continuation
  | _, [], next => next
  | active, event :: events, next => fun seen ↦
      let later := scanActs files options follow path (activeAfter options active event) events next
      (eventBookings options path active event).map .book ++
        match event with
        | .imported source _ =>
            match importTarget? files path source with
            | some target => follow target later seen
            | none => later seen
        | _ => later seen

/-- The journal of a visit, and of what comes after it. -/
def visitActs (files : Files) (options : Options) (path : Path) (depth : Nat)
    (next : Continuation) (seen : List Path) : List Act :=
  .call path depth ::
    if Ledger.listed seen path then next seen
    else if isBeyond options path depth then next seen
    else
      .enter path depth ::
        scanActs files options
          (fun target later seen ↦
            if depth < options.importDepth then
              visitActs files options target (depth + 1) later seen
            else later seen)
          path none (eventsOf files path) next (seen ++ [path])
termination_by options.importDepth - depth

/-- The journal of following an import from a file of this depth, and of what comes after it. -/
def followActs (files : Files) (options : Options) (depth : Nat) (target : Path)
    (next : Continuation) : Continuation :=
  fun seen ↦
    if depth < options.importDepth then visitActs files options target (depth + 1) next seen
    else next seen

/-- The journal of a task, and of what comes after it. -/
def taskActs (files : Files) (options : Options) : Task → Continuation → Continuation
  | .visit path depth, next => visitActs files options path depth next
  | .scan path depth active events, next =>
      scanActs files options (followActs files options depth) path active events next
  | .remark path message, next => fun seen ↦ .remark path message :: next seen

/-- The journal of an agenda. -/
def journal (files : Files) (options : Options) : List Task → Continuation
  | [] => fun _ ↦ []
  | task :: rest => taskActs files options task (journal files options rest)

section Adequacy

variable {files : Files} {options : Options}

/-- The machine leaves these acts for the agenda, whatever was visited before. -/
def Leaves (files : Files) (options : Options) (agenda : List Task) (next : Continuation) : Prop :=
  ∀ seen, Run files options seen agenda (next seen)

theorem leaves_scan {follow : Path → Continuation → Continuation} {path : Path} {depth : Nat}
    (hfollow : ∀ (target : Path) (rest : List Task) (next : Continuation),
      Leaves files options rest next →
        Leaves files options
          ((if depth < options.importDepth then [Task.visit target (depth + 1)] else []) ++ rest)
          (follow target next))
    (active : Option Active) (events : List Source.Event) {rest : List Task} {next : Continuation}
    (hnext : Leaves files options rest next) :
    Leaves files options (.scan path depth active events :: rest)
      (scanActs files options follow path active events next) := by
  induction events generalizing active with
  | nil => exact fun seen ↦ .closed (hnext seen)
  | cons event events ih =>
    intro seen
    have hlater := ih (activeAfter options active event)
    refine .event ?_
    cases event with
    | declared name => exact hlater seen
    | rendered name => exact hlater seen
    | imported source names =>
      cases htarget : importTarget? files path source with
      | none =>
        simp only [onward, htarget, Option.toList_none, List.map_nil, ite_self, List.nil_append]
        exact hlater seen
      | some target =>
        simp only [onward, htarget, Option.toList_some, List.map_cons, List.map_nil]
        exact hfollow target _ _ hlater seen

/-- An import is followed to its file as long as the depth allows it. Assumes: what is left for a
visit one import further on. -/
theorem leaves_follow {depth : Nat} {target : Path} {rest : List Task} {next : Continuation}
    (hvisit : depth < options.importDepth →
      Leaves files options (.visit target (depth + 1) :: rest)
        (visitActs files options target (depth + 1) next))
    (hnext : Leaves files options rest next) :
    Leaves files options
      ((if depth < options.importDepth then [Task.visit target (depth + 1)] else []) ++ rest)
      (followActs files options depth target next) := by
  intro seen
  by_cases hlimit : depth < options.importDepth
  · simp only [followActs, if_pos hlimit]
    exact hvisit hlimit seen
  · simp only [followActs, if_neg hlimit]
    exact hnext seen

theorem leaves_visit (path : Path) (depth : Nat) {rest : List Task} {next : Continuation}
    (hnext : Leaves files options rest next) :
    Leaves files options (.visit path depth :: rest) (visitActs files options path depth next) := by
  -- the number of imports that may still be followed goes down with each one
  induction hhops : options.importDepth - depth using Nat.strongRecOn
    generalizing path depth rest next with
  | _ hops ih =>
    intro seen
    rw [visitActs]
    by_cases hseen : Ledger.listed seen path = true
    · rw [if_pos hseen]
      exact .again hseen (hnext seen)
    · rw [if_neg hseen]
      by_cases hbeyond : isBeyond options path depth = true
      · rw [if_pos hbeyond]
        exact .beyond (Bool.eq_false_iff.mpr hseen) hbeyond (hnext seen)
      · rw [if_neg hbeyond]
        exact .first (Bool.eq_false_iff.mpr hseen) (Bool.eq_false_iff.mpr hbeyond)
          (leaves_scan (fun target _ _ hlater ↦ leaves_follow
            (fun hlimit ↦ ih _ (by omega) target (depth + 1) hlater rfl) hlater)
            none (eventsOf files path) hnext (seen ++ [path]))

theorem leaves_task (task : Task) {rest : List Task} {next : Continuation}
    (hnext : Leaves files options rest next) :
    Leaves files options (task :: rest) (taskActs files options task next) := by
  cases task with
  | visit path depth => exact leaves_visit path depth hnext
  | scan path depth active events =>
    exact leaves_scan (fun target _ _ hlater ↦ leaves_follow
      (fun _ ↦ leaves_visit target (depth + 1) hlater) hlater) active events hnext
  | remark path message => exact fun seen ↦ .remark (hnext seen)

/-- The journal of an agenda is the one that the machine leaves. -/
theorem run_journal (agenda : List Task) (seen : List Path) :
    Run files options seen agenda (journal files options agenda seen) := by
  induction agenda generalizing seen with
  | nil => exact .done
  | cons task rest ih => exact leaves_task task ih seen

end Adequacy

end ComponentGraph.Journal
