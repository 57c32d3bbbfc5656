import ComponentGraph.Ledger

/-!
What the operations of a ledger do to the questions that can be asked of it. A path counts as marked
by its key, so a path that is not listed is appended as it stands, and taking it away changes
nothing. A record is looked up by name, and a change to one name leaves every other name alone
(`record?_update`).

Everything that is ever written into the records is one of three bookings: a name is declared by a
file, a name is used, or a declaration depends on a name. `bookAll` writes a list of them, and the
records afterwards are known in closed form. `recordOf_bookAll` gives the record of a name: uses are
counted, dependencies are collected in the order of the first references, and the source is the
first file that declares the name. A name is known once a booking mentions it
(`isSome_record?_bookAll`), and names stand in the order in which they are first mentioned
(`names_bookAll`). In particular counts and sets do not depend on the order of the bookings, whereas
the source and the order of names do.
-/

set_option autoImplicit false
set_option relaxedAutoImplicit false

namespace ComponentGraph

namespace Path

theorem sameKey_iff (first second : Path) :
    first.sameKey second = true ↔ first.key = second.key := by
  simp [sameKey]

end Path

namespace Ledger

/-! ### Lists of paths -/

theorem listed_iff (paths : List Path) (path : Path) :
    listed paths path = true ↔ ∃ other ∈ paths, other.key = path.key := by
  simp [listed, Path.sameKey_iff]

theorem listed_eq_false_iff (paths : List Path) (path : Path) :
    listed paths path = false ↔ ∀ other ∈ paths, other.key ≠ path.key := by
  simp [listed, Path.sameKey]

theorem listed_iff_mem_keys (paths : List Path) (path : Path) :
    listed paths path = true ↔ path.key ∈ paths.map Path.key := by
  simp [listed_iff]

@[simp] theorem listed_append (first second : List Path) (path : Path) :
    listed (first ++ second) path = (listed first path || listed second path) := by
  simp [listed]

theorem listed_of_mem {paths : List Path} {path : Path} (hmem : path ∈ paths) :
    listed paths path = true :=
  (listed_iff paths path).mpr ⟨path, hmem, rfl⟩

theorem addPath_of_not_listed {paths : List Path} {path : Path}
    (hnew : listed paths path = false) : addPath paths path = paths ++ [path] := by
  simp [addPath, hnew]

theorem dropPath_of_not_listed {paths : List Path} {path : Path}
    (hnew : listed paths path = false) : dropPath paths path = paths := by
  rw [listed_eq_false_iff] at hnew
  refine List.filter_eq_self.mpr fun other hother ↦ ?_
  simpa [Path.sameKey] using hnew other hother

theorem isVisited_eq_false_iff (ledger : Ledger) (path : Path) :
    ledger.isVisited path = false ↔
      listed ledger.parsed path = false ∧ listed ledger.skipped path = false := by
  simp [isVisited]

/-! ### Records -/

/-- The record of a name; a fresh one for a name that was not met. -/
def recordOf (ledger : Ledger) (name : String) : Record :=
  (ledger.record? name).getD (.fresh name)

theorem recordOf_congr {first second : Ledger} (hrecords : first.records = second.records) :
    first.recordOf = second.recordOf := by
  funext name
  rw [recordOf, record?, hrecords]
  rfl

theorem lookup_cons_of_ne {name key : String} (hne : name ≠ key) (record : Record)
    (rest : List (String × Record)) : ((key, record) :: rest).lookup name = rest.lookup name := by
  rw [List.lookup_cons, beq_eq_false_iff_ne.mpr hne]

theorem lookup_changeRecord (name other : String) (change : Record → Record)
    (records : List (String × Record)) :
    (changeRecord name change records).lookup other =
      if other = name then some (change ((records.lookup name).getD (.fresh name)))
      else records.lookup other := by
  induction records with
  | nil =>
    by_cases hother : other = name
    · simp [changeRecord, hother]
    · simp [changeRecord, hother, lookup_cons_of_ne hother]
  | cons entry rest ih =>
    obtain ⟨key, record⟩ := entry
    by_cases hkey : key = name
    · subst hkey
      by_cases hother : other = key
      · simp [changeRecord, hother]
      · simp [changeRecord, hother, lookup_cons_of_ne hother]
    · by_cases hother : other = key
      · simp [changeRecord, hkey, hother]
      · simp [changeRecord, hkey, lookup_cons_of_ne hother, lookup_cons_of_ne (Ne.symm hkey), ih]

theorem record?_update (ledger : Ledger) (name other : String) (change : Record → Record) :
    (ledger.update name change).record? other =
      if other = name then some (change (ledger.recordOf name)) else ledger.record? other :=
  lookup_changeRecord name other change ledger.records

theorem recordOf_update (ledger : Ledger) (name other : String) (change : Record → Record) :
    (ledger.update name change).recordOf other =
      if other = name then change (ledger.recordOf name) else ledger.recordOf other := by
  unfold recordOf
  rw [record?_update]
  split <;> rfl

theorem mem_addName (names : List String) (name other : String) :
    other ∈ addName names name ↔ other ∈ names ∨ other = name := by
  unfold addName
  split
  · rename_i hmem
    have hname : name ∈ names := by simpa using hmem
    constructor
    · exact Or.inl
    · rintro (hother | rfl)
      · exact hother
      · exact hname
  · simp

/-! ### Lists of names -/

theorem addName_of_mem {names : List String} {name : String} (hmem : name ∈ names) :
    addName names name = names := by
  rw [addName, if_pos (List.contains_iff_mem.mpr hmem)]

theorem addName_of_not_mem {names : List String} {name : String} (hnew : name ∉ names) :
    addName names name = names ++ [name] := by
  rw [addName, if_neg (fun hcontains ↦ hnew (List.contains_iff_mem.mp hcontains))]

theorem addName_cons_of_ne {first name : String} (hne : first ≠ name) (names : List String) :
    addName (first :: names) name = first :: addName names name := by
  by_cases hmem : name ∈ names
  · rw [addName_of_mem hmem, addName_of_mem (List.mem_cons_of_mem first hmem)]
  · have hnew : name ∉ first :: names := by
      rw [List.mem_cons]
      rintro (heq | hlater)
      · exact hne heq.symm
      · exact hmem hlater
    rw [addName_of_not_mem hmem, addName_of_not_mem hnew, List.cons_append]

theorem prefix_addName (names : List String) (name : String) : names <+: addName names name := by
  by_cases hmem : name ∈ names
  · exact ⟨[], by rw [List.append_nil, addName_of_mem hmem]⟩
  · exact ⟨[name], (addName_of_not_mem hmem).symm⟩

theorem nodup_addName {names : List String} (hnames : names.Nodup) (name : String) :
    (addName names name).Nodup := by
  by_cases hmem : name ∈ names
  · rwa [addName_of_mem hmem]
  · rw [addName_of_not_mem hmem, List.nodup_append]
    refine ⟨hnames, by simp, fun first hfirst second hsecond heq ↦ ?_⟩
    rw [List.mem_singleton] at hsecond
    exact hmem (hsecond ▸ heq ▸ hfirst)

/-- The names with more of them at the end, each once. -/
def addNames (names more : List String) : List String :=
  more.foldl addName names

theorem addNames_append (names first second : List String) :
    addNames names (first ++ second) = addNames (addNames names first) second :=
  List.foldl_append

theorem mem_addNames (names more : List String) (name : String) :
    name ∈ addNames names more ↔ name ∈ names ∨ name ∈ more := by
  induction more generalizing names with
  | nil => simp [addNames]
  | cons next rest ih =>
    have hstep : addNames names (next :: rest) = addNames (addName names next) rest := rfl
    rw [hstep, ih, mem_addName, List.mem_cons, or_assoc]

theorem prefix_addNames (names more : List String) : names <+: addNames names more := by
  induction more generalizing names with
  | nil => exact List.prefix_rfl
  | cons next rest ih => exact (prefix_addName names next).trans (ih (addName names next))

theorem nodup_addNames {names : List String} (hnames : names.Nodup) (more : List String) :
    (addNames names more).Nodup := by
  induction more generalizing names with
  | nil => exact hnames
  | cons next rest ih => exact ih (nodup_addName hnames next)

/-- The names of the records, in the order in which they were first met. -/
def names (ledger : Ledger) : List String :=
  ledger.records.map Prod.fst

theorem map_fst_changeRecord (name : String) (change : Record → Record)
    (records : List (String × Record)) :
    (changeRecord name change records).map Prod.fst = addName (records.map Prod.fst) name := by
  induction records with
  | nil => rfl
  | cons entry rest ih =>
    obtain ⟨key, record⟩ := entry
    by_cases hkey : key = name
    · have hmem : name ∈ ((key, record) :: rest).map Prod.fst := by simp [hkey]
      rw [addName_of_mem hmem, changeRecord, if_pos hkey, List.map_cons, List.map_cons]
    · rw [changeRecord, if_neg hkey, List.map_cons, List.map_cons, ih, addName_cons_of_ne hkey]

theorem isSome_record?_iff (ledger : Ledger) (name : String) :
    (ledger.record? name).isSome = true ↔ name ∈ ledger.names := by
  rw [record?, List.lookup_isSome_iff, names, List.mem_map]
  simp only [beq_iff_eq, eq_comm (a := name)]

theorem names_update (ledger : Ledger) (name : String) (change : Record → Record) :
    (ledger.update name change).names = addName ledger.names name :=
  map_fst_changeRecord name change ledger.records

/-! ### Bookings -/

/-- Something that is written into the records. -/
inductive Booking where
  | declare (name : String) (file : Path)
  | use (name : String)
  | depend (owner name : String)
  deriving Repr, DecidableEq

/-- The names that a booking is about, in the order in which they get their records: what a
declaration depends on comes before the declaration. -/
def Booking.names : Booking → List String
  | .declare name _ => [name]
  | .use name => [name]
  | .depend owner name => [name, owner]

/-- The name that a booking makes a declaration depend on. -/
def Booking.reference? (owner : String) : Booking → Option String
  | .depend dependent name => if dependent = owner then some name else none
  | _ => none

/-- The file by which a booking declares a name. -/
def Booking.declarer? (name : String) : Booking → Option Path
  | .declare declared file => if declared = name then some file else none
  | _ => none

/-- Writes a booking into the records. -/
def book (ledger : Ledger) : Booking → Ledger
  | .declare name file => ledger.declare name file
  | .use name => ledger.recordUse name
  | .depend owner name => ledger.addDependency owner name

/-- Writes bookings into the records, one after the other. -/
def bookAll (ledger : Ledger) (bookings : List Booking) : Ledger :=
  bookings.foldl book ledger

theorem bookAll_cons (ledger : Ledger) (booking : Booking) (rest : List Booking) :
    ledger.bookAll (booking :: rest) = (ledger.book booking).bookAll rest :=
  rfl

theorem bookAll_append (ledger : Ledger) (first second : List Booking) :
    ledger.bookAll (first ++ second) = (ledger.bookAll first).bookAll second :=
  List.foldl_append

@[simp] theorem parsed_book (ledger : Ledger) (booking : Booking) :
    (ledger.book booking).parsed = ledger.parsed := by
  cases booking <;> rfl

@[simp] theorem skipped_book (ledger : Ledger) (booking : Booking) :
    (ledger.book booking).skipped = ledger.skipped := by
  cases booking <;> rfl

@[simp] theorem diagnostics_book (ledger : Ledger) (booking : Booking) :
    (ledger.book booking).diagnostics = ledger.diagnostics := by
  cases booking <;> rfl

@[simp] theorem parsed_bookAll (ledger : Ledger) (bookings : List Booking) :
    (ledger.bookAll bookings).parsed = ledger.parsed := by
  induction bookings generalizing ledger with
  | nil => rfl
  | cons booking rest ih => rw [bookAll_cons, ih, parsed_book]

@[simp] theorem skipped_bookAll (ledger : Ledger) (bookings : List Booking) :
    (ledger.bookAll bookings).skipped = ledger.skipped := by
  induction bookings generalizing ledger with
  | nil => rfl
  | cons booking rest ih => rw [bookAll_cons, ih, skipped_book]

/-- The record of a name after a booking. -/
theorem recordOf_book (ledger : Ledger) (booking : Booking) (name : String) :
    (ledger.book booking).recordOf name =
      { kind := (ledger.recordOf name).kind
        source := (ledger.recordOf name).source.or (booking.declarer? name)
        uses := (ledger.recordOf name).uses + if booking = .use name then 1 else 0
        dependencies :=
          addNames (ledger.recordOf name).dependencies (booking.reference? name).toList } := by
  cases booking with
  | declare declared file =>
    rw [book, declare, recordOf_update]
    by_cases hname : name = declared
    · simp [hname, Booking.declarer?, Booking.reference?, addNames]
    · simp [hname, Ne.symm hname, Booking.declarer?, Booking.reference?, addNames]
  | use used =>
    rw [book, recordUse, recordOf_update]
    by_cases hname : name = used
    · simp [hname, Booking.declarer?, Booking.reference?, addNames]
    · simp [hname, Ne.symm hname, Booking.declarer?, Booking.reference?, addNames]
  | depend owner dependency =>
    -- the record that the dependency gets beforehand is the one it has anyway
    have hknown : (ledger.update dependency id).recordOf = ledger.recordOf := by
      funext other
      rw [recordOf_update]
      split
      · rename_i hother
        rw [hother, id]
      · rfl
    rw [book, addDependency, recordOf_update, hknown]
    by_cases hname : name = owner
    · simp [hname, Booking.declarer?, Booking.reference?, addNames]
    · simp [hname, Ne.symm hname, Booking.declarer?, Booking.reference?, addNames]

/-- The record of a name after bookings: its kind stays, the first file that declares it is its
source, its uses are counted, and its dependencies stand in the order of the first references. -/
theorem recordOf_bookAll (ledger : Ledger) (bookings : List Booking) (name : String) :
    (ledger.bookAll bookings).recordOf name =
      { kind := (ledger.recordOf name).kind
        source :=
          (ledger.recordOf name).source.or (bookings.findSome? (Booking.declarer? name))
        uses := (ledger.recordOf name).uses + bookings.count (.use name)
        dependencies :=
          addNames (ledger.recordOf name).dependencies
            (bookings.filterMap (Booking.reference? name)) } := by
  induction bookings generalizing ledger with
  | nil => simp [bookAll, addNames]
  | cons booking rest ih =>
    have hsource : (booking.declarer? name).or (rest.findSome? (Booking.declarer? name)) =
        (booking :: rest).findSome? (Booking.declarer? name) := by
      rw [List.findSome?_cons]
      cases booking.declarer? name <;> rfl
    have hreferences :
        (booking.reference? name).toList ++ rest.filterMap (Booking.reference? name) =
          (booking :: rest).filterMap (Booking.reference? name) := by
      rw [List.filterMap_cons]
      cases booking.reference? name <;> rfl
    rw [bookAll_cons, ih, recordOf_book, Option.or_assoc, hsource, ← addNames_append, hreferences,
      List.count_cons, Nat.add_assoc, Nat.add_comm (rest.count _)]
    simp only [beq_iff_eq]

theorem uses_bookAll (ledger : Ledger) (bookings : List Booking) (name : String) :
    ((ledger.bookAll bookings).recordOf name).uses =
      (ledger.recordOf name).uses + bookings.count (.use name) := by
  rw [recordOf_bookAll]

theorem reference?_eq_some_iff (booking : Booking) (owner name : String) :
    booking.reference? owner = some name ↔ booking = .depend owner name := by
  cases booking <;> simp [Booking.reference?]

theorem mem_dependencies_bookAll (ledger : Ledger) (bookings : List Booking)
    (name other : String) :
    other ∈ ((ledger.bookAll bookings).recordOf name).dependencies ↔
      other ∈ (ledger.recordOf name).dependencies ∨ .depend name other ∈ bookings := by
  rw [recordOf_bookAll, mem_addNames, List.mem_filterMap]
  simp only [reference?_eq_some_iff, exists_eq_right]

theorem source_bookAll (ledger : Ledger) (bookings : List Booking) (name : String) :
    ((ledger.bookAll bookings).recordOf name).source =
      (ledger.recordOf name).source.or (bookings.findSome? (Booking.declarer? name)) := by
  rw [recordOf_bookAll]

theorem names_book (ledger : Ledger) (booking : Booking) :
    (ledger.book booking).names = addNames ledger.names booking.names := by
  cases booking with
  | declare name file => exact names_update ledger name _
  | use name => exact names_update ledger name _
  | depend owner name =>
    have hdepend : (ledger.book (.depend owner name)).names =
        addName (ledger.update name id).names owner := names_update _ owner _
    rw [hdepend, names_update]
    rfl

/-- The names stand in the order in which the bookings first mention them. -/
theorem names_bookAll (ledger : Ledger) (bookings : List Booking) :
    (ledger.bookAll bookings).names =
      addNames ledger.names (bookings.flatMap Booking.names) := by
  induction bookings generalizing ledger with
  | nil => rfl
  | cons booking rest ih =>
    rw [bookAll_cons, ih, names_book, List.flatMap_cons, addNames_append]

theorem isSome_record?_bookAll (ledger : Ledger) (bookings : List Booking) (name : String) :
    ((ledger.bookAll bookings).record? name).isSome = true ↔
      (ledger.record? name).isSome = true ∨ ∃ booking ∈ bookings, name ∈ booking.names := by
  rw [isSome_record?_iff, isSome_record?_iff, names_bookAll, mem_addNames, List.mem_flatMap]

end Ledger

end ComponentGraph
