import ComponentGraph.Proofs.Parallel

/-!
Imports of packages are counted but never followed. Whether they count is a setting that changes
neither the files that are opened nor the declarations (`parallel_packages`), because a package
leads to no file. A file contributes all the same bookings where they count, and in addition one use
for each significant name that an import of a package binds (`count_scanBookings_packages`).
-/

set_option autoImplicit false
set_option relaxedAutoImplicit false

namespace ComponentGraph.Journal

open Analysis

/-- The options with imports of packages counted or not. -/
def countingPackages (options : Options) (counted : Bool) : Options :=
  { options with includeLibraries := counted }

variable (options : Options)

/-! ### Events -/

theorem countsImport_packages (source : String) :
    countsImport (countingPackages options true) source = true :=
  Bool.or_true _

theorem countsImport_without (source : String) :
    countsImport (countingPackages options false) source = Specifier.isLocal source :=
  Bool.or_false _

/-- Whether a booking is a declaration. -/
def isDeclaration : Ledger.Booking → Bool
  | .declare _ _ => true
  | _ => false

theorem filter_creditBookings_isDeclaration (owner : Option String) (name : String) :
    (creditBookings owner name).filter isDeclaration = [] := by
  cases owner <;> rfl

/-- Counting packages leaves declarations alone, and a package leads to no file. -/
theorem parallel_packages (files : Files) :
    Parallel isDeclaration files files (countingPackages options false)
      (countingPackages options true) where
  events _ := rfl
  target _ _ := rfl
  importDepth := rfl
  bookings path last event := by
    cases event with
    | declared name => rfl
    | rendered name => rfl
    | imported source names =>
      have himport (counted : Bool) :
          (eventBookings (countingPackages options counted) path
            (activeOf (countingPackages options counted) last)
            (.imported source names)).filter isDeclaration = [] := by
        rw [eventBookings]
        split
        · simp [List.filter_flatMap, filter_creditBookings_isDeclaration]
        · rfl
      rw [himport, himport]

/-- How often an event binds a name by an import of a package: an import comes with the significant
names that it binds, by default or one by one. -/
def packageBindings (name : String) : Source.Event → Nat
  | .imported source names => if Specifier.isLocal source then 0 else names.count name
  | _ => 0

theorem count_eventBookings_packages (path : Path) (name : String) (active : Option Active)
    (event : Source.Event) :
    (eventBookings (countingPackages options true) path active event).count (.use name) =
      (eventBookings (countingPackages options false) path active event).count (.use name) +
        packageBindings name event := by
  cases event with
  | declared declared => rfl
  | rendered rendered => rfl
  | imported source names =>
    rw [eventBookings, eventBookings, countsImport_packages, countsImport_without, packageBindings]
    by_cases hlocal : Specifier.isLocal source = true
    · simp [hlocal]
    · simp [hlocal, count_use_flatMap_creditBookings]

/-- Where packages count, a file uses a name once more for every import of a package that binds
it. -/
theorem count_scanBookings_packages (path : Path) (name : String) (last : Option String)
    (events : List Source.Event) :
    (scanBookings (countingPackages options true) path (activeOf options last) events).count
        (.use name) =
      (scanBookings (countingPackages options false) path (activeOf options last) events).count
        (.use name) + (events.map (packageBindings name)).sum := by
  induction events generalizing last with
  | nil => rfl
  | cons event events ih =>
    have hhere := count_eventBookings_packages options path name (activeOf options last) event
    have hlater := ih (lastAfter last event)
    have hactive (counted : Bool) :
        activeAfter (countingPackages options counted) (activeOf options last) event =
          activeOf options (lastAfter last event) :=
      activeAfter_activeOf (countingPackages options counted) last event
    rw [scanBookings, scanBookings, List.count_append, List.count_append, hactive, hactive,
      List.map_cons, List.sum_cons]
    omega

/-- What a file contributes where packages do not count, it contributes where they do. -/
theorem scanBookings_subset_packages (path : Path) (active : Option Active)
    (events : List Source.Event) :
    scanBookings (countingPackages options false) path active events ⊆
      scanBookings (countingPackages options true) path active events := by
  induction events generalizing active with
  | nil => exact List.Subset.refl _
  | cons event events ih =>
    have hhere : eventBookings (countingPackages options false) path active event ⊆
        eventBookings (countingPackages options true) path active event := by
      cases event with
      | declared name => exact List.Subset.refl _
      | rendered name => exact List.Subset.refl _
      | imported source names =>
        rw [eventBookings, eventBookings, countsImport_packages, countsImport_without, if_pos rfl]
        split
        · exact List.Subset.refl _
        · exact List.nil_subset _
    intro booking hbooking
    rw [scanBookings, List.mem_append] at hbooking ⊢
    rcases hbooking with hnow | hlater
    · exact Or.inl (hhere hnow)
    · exact Or.inr (ih _ hlater)

/-! ### Two surveys -/

/-- The ledger of a survey that counts imports of packages, compared with the one of the same survey
without. -/
structure PackagesCounted (files : Files) (counted plain : Ledger) : Prop where
  /-- The same files are opened, with the same diagnostics. -/
  opened : SameFiles counted plain
  /-- Every name has the same source. -/
  source : ∀ name, (counted.recordOf name).source = (plain.recordOf name).source
  /-- A name that is met without packages is met with them, has the same kind and has lost no
  dependency. -/
  known : ∀ name, (plain.record? name).isSome = true → (counted.record? name).isSome = true ∧
    (plain.recordOf name).kind = (counted.recordOf name).kind ∧
      (plain.recordOf name).dependencies ⊆ (counted.recordOf name).dependencies
  /-- The additional uses are the bindings of the name in imports of packages, over all parsed
  files. -/
  uses : ∀ name, (counted.recordOf name).uses = (plain.recordOf name).uses +
    (plain.parsed.map fun path ↦
      ((eventsOf files path).map (packageBindings name)).sum).sum

/-- Imports of packages are counted but never followed. -/
theorem packages_counted_never_followed (parse : Source.Parser) (tree : FileTree)
    (options : Options) (root : Path) :
    PackagesCounted (.ofTree parse tree)
      (Survey.run parse tree { options with includeLibraries := true } root {})
      (Survey.run parse tree { options with includeLibraries := false } root {}) := by
  have hagenda (counted : Bool) :
      surveyAgenda tree (countingPackages options counted) root =
        surveyAgenda tree options root := rfl
  have hsurvey (counted : Bool) :
      Survey.run parse tree { options with includeLibraries := counted } root {} =
        runAgenda (.ofTree parse tree) (countingPackages options counted)
          (surveyAgenda tree options root) {} :=
    survey_run_eq parse tree (countingPackages options counted) root {}
  have hinitial (counted : Bool) :=
    initial_surveyAgenda tree (countingPackages options counted) root
  simp only [hagenda] at hinitial
  have hparallel := parallel_packages options (.ofTree parse tree)
  have hopened := hparallel.sameFiles (hinitial false)
  have hbalanced (counted : Bool) : Balanced (.ofTree parse tree) _ _ :=
    balanced_of_initial (hinitial counted)
  have huses (path : Path) (name : String) :
      usesIn (.ofTree parse tree) (countingPackages options true) path name =
        usesIn (.ofTree parse tree) (countingPackages options false) path name +
          ((eventsOf (.ofTree parse tree) path).map (packageBindings name)).sum :=
    count_scanBookings_packages options path name none _
  rw [hsurvey, hsurvey]
  refine
    { opened := hopened
      source := hparallel.source_runAgenda (hinitial false) fun _ _ ↦ rfl
      known := fun name hknown ↦ ⟨?_, ?_, ?_⟩
      uses := fun name ↦ ?_ }
  · exact (hbalanced false).known_of_usesIn_le (hbalanced true) hopened.parsed.symm
      (fun path ↦ Nat.le.intro (huses path name).symm) hknown
  · rw [kind_runAgenda, kind_runAgenda]
  · intro dependency hdependency
    obtain ⟨path, hpath, hdepend⟩ := ((hbalanced false).dependencies name dependency).mp hdependency
    exact ((hbalanced true).dependencies name dependency).mpr
      ⟨path, hopened.parsed ▸ hpath, scanBookings_subset_packages options path none _ hdepend⟩
  · rw [(hbalanced true).uses, (hbalanced false).uses, hopened.parsed, ← List.sum_map_add]
    simp only [huses]

end ComponentGraph.Journal
