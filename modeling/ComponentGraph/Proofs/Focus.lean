import ComponentGraph.Proofs.Parallel

/-!
A focus only filters edges. With a focus, a declaration takes uses only if its name has the focus as
a part; the files that are opened, what is said about them and where names are declared are the same
as without.

The two settings are parallel in declarations and in the dependencies of declarations in focus
(`parallel_focus`), which gives everything that depends on an order. What is left are the uses. What
is imported counts whatever the active declaration is, an element only where a declaration
takes it, so a focus takes away exactly the elements that stand in declarations out of focus
(`count_scanBookings_focus`).
-/

set_option autoImplicit false
set_option relaxedAutoImplicit false

namespace ComponentGraph.Journal

open Analysis

/-! ### Declarations in focus -/

theorem takesUses_focus (options : Options) {focus : String} (hfocus : focus ≠ "") :
    takesUses { options with focusComponent := focus } =
      fun name ↦ Text.Search.contains name focus := by
  funext name
  simp [takesUses, Options.focus?, hfocus]

theorem takesUses_unfocused (options : Options) :
    takesUses { options with focusComponent := "" } = fun _ ↦ true := by
  funext name
  simp [takesUses, Options.focus?]

theorem owner?_focus (options : Options) {focus : String} (hfocus : focus ≠ "")
    (last : Option String) :
    owner? (activeOf { options with focusComponent := focus } last) =
      last.filter fun name ↦ Text.Search.contains name focus := by
  rw [owner?_activeOf, takesUses_focus options hfocus]

theorem owner?_unfocused (options : Options) (last : Option String) :
    owner? (activeOf { options with focusComponent := "" } last) = last := by
  rw [owner?_activeOf, takesUses_unfocused]
  cases last <;> rfl

/-- The bookings that a focus does not touch: declarations, and the dependencies of declarations in
focus. -/
def inFocus (focus : String) : Ledger.Booking → Bool
  | .declare _ _ => true
  | .use _ => false
  | .depend owner _ => Text.Search.contains owner focus

theorem filter_creditBookings_inFocus (focus name : String) (last : Option String) :
    (creditBookings (last.filter fun owner ↦ Text.Search.contains owner focus) name).filter
        (inFocus focus) =
      (creditBookings last name).filter (inFocus focus) := by
  cases last with
  | none => rfl
  | some owner =>
    by_cases hcontains : Text.Search.contains owner focus = true
    · simp [Option.filter, hcontains]
    · simp [Option.filter, hcontains, creditBookings, inFocus]

/-- A focus leaves declarations and the dependencies of declarations in focus alone. -/
theorem parallel_focus (files : Files) (options : Options) {focus : String} (hfocus : focus ≠ "") :
    Parallel (inFocus focus) files files { options with focusComponent := "" }
      { options with focusComponent := focus } where
  events _ := rfl
  target _ _ := rfl
  importDepth := rfl
  bookings path last event := by
    cases event with
    | declared name => rfl
    | rendered name =>
      simp only [eventBookings, owner?_focus options hfocus, owner?_unfocused]
      cases last with
      | none => rfl
      | some owner =>
        by_cases hcontains : Text.Search.contains owner focus = true
        · simp [Option.filter, hcontains]
        · simp [Option.filter, hcontains, creditBookings, inFocus]
    | imported source names =>
      have hcounts : countsImport { options with focusComponent := focus } source =
          countsImport { options with focusComponent := "" } source := rfl
      simp only [eventBookings, owner?_focus options hfocus, owner?_unfocused, hcounts]
      by_cases hcounted : countsImport { options with focusComponent := "" } source = true
      · rw [if_pos hcounted, if_pos hcounted, List.filter_flatMap, List.filter_flatMap]
        simp only [filter_creditBookings_inFocus]
      · rw [if_neg hcounted, if_neg hcounted]

/-- A dependency is only booked for a declaration that takes uses. -/
theorem takesUses_of_depend {options : Options} {path : Path} (last : Option String)
    {events : List Source.Event} {owner name : String}
    (hdepend : .depend owner name ∈ scanBookings options path (activeOf options last) events) :
    takesUses options owner = true := by
  induction events generalizing last with
  | nil => cases hdepend
  | cons event events ih =>
    rw [scanBookings, List.mem_append, activeAfter_activeOf] at hdepend
    rcases hdepend with hhere | hlater
    · have howner := (depend_mem_eventBookings hhere).1
      rw [owner?_activeOf, Option.filter_eq_some_iff] at howner
      exact howner.2
    · exact ih _ hlater

/-! ### Elements out of focus -/

/-- Whether an event renders a name while the declaration that was made last is out of focus. -/
def rendersOutOfFocus (focus name : String) (last : Option String) : Source.Event → Bool
  | .rendered rendered =>
      rendered = name && last.any fun owner ↦ !Text.Search.contains owner focus
  | _ => false

/-- How often events render a name while the declaration that was made last is out of focus. -/
def rendersLost (focus name : String) : Option String → List Source.Event → Nat
  | _, [] => 0
  | last, event :: events =>
      (if rendersOutOfFocus focus name last event then 1 else 0) +
        rendersLost focus name (lastAfter last event) events

theorem count_eventBookings_focus (options : Options) {focus : String} (hfocus : focus ≠ "")
    (path : Path) (name : String) (last : Option String) (event : Source.Event) :
    (eventBookings { options with focusComponent := focus } path
        (activeOf { options with focusComponent := focus } last) event).count (.use name) +
      (if rendersOutOfFocus focus name last event then 1 else 0) =
    (eventBookings { options with focusComponent := "" } path
        (activeOf { options with focusComponent := "" } last) event).count (.use name) := by
  cases event with
  | declared declared => simp [eventBookings, rendersOutOfFocus]
  | rendered rendered =>
    simp only [eventBookings, owner?_focus options hfocus, owner?_unfocused, rendersOutOfFocus]
    cases last with
    | none => simp
    | some owner =>
      by_cases hcontains : Text.Search.contains owner focus = true
      · simp [Option.filter, hcontains]
      · simp [Option.filter, hcontains, count_use_creditBookings]
  | imported source names =>
    have hcounts : countsImport { options with focusComponent := focus } source =
        countsImport { options with focusComponent := "" } source := rfl
    simp only [eventBookings, rendersOutOfFocus, hcounts]
    by_cases hcounted : countsImport { options with focusComponent := "" } source = true
    · simp [hcounted, count_use_flatMap_creditBookings]
    · simp [hcounted]

/-- The uses that a focus takes away from events are the elements out of focus. -/
theorem count_scanBookings_focus (options : Options) {focus : String} (hfocus : focus ≠ "")
    (path : Path) (name : String) (last : Option String) (events : List Source.Event) :
    (scanBookings { options with focusComponent := focus } path
        (activeOf { options with focusComponent := focus } last) events).count (.use name) +
      rendersLost focus name last events =
    (scanBookings { options with focusComponent := "" } path
        (activeOf { options with focusComponent := "" } last) events).count (.use name) := by
  induction events generalizing last with
  | nil => rfl
  | cons event events ih =>
    have hhere := count_eventBookings_focus options hfocus path name last event
    have hlater := ih (lastAfter last event)
    rw [scanBookings, scanBookings, rendersLost, List.count_append, List.count_append,
      activeAfter_activeOf, activeAfter_activeOf]
    omega

/-! ### Two analyses -/

/-- Analyses files one after the other, each as a file of the project, into an empty ledger. -/
def analyzeAll (files : Files) (options : Options) (paths : List Path) : Ledger :=
  paths.foldl (fun ledger path ↦ analyze files options path 0 ledger) {}

theorem analyzeAll_eq (files : Files) (options : Options) (paths : List Path) :
    analyzeAll files options paths = runAgenda files options (paths.map (.visit · 0)) {} := by
  rw [runAgenda, List.foldl_map]
  rfl

theorem initial_visits (options : Options) (paths : List Path) :
    ∀ task ∈ paths.map (Task.visit · 0), task.Initial options := by
  intro task htask
  obtain ⟨path, _, rfl⟩ := List.mem_map.mp htask
  exact Nat.zero_le _

/-- The ledger of an analysis with a focus, compared with the one of the same analysis without. -/
structure EdgesFiltered (files : Files) (focus : String) (focused whole : Ledger) : Prop where
  /-- The same files are opened, with the same diagnostics. -/
  opened : SameFiles focused whole
  /-- Every name has the same source. -/
  source : ∀ name, (focused.recordOf name).source = (whole.recordOf name).source
  /-- A declaration in focus has the same dependencies in the same order. -/
  kept : ∀ owner, Text.Search.contains owner focus = true →
    (focused.recordOf owner).dependencies = (whole.recordOf owner).dependencies
  /-- Any other declaration has none. -/
  dropped : ∀ owner, Text.Search.contains owner focus = false →
    (focused.recordOf owner).dependencies = []
  /-- A name that is met with the focus is met without it, and has the same kind. -/
  known : ∀ name, (focused.record? name).isSome = true → (whole.record? name).isSome = true ∧
    (focused.recordOf name).kind = (whole.recordOf name).kind
  /-- The uses that are missing are the elements out of focus, over all parsed files. -/
  uses : ∀ name, (focused.recordOf name).uses +
    (whole.parsed.map fun path ↦ rendersLost focus name none (eventsOf files path)).sum =
      (whole.recordOf name).uses

section Focused

variable (files : Files) (options : Options) {focus : String} (hfocus : focus ≠ "")
  {agenda : List Task}

include hfocus

theorem dependencies_in_focus
    (hinitial : ∀ task ∈ agenda, task.Initial { options with focusComponent := "" })
    {owner : String} (hcontains : Text.Search.contains owner focus = true) :
    ((runAgenda files { options with focusComponent := focus } agenda {}).recordOf
        owner).dependencies =
      ((runAgenda files { options with focusComponent := "" } agenda {}).recordOf
        owner).dependencies := by
  have hpick (booking : Ledger.Booking) (hdrop : inFocus focus booking = false) :
      booking.reference? owner = none := by
    cases booking with
    | declare | use => rfl
    | depend dependent name =>
      refine if_neg fun hsame ↦ ?_
      rw [inFocus, hsame, hcontains] at hdrop
      cases hdrop
  rw [recordOf_runAgenda, recordOf_runAgenda, Ledger.recordOf_bookAll, Ledger.recordOf_bookAll,
    (parallel_focus files options hfocus).filterMap_booked hinitial hpick]

theorem dependencies_out_of_focus {ledger : Ledger}
    (hbalanced : Balanced files { options with focusComponent := focus } ledger) {owner : String}
    (hcontains : Text.Search.contains owner focus = false) :
    (ledger.recordOf owner).dependencies = [] := by
  refine List.eq_nil_iff_forall_not_mem.mpr fun name hname ↦ ?_
  obtain ⟨path, _, hdepend⟩ := (hbalanced.dependencies owner name).mp hname
  have htakes := takesUses_of_depend none hdepend
  rw [takesUses_focus options hfocus] at htakes
  exact Bool.false_ne_true (hcontains.symm.trans htakes)

theorem usesIn_focus (path : Path) (name : String) :
    usesIn files { options with focusComponent := focus } path name +
        rendersLost focus name none (eventsOf files path) =
      usesIn files { options with focusComponent := "" } path name :=
  count_scanBookings_focus options hfocus path name none (eventsOf files path)

end Focused

/-- A focus only filters edges, whatever files are analysed. -/
theorem focus_filters_edges (parse : Source.Parser) (tree : FileTree) (options : Options)
    (focus : String) (hfocus : focus ≠ "") (paths : List Path) :
    EdgesFiltered (.ofTree parse tree) focus
      (analyzeAll (.ofTree parse tree) { options with focusComponent := focus } paths)
      (analyzeAll (.ofTree parse tree) { options with focusComponent := "" } paths) := by
  rw [analyzeAll_eq, analyzeAll_eq]
  have hparallel := parallel_focus (.ofTree parse tree) options hfocus
  have hinitial := initial_visits { options with focusComponent := "" } paths
  have hopened := hparallel.sameFiles hinitial
  have hfocused : Balanced (.ofTree parse tree) _ _ :=
    balanced_of_initial (initial_visits { options with focusComponent := focus } paths)
  have hwhole : Balanced (.ofTree parse tree) _ _ := balanced_of_initial hinitial
  have hlost := usesIn_focus (.ofTree parse tree) options hfocus
  refine
    { opened := hopened
      source := hparallel.source_runAgenda hinitial fun _ _ ↦ rfl
      kept := fun owner ↦ dependencies_in_focus _ options hfocus hinitial
      dropped := fun owner ↦ dependencies_out_of_focus _ options hfocus hfocused
      known := fun name hknown ↦ ⟨?_, ?_⟩
      uses := fun name ↦ ?_ }
  · exact hfocused.known_of_usesIn_le hwhole hopened.parsed
      (fun path ↦ Nat.le.intro (hlost path name)) hknown
  · rw [kind_runAgenda, kind_runAgenda]
  · rw [hfocused.uses, hwhole.uses, hopened.parsed, ← List.sum_map_add]
    simp only [hlost]

/-- Two files that import each other. The first has a declaration in focus and one out of focus. -/
def gallery : FileTree where
  root := .directory [
    ("Page.tsx", .file (.text ("import \x7b Card \x7d from './Card'; " ++
      "function Page() \x7b return <Card/> \x7d function Frame() \x7b return <Card/> \x7d"))),
    ("Card.tsx", .file (.text
      "import \x7b Page \x7d from './Page'; function Card() \x7b return <Page/> \x7d"))]
  workingDirectory := []

theorem focus_filters_edges_gallery :
    "Page" ≠ "" ∧
    EdgesFiltered (.ofTree Source.parse gallery) "Page"
      (analyzeAll (.ofTree Source.parse gallery) { focusComponent := "Page" } [⟨"/Page.tsx"⟩])
      (analyzeAll (.ofTree Source.parse gallery) {} [⟨"/Page.tsx"⟩]) ∧
    ((analyzeAll (.ofTree Source.parse gallery) {} [⟨"/Page.tsx"⟩]).recordOf "Frame").dependencies =
      ["Card"] ∧
    ((analyzeAll (.ofTree Source.parse gallery) {} [⟨"/Page.tsx"⟩]).recordOf "Card").uses = 3 ∧
    rendersLost "Page" "Card" none (eventsOf (.ofTree Source.parse gallery) ⟨"/Page.tsx"⟩) = 1 :=
  ⟨by decide, focus_filters_edges Source.parse gallery {} "Page" (by decide) [⟨"/Page.tsx"⟩],
    by decide +kernel⟩

end ComponentGraph.Journal
