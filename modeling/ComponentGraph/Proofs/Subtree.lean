import ComponentGraph.Proofs.Judgement
import ComponentGraph.Proofs.Lookup

/-!
A project seen from its root.

Every question that an analysis asks about a path below the root of a project is answered by the
project and the names below the root. A text without slashes is part of a path if it is part of one
of the names (`contains_pathOf`), so it makes no difference what stands above the root if it is not
part of that. What a path leads to is what the project has in that place (`Rooted.toOption_entry`),
and what a survey comes across is what the project has below its root (`Rooted.surveyAgenda_eq`).

That the system takes a path is the one thing that depends on what stands above, and only by its
length. A project fits below a root if none of its paths is too long there (`Fits`).
-/

set_option autoImplicit false
set_option relaxedAutoImplicit false

namespace ComponentGraph

open FileTree (pathOf)

/-! ### Parts of names -/

namespace Text.Search

theorem prefix_append_cons_iff {pattern front rest : List Char} {mark : Char}
    (hmark : mark ∉ pattern) : pattern <+: front ++ mark :: rest ↔ pattern <+: front := by
  constructor
  · intro hbegins
    rcases List.prefix_or_prefix_of_prefix hbegins (List.prefix_append front _) with
      hshort | ⟨more, rfl⟩
    · exact hshort
    · cases more with
      | nil => rw [List.append_nil]
      | cons first later =>
        obtain ⟨hfirst, _⟩ :=
          List.cons_prefix_cons.mp ((List.prefix_append_right_inj front).mp hbegins)
        exact absurd (by simp [hfirst]) hmark
  · exact fun hbegins ↦ hbegins.trans (List.prefix_append front _)

/-- A pattern without the mark stands on one side of it. -/
theorem infix_append_cons_iff {pattern front rest : List Char} {mark : Char}
    (hmark : mark ∉ pattern) :
    pattern <:+: front ++ mark :: rest ↔ pattern <:+: front ∨ pattern <:+: rest := by
  induction front with
  | nil =>
    have hhere : pattern <+: mark :: rest ↔ pattern <:+: [] := by
      rw [← List.nil_append (mark :: rest), prefix_append_cons_iff hmark, List.prefix_nil,
        List.infix_nil]
    rw [List.nil_append, List.infix_cons_iff, hhere]
  | cons character front ih =>
    have hhere : pattern <+: character :: (front ++ mark :: rest) ↔
        pattern <+: character :: front := by
      rw [← List.cons_append, prefix_append_cons_iff hmark]
    rw [List.cons_append, List.infix_cons_iff, hhere, ih, List.infix_cons_iff, or_assoc]

theorem infix_joinSegments_iff {pattern : List Char} (hslash : '/' ∉ pattern)
    (hnonempty : pattern ≠ []) (names : List String) :
    pattern <:+: (Path.joinSegments names).toList ↔ ∃ name ∈ names, pattern <:+: name.toList := by
  induction names with
  | nil => simp [Path.joinSegments, hnonempty]
  | cons name rest ih =>
    by_cases hrest : rest = []
    · subst hrest
      simp [Path.joinSegments]
    · have htext : (Path.joinSegments (name :: rest)).toList =
          name.toList ++ '/' :: (Path.joinSegments rest).toList := by
        rw [Path.joinSegments_cons name hrest]
        simp
      rw [htext, infix_append_cons_iff hslash, ih]
      simp

/-- A text is part of the path of a place if it is part of a name. Assumes: it holds no slash and
is not empty. -/
theorem contains_pathOf {pattern : String} (hslash : '/' ∉ pattern.toList)
    (hnonempty : pattern ≠ "") (names : Location) :
    contains (pathOf names).text pattern = names.any fun name ↦ contains name pattern := by
  have hcharacters : pattern.toList ≠ [] := by simpa using hnonempty
  have htext : (pathOf names).text.toList = [] ++ '/' :: (Path.joinSegments names).toList := by
    rw [Path.text_pathOf, String.toList_append]
    rfl
  rw [Bool.eq_iff_iff, contains_iff, htext, infix_append_cons_iff hslash, List.infix_nil,
    or_iff_right hcharacters, infix_joinSegments_iff hslash hcharacters, List.any_eq_true]
  simp only [contains_iff]

/-- What stands above a place does not matter to a search if the text is not part of it. -/
theorem contains_pathOf_append {pattern : String} (hslash : '/' ∉ pattern.toList)
    (hnonempty : pattern ≠ "") {above : Location}
    (habove : contains (pathOf above).text pattern = false) (names : Location) :
    contains (pathOf (above ++ names)).text pattern =
      names.any fun name ↦ contains name pattern := by
  rw [contains_pathOf hslash hnonempty] at habove ⊢
  rw [List.any_append, habove, Bool.false_or]

end Text.Search

/-! ### The places of a project -/

namespace FileTree

namespace Entry

mutual

/-- The places in an entry, its own included. -/
def places : Entry → List Location
  | .file _ => [[]]
  | .link _ => [[]]
  | .directory entries => [] :: placesNamed entries

/-- The places in named entries. -/
def placesNamed : List (String × Entry) → List Location
  | [] => []
  | (name, entry) :: rest => (places entry).map (name :: ·) ++ placesNamed rest

end

theorem cons_mem_placesNamed {entries : List (String × Entry)} {name : String} {entry : Entry}
    (hentry : (name, entry) ∈ entries) {names : Location} (hnames : names ∈ entry.places) :
    name :: names ∈ placesNamed entries := by
  induction entries with
  | nil => cases hentry
  | cons named rest ih =>
    rw [placesNamed, List.mem_append]
    rcases List.mem_cons.mp hentry with rfl | hlater
    · exact Or.inl (List.mem_map_of_mem hnames)
    · exact Or.inr (ih hlater)

/-- Where something is found there is a place. -/
theorem mem_places_of_find? {entry found : Entry} {names : Location}
    (hfound : entry.find? names = some found) : names ∈ entry.places := by
  induction names generalizing entry with
  | nil => cases entry <;> simp [places]
  | cons name rest ih =>
    cases entry with
    | file content => cases hfound
    | link target => cases hfound
    | directory entries =>
      rw [find?, child?] at hfound
      cases hlookup : entries.lookup name with
      | none => simp [hlookup] at hfound
      | some next =>
        simp only [hlookup] at hfound
        exact List.mem_cons_of_mem _ (cons_mem_placesNamed (mem_of_lookup hlookup) (ih hfound))

theorem directoryCount_le_of_mem {entries : List (String × Entry)} {named : String × Entry}
    (hnamed : named ∈ entries) : named.2.directoryCount ≤ directoryCounts entries := by
  induction entries with
  | nil => cases hnamed
  | cons first rest ih =>
    rw [directoryCounts]
    rcases List.mem_cons.mp hnamed with rfl | hlater
    · exact Nat.le_add_right _ _
    · exact (ih hlater).trans (Nat.le_add_left _ _)

theorem directoryCount_le_of_find? {entry found : Entry} {names : Location}
    (hfound : entry.find? names = some found) : found.directoryCount ≤ entry.directoryCount := by
  induction names generalizing entry with
  | nil =>
    cases hfound
    exact Nat.le_refl _
  | cons name rest ih =>
    cases entry with
    | file content => cases hfound
    | link target => cases hfound
    | directory entries =>
      rw [find?, child?] at hfound
      cases hlookup : entries.lookup name with
      | none => simp [hlookup] at hfound
      | some next =>
        simp only [hlookup] at hfound
        have hbelow := directoryCount_le_of_mem (mem_of_lookup hlookup)
        rw [directoryCount]
        exact (ih hfound).trans (hbelow.trans (Nat.le_succ _))

end Entry

/-- What the system gives at a place in a project: it has to take the names. -/
def Entry.reach? (project : Entry) (names : Location) : Option Entry :=
  if names.all isAcceptedName then project.find? names else none

/-- The text that an entry holds. -/
def Entry.text? : Entry → Option String
  | .file (.text text) => some text
  | _ => none

theorem hasFile_eq_any (tree : FileTree) (path : Path) :
    tree.hasFile path = (tree.entry path).toOption.any Entry.isFile := by
  rw [hasFile]
  cases tree.entry path <;> rfl

theorem toOption_readText (tree : FileTree) (path : Path) :
    (tree.readText path).toOption = (tree.entry path).toOption.bind Entry.text? := by
  rw [readText]
  cases tree.entry path with
  | error fault => rfl
  | ok found =>
    cases found with
    | directory entries => rfl
    | link target => rfl
    | file content => cases content <;> rfl

/-- A project that stands at a place in a tree, with no links in it. -/
structure Rooted (tree : FileTree) (above : Location) (project : Entry) : Prop where
  wellNamed : tree.isWellNamed = true
  found : tree.root.find? above = some project
  isDirectory : ∃ entries, project = .directory entries
  located : tree.locate (pathOf above) = .ok above
  free : project.allBelow (fun _ entry ↦ !entry.isLink) = true

/-- The system takes the path of everything in a project that stands below these names. -/
def Fits (above : Location) (project : Entry) : Prop :=
  ∀ names entry, project.find? names = some entry →
    (pathOf (above ++ names)).text.utf8ByteSize ≤ pathLimit

/-- The system takes the paths of all directories of a project, so each of them can be read. -/
def Readable (above : Location) (project : Entry) : Prop :=
  ∀ names entries, project.find? names = some (.directory entries) →
    (pathOf (above ++ names)).text.utf8ByteSize ≤ pathLimit

theorem Fits.readable {above : Location} {project : Entry} (hfits : Fits above project) :
    Readable above project :=
  fun names entries ↦ hfits names (.directory entries)

namespace Rooted

variable {tree : FileTree} {above : Location} {project : Entry}
  (hrooted : Rooted tree above project)

include hrooted

theorem proper_above : ∀ name ∈ above, Path.isProperName name = true :=
  Entry.isProperName_of_find? hrooted.wellNamed hrooted.found

theorem find?_append (names : Location) :
    tree.root.find? (above ++ names) = project.find? names := by
  rw [Entry.find?_append, hrooted.found]
  rfl

theorem proper_below {names : Location} {entry : Entry}
    (hfound : project.find? names = some entry) :
    ∀ name ∈ names, Path.isProperName name = true := by
  rw [← hrooted.find?_append] at hfound
  exact (List.forall_mem_append.mp (Entry.isProperName_of_find? hrooted.wellNamed hfound)).2

theorem proper_append {names : Location} (hnames : ∀ name ∈ names, Path.isProperName name = true) :
    ∀ name ∈ above ++ names, Path.isProperName name = true :=
  List.forall_mem_append.mpr ⟨hrooted.proper_above, hnames⟩

theorem straightTo (names : Location) : tree.root.StraightTo (above ++ names) := by
  obtain ⟨entries, hentries⟩ := hrooted.isDirectory
  have hfound := hrooted.found
  rw [hentries] at hfound
  refine Entry.StraightTo.append hfound (Entry.straightTo_of_free ?_ names)
  rw [← hentries]
  exact hrooted.free

theorem accepted_above : above.all isAcceptedName = true := by
  by_cases hnonempty : above = []
  · rw [hnonempty, List.all_nil]
  · have hstraight := hrooted.straightTo []
    rw [List.append_nil] at hstraight
    have haddressable :=
      ((locate_pathOf_iff hnonempty hrooted.proper_above hstraight).mp hrooted.located).2.1
    exact (Bool.and_eq_true_iff.mp haddressable).1

/-- The system takes the path of an entry of the project if it takes the names below the root. -/
theorem isAddressable_append (hfits : Fits above project) {names : Location} {entry : Entry}
    (hfound : project.find? names = some entry) :
    isAddressable (above ++ names) = names.all isAcceptedName := by
  have hsize := hfits names entry hfound
  rw [isAddressable, List.all_append, hrooted.accepted_above, Bool.true_and, decide_eq_true hsize,
    Bool.and_true]

/-- What a path below the root leads to is what the project has there. -/
theorem toOption_entry (hfits : Fits above project) {names : Location} (hnonempty : names ≠ [])
    (hnames : ∀ name ∈ names, Path.isProperName name = true) :
    (tree.entry (pathOf (above ++ names))).toOption = project.reach? names := by
  have hentry (found : Entry) : tree.entry (pathOf (above ++ names)) = .ok found ↔
      isAddressable (above ++ names) = true ∧ project.find? names = some found := by
    rw [entry_pathOf_iff (List.append_ne_nil_of_right_ne_nil above hnonempty)
      (hrooted.proper_append hnames) (hrooted.straightTo names), hrooted.find?_append]
  rw [Entry.reach?]
  cases hfound : project.find? names with
  | none =>
    rw [ite_self]
    cases hlookup : tree.entry (pathOf (above ++ names)) with
    | error fault => rfl
    | ok found =>
      have hpresent := ((hentry found).mp hlookup).2
      rw [hfound] at hpresent
      cases hpresent
  | some found =>
    have haddressable := hrooted.isAddressable_append hfits hfound
    by_cases haccepted : names.all isAcceptedName = true
    · rw [if_pos haccepted, (hentry found).mpr ⟨haddressable.trans haccepted, hfound⟩]
      rfl
    · rw [if_neg haccepted]
      cases hlookup : tree.entry (pathOf (above ++ names)) with
      | error fault => rfl
      | ok other => exact absurd (haddressable.symm.trans ((hentry other).mp hlookup).1) haccepted

end Rooted

/-! ### Surveys below a root -/

/-- Whether a survey keeps out an entry below the root, whose name comes last. -/
def isExcludedBelow (place : Location) (name : String) : Bool :=
  (place.any fun other ↦ Text.Search.contains other "node_modules") ||
    Text.Search.beginsWith name "." ||
      Survey.excludedParts.any (Text.Search.contains name)

/-- Whether a survey analyses a file below the root. -/
def isAnalysedBelow (options : Options) (place : Location) : Bool :=
  Specifier.hasSourceExtension (place.getLastD "") &&
    match options.focus? with
    | some focus => place.any fun name ↦ Text.Search.contains name focus
    | none => true

/-- The files below an entry that a survey comes across, each by its place from the root. -/
def Entry.filesBelow : Nat → Entry → Location → List Location
  | 0, _, _ => []
  | depth + 1, entry, names =>
      (sortedNames entry []).flatMap fun name ↦
        if isExcludedBelow (names ++ [name]) name then []
        else
          match entry.child? name with
          | some (.file _) => [names ++ [name]]
          | some (.directory entries) => filesBelow depth (.directory entries) (names ++ [name])
          | _ => []

/-- What an analysis looks for in paths is not part of what stands above the root. -/
structure Unremarkable (options : Options) (above : Location) : Prop where
  packages : Text.Search.contains (pathOf above).text "node_modules" = false
  focus : ∀ focus, options.focus? = some focus →
    '/' ∉ focus.toList ∧ Text.Search.contains (pathOf above).text focus = false

section Survey

variable {options : Options} {above : Location} (habove : Unremarkable options above)

include habove

theorem contains_packages_append (names : Location) :
    Text.Search.contains (pathOf (above ++ names)).text "node_modules" =
      names.any fun name ↦ Text.Search.contains name "node_modules" :=
  Text.Search.contains_pathOf_append (by decide) (by decide) habove.packages names

theorem isExcluded_append (names : Location) (name : String) :
    Survey.isExcluded [] (pathOf (above ++ names)) name = isExcludedBelow names name := by
  rw [Survey.isExcluded, contains_packages_append habove, List.any_nil, Bool.or_false,
    isExcludedBelow]

theorem isAnalysed_append (hproper : ∀ name ∈ above, Path.isProperName name = true)
    {names : Location} (hnonempty : names ≠ [])
    (hnames : ∀ name ∈ names, Path.isProperName name = true) :
    Survey.isAnalysed options (pathOf (above ++ names)) = isAnalysedBelow options names := by
  have hname : (pathOf (above ++ names)).fileName? = some (names.getLastD "") := by
    have hlast : (above ++ names).getLast? = some (names.getLast hnonempty) := by
      rw [List.getLast?_append_of_ne_nil _ hnonempty, List.getLast?_eq_some_getLast]
    have hdots := (Path.isProperName_iff.mp (hnames _ (List.getLast_mem hnonempty))).2.2.1
    rw [Path.fileName?, Path.key_pathOf (List.forall_mem_append.mpr ⟨hproper, hnames⟩)]
    dsimp only
    rw [hlast]
    dsimp only
    rw [if_neg (by simpa using hdots), List.getLastD_eq_getLast?,
      List.getLast?_eq_some_getLast hnonempty, Option.getD_some]
  rw [Survey.isAnalysed, Survey.isSourceFile, hname, isAnalysedBelow, Survey.isInFocus]
  cases hfocus : options.focus? with
  | none => rfl
  | some focus =>
    obtain ⟨hslash, hnowhere⟩ := habove.focus focus hfocus
    have hfocused : focus ≠ "" := by
      rintro rfl
      simp [Options.focus?] at hfocus
    dsimp only
    rw [Text.Search.contains_pathOf_append hslash hfocused hnowhere]

end Survey

section Walk

variable {tree : FileTree} {options : Options} {above : Location} {project : Entry}
  (hrooted : Rooted tree above project) (habove : Unremarkable options above)

include hrooted

theorem Rooted.sortedNames_append {names : Location} {entry : Entry}
    (hfound : project.find? names = some entry) :
    sortedNames tree.root (above ++ names) = sortedNames entry [] := by
  rw [sortedNames, hrooted.find?_append, hfound, sortedNames, Entry.find?]

include habove

/-- What the walk makes of one name below the root. Assumes: what it makes of the directory of that
name, if it is one. -/
theorem Rooted.filterMap_sightName {names : Location} {entries : List (String × Entry)}
    (hfound : project.find? names = some (.directory entries)) {name : String}
    (hname : Path.isProperName name = true) {enter : Path → Location → List Sighting}
    {below : Entry → Location → List Location}
    (henter : ∀ children, entries.lookup name = some (.directory children) →
      (enter (pathOf (above ++ (names ++ [name]))) (above ++ (names ++ [name]))).filterMap
          (Journal.taskOf? options) =
        ((below (.directory children) (names ++ [name])).filter (isAnalysedBelow options)).map
          fun place ↦ .visit (pathOf (above ++ place)) 0)
    (opened : List OpenDirectory) :
    (sightName tree (Survey.isExcluded []) enter opened (pathOf (above ++ names))
        (above ++ names) name).filterMap (Journal.taskOf? options) =
      ((if isExcludedBelow (names ++ [name]) name then []
        else
          match (Entry.directory entries).child? name with
          | some (.file _) => [names ++ [name]]
          | some (.directory children) => below (.directory children) (names ++ [name])
          | _ => []).filter (isAnalysedBelow options)).map
        fun place ↦ .visit (pathOf (above ++ place)) 0 := by
  have hnames := hrooted.proper_below hfound
  have hplace : ∀ other ∈ names ++ [name], Path.isProperName other = true :=
    List.forall_mem_append.mpr ⟨hnames, List.forall_mem_singleton.mpr hname⟩
  have hjoin : (pathOf (above ++ names)).join name = pathOf (above ++ (names ++ [name])) := by
    rw [Path.pathOf_join (hrooted.proper_append hnames) hname, List.append_assoc]
  have hchild : tree.root.find? (above ++ names ++ [name]) = entries.lookup name := by
    rw [List.append_assoc, hrooted.find?_append, Entry.find?_concat, hfound]
    rfl
  have hanalysed : Survey.isAnalysed options (pathOf (above ++ (names ++ [name]))) =
      isAnalysedBelow options (names ++ [name]) :=
    isAnalysed_append habove hrooted.proper_above (List.concat_ne_nil name names) hplace
  have hlookup : (Entry.directory entries).child? name = entries.lookup name := rfl
  rw [sightName, hchild, hjoin, hlookup]
  dsimp only
  rw [isExcluded_append habove]
  cases hentry : entries.lookup name with
  | none => simp
  | some entry =>
    cases entry with
    | link target =>
      -- there are no links below the root
      have hfree := Entry.allBelow_of_find? hrooted.free hfound
      rw [Entry.allBelow, Entry.allNamed_iff] at hfree
      exact absurd (hfree _ (Entry.mem_of_lookup hentry)).1 Bool.false_ne_true
    | file content =>
      dsimp only
      split
      · rfl
      · by_cases hchosen : isAnalysedBelow options (names ++ [name]) = true
        · simp [Journal.taskOf?, hanalysed, hchosen]
        · simp [Journal.taskOf?, hanalysed, hchosen]
    | directory children =>
      dsimp only
      split
      · rfl
      · rw [List.filterMap_cons_none rfl, List.append_assoc, henter children hentry]

variable (hreadable : Readable above project)

include hreadable

/-- The walk below a directory of the project, as far as the agenda of a survey goes, depends on the
project only. Assumes: neither side stops before the deepest directory. -/
theorem Rooted.filterMap_walkBelow {names : Location} {entries : List (String × Entry)}
    (hfound : project.find? names = some (.directory entries)) {depth depth' : Nat}
    (hdepth : (Entry.directory entries).directoryCount ≤ depth)
    (hdepth' : (Entry.directory entries).directoryCount ≤ depth') (opened : List OpenDirectory) :
    (walkBelow tree (Survey.isExcluded []) depth opened (pathOf (above ++ names))
        (above ++ names)).filterMap (Journal.taskOf? options) =
      (((Entry.directory entries).filesBelow depth' names).filter
        (isAnalysedBelow options)).map fun place ↦ .visit (pathOf (above ++ place)) 0 := by
  induction depth generalizing depth' names entries opened with
  | zero => exact absurd hdepth (Nat.not_succ_le_zero _)
  | succ depth ih =>
    cases depth' with
    | zero => exact absurd hdepth' (Nat.not_succ_le_zero _)
    | succ depth' =>
      rw [walkBelow, if_neg (Nat.not_lt.mpr (hreadable names entries hfound)), Entry.filesBelow,
        hrooted.sortedNames_append hfound, List.filterMap_flatMap, List.filter_flatMap,
        List.map_flatMap]
      refine List.flatMap_congr fun name hname ↦ ?_
      have hproper : Path.isProperName name = true := by
        rw [← hrooted.sortedNames_append hfound] at hname
        exact isProperName_of_mem_sortedNames hrooted.wellNamed hname
      refine hrooted.filterMap_sightName habove hfound hproper (fun children hchildren ↦ ?_) _
      have hplace : project.find? (names ++ [name]) = some (.directory children) := by
        rw [Entry.find?_concat, hfound]
        exact hchildren
      have hcount := Entry.directoryCount_le_of_mem (Entry.mem_of_lookup hchildren)
      rw [Entry.directoryCount] at hdepth hdepth'
      dsimp only at hcount
      exact ih hplace (by omega) (by omega) _

/-- The agenda of a survey of the project. -/
theorem Rooted.surveyAgenda_eq (hignores : options.ignores = []) :
    Journal.surveyAgenda tree options (pathOf above) =
      ((project.filesBelow project.directoryCount []).filter (isAnalysedBelow options)).map
        fun place ↦ .visit (pathOf (above ++ place)) 0 := by
  obtain ⟨entries, hentries⟩ := hrooted.isDirectory
  have hfound := hrooted.found
  have hcomplaints : Survey.patternComplaints options = [] := by
    rw [Survey.patternComplaints, hignores, List.filterMap_nil]
  have hpatterns : Survey.patterns options = [] := by
    rw [Survey.patterns, hignores, List.filterMap_nil]
  have hlimit : (Entry.directory entries).directoryCount ≤ tree.depthLimit := by
    have hcount := Entry.directoryCount_le_of_find? hfound
    rw [hentries] at hcount
    rw [depthLimit]
    exact hcount.trans ((Nat.le_succ _).trans (Nat.le_mul_of_pos_left _ (Nat.succ_pos _)))
  have hhere : project.find? [] = some (.directory entries) := by
    rw [hentries]
    rfl
  have hbelow := hrooted.filterMap_walkBelow habove hreadable hhere hlimit (Nat.le_refl _) []
  rw [List.append_nil] at hbelow
  rw [Journal.surveyAgenda, hcomplaints, Survey.sightings, hpatterns, walk, hrooted.located]
  dsimp only
  rw [hfound, hentries]
  dsimp only
  rw [List.map_nil, List.nil_append, List.filterMap_cons_none rfl, hbelow]

end Walk

end FileTree

end ComponentGraph
