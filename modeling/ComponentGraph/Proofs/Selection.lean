import ComponentGraph.Proofs.Arrangement

/-!
# A survey selects like a filter and a sort

A survey walks depth first, does not enter what is left out, and takes the names of each directory
in order. Here its walk is compared with a selection that knows nothing of walks: of all places in
the project those are taken whose file is wanted (`isWanted`), and they are sorted by the bytes of
their names (`survey_eq_filter_sort`). The root is never left out, whatever its name.

One thing the walk cannot do is to read a directory whose path is longer than the system takes. It
remarks that in the place of the directory and hands over nothing from below, so the selection asks
for readable directories, too (`isReachable`). That this matters is shown by a root of the longest
path (`handed_ne_wanted_of_overlong`).

The proof goes place by place. `Charts` says that a list of tasks is that of the notable places at
a place and below it, in order. What the walk makes of one name charts that name
(`charts_sightName`), and so, by induction on the depth, the walk below a directory charts the
directory (`charts_walkBelow`).
-/

set_option autoImplicit false
set_option relaxedAutoImplicit false

namespace ComponentGraph

namespace Survey

open FileTree Journal

/-! ### What a survey is to select -/

/-- Whether an entry below the root is left out by itself: by the packages in its path, by its name,
or by a pattern of the options that can be read. -/
def isLeftOut (options : Options) (root : Path) (place : Location) : Bool :=
  Text.Search.contains (joined root place).text "node_modules" ||
    place.getLast?.any (fun name ↦
      Text.Search.beginsWith name "." || Text.Search.contains name "test" ||
        Text.Search.contains name "dist") ||
    options.ignores.any fun text ↦
      (Glob.compile? text).toOption.any fun pattern ↦ pattern.accepts (joined root place).text

/-- Whether neither the entry at a place nor a directory between the root and it is left out. The
root itself is never left out. -/
def isKept (options : Options) (root : Path) (place : Location) : Bool :=
  place.inits.all fun front ↦ front.isEmpty || !isLeftOut options root front

/-- Whether a file at a place is one that a survey is to analyse: it has the name of a source file,
the focus, if there is one, is a part of its path, and nothing keeps it out. -/
def isWanted (options : Options) (root : Path) (project : Entry) (place : Location) : Bool :=
  (project.find? place).any Entry.isFile && place.getLast?.any Specifier.hasSourceExtension &&
    options.focus?.all (Text.Search.contains (joined root place).text) &&
    isKept options root place

/-- Whether the path of a place has more bytes than the system takes. -/
def isOverlong (root : Path) (place : Location) : Bool :=
  decide (pathLimit < (joined root place).text.utf8ByteSize)

/-- Whether every directory above a place can be read. -/
def isReachable (root : Path) (place : Location) : Bool :=
  place.inits.all fun above ↦ above == place || !isOverlong root above

/-- Whether a walk comes to a directory that it cannot read. -/
def isUnreadable (options : Options) (root : Path) (project : Entry) (place : Location) : Bool :=
  (project.find? place).any Entry.isDirectory && isOverlong root place &&
    isKept options root place && isReachable root place

/-- Whether a survey has to do with a place: it analyses the file there, or it remarks that the
directory there cannot be read. -/
def isNotable (options : Options) (root : Path) (project : Entry) (place : Location) : Bool :=
  isWanted options root project place && isReachable root place ||
    isUnreadable options root project place

section Judgements

variable {options : Options} {root : Path} {project : Entry} {place : Location}

theorem isKept_iff : isKept options root place = true ↔
    ∀ front, front <+: place → front ≠ [] → isLeftOut options root front = false := by
  simp only [isKept, List.all_eq_true, List.mem_inits, Bool.or_eq_true, List.isEmpty_iff,
    Bool.not_eq_true', or_iff_not_imp_left, ne_eq]

theorem isReachable_iff : isReachable root place = true ↔
    ∀ above, above <+: place → above ≠ place → isOverlong root above = false := by
  simp only [isReachable, List.all_eq_true, List.mem_inits, Bool.or_eq_true, beq_iff_eq,
    Bool.not_eq_true', or_iff_not_imp_left, ne_eq]

theorem isKept_concat {name : String} (hkept : isKept options root place = true)
    (hname : isLeftOut options root (place ++ [name]) = false) :
    isKept options root (place ++ [name]) = true := by
  rw [isKept_iff] at hkept ⊢
  intro front hfront hnonempty
  rcases List.prefix_concat_iff.mp hfront with rfl | hshorter
  · exact hname
  · exact hkept front hshorter hnonempty

theorem isReachable_concat {name : String} (hreachable : isReachable root place = true)
    (hplace : isOverlong root place = false) : isReachable root (place ++ [name]) = true := by
  rw [isReachable_iff] at hreachable ⊢
  intro above habove hne
  rcases List.prefix_concat_iff.mp habove with rfl | hshorter
  · exact absurd rfl hne
  · by_cases hsame : above = place
    · rw [hsame, hplace]
    · exact hreachable above hshorter hsame

theorem exists_of_isWanted (hwanted : isWanted options root project place = true) :
    ∃ found, project.find? place = some found := by
  simp only [isWanted, Bool.and_eq_true] at hwanted
  exact Option.isSome_iff_exists.mp (Option.isSome_of_any hwanted.1.1.1)

theorem isNotable_iff : isNotable options root project place = true ↔
    isKept options root place = true ∧ isReachable root place = true ∧
      ((project.find? place).any Entry.isFile = true ∧
          place.getLast?.any Specifier.hasSourceExtension = true ∧
          options.focus?.all (Text.Search.contains (joined root place).text) = true ∨
        (project.find? place).any Entry.isDirectory = true ∧ isOverlong root place = true) := by
  simp only [isNotable, isWanted, isUnreadable, Bool.or_eq_true, Bool.and_eq_true]
  constructor
  · rintro (⟨⟨⟨⟨hfile, hextension⟩, hfocus⟩, hkept⟩, hreachable⟩ |
      ⟨⟨⟨hdirectory, hlong⟩, hkept⟩, hreachable⟩)
    · exact ⟨hkept, hreachable, Or.inl ⟨hfile, hextension, hfocus⟩⟩
    · exact ⟨hkept, hreachable, Or.inr ⟨hdirectory, hlong⟩⟩
  · rintro ⟨hkept, hreachable, ⟨hfile, hextension, hfocus⟩ | ⟨hdirectory, hlong⟩⟩
    · exact Or.inl ⟨⟨⟨⟨hfile, hextension⟩, hfocus⟩, hkept⟩, hreachable⟩
    · exact Or.inr ⟨⟨⟨hdirectory, hlong⟩, hkept⟩, hreachable⟩

theorem any_patterns (options : Options) (test : Glob.Pattern → Bool) :
    (patterns options).any test =
      options.ignores.any fun text ↦ (Glob.compile? text).toOption.any test := by
  rw [patterns, List.any_filterMap]
  congr 1
  funext text
  cases Glob.compile? text <;> rfl

theorem joined_concat (path : Path) (names : List String) (name : String) :
    joined path (names ++ [name]) = (joined path names).join name :=
  List.foldl_concat _ _ _ _

/-- The rule of the survey leaves out what is left out. -/
theorem isExcluded_joined (name : String) :
    isExcluded (patterns options) ((joined root place).join name) name =
      isLeftOut options root (place ++ [name]) := by
  rw [isExcluded, any_patterns, isLeftOut, joined_concat, List.getLast?_concat]
  simp [excludedParts, Bool.or_assoc]

/-- The survey analyses a file by its name and its path. Assumes: the names are proper. -/
theorem isAnalysed_joined {name : String}
    (hnames : ∀ other ∈ place ++ [name], Path.isProperName other = true) :
    isAnalysed options (joined root (place ++ [name])) =
      ((place ++ [name]).getLast?.any Specifier.hasSourceExtension &&
        options.focus?.all (Text.Search.contains (joined root (place ++ [name])).text)) := by
  have hlast : (joined root (place ++ [name])).key.names.getLast? = some name := by
    rw [names_key_joined root hnames, ← List.append_assoc, List.getLast?_concat]
  have hname : (name == "..") = false := by
    have hproper := hnames name (List.mem_append_right _ List.mem_cons_self)
    exact beq_false_of_ne (Path.isProperName_iff.mp hproper).2.2.1
  have hsource : isSourceFile (joined root (place ++ [name])) =
      Specifier.hasSourceExtension name := by
    simp [isSourceFile, Path.fileName?, hlast, hname]
  rw [isAnalysed, hsource, List.getLast?_concat, isInFocus]
  cases options.focus? <;> rfl

end Judgements

/-! ### The walk, place by place -/

/-- What a survey does about a notable place. -/
def taskAt (root : Path) (project : Entry) (place : Location) : Task :=
  if (project.find? place).any Entry.isDirectory then
    .remark (joined root place) (inaccessibleMessage (joined root place) .nameTooLong)
  else .visit (joined root place) 0

/-- The tasks are those of the notable places at a place and below it, in the order of these. -/
def Charts (options : Options) (root : Path) (project : Entry) (top : Location)
    (tasks : List Task) : Prop :=
  ∃ places, tasks = places.map (taskAt root project) ∧ Ascending places ∧
    ∀ place, place ∈ places ↔ top <+: place ∧ isNotable options root project place = true

section Charts

variable {options : Options} {root : Path} {project : Entry} {top : Location}

theorem charts_nil
    (hnone : ∀ place, top <+: place → isNotable options root project place = false) :
    Charts options root project top [] := by
  refine ⟨[], rfl, List.Pairwise.nil, fun place ↦ ⟨fun hplace ↦ absurd hplace List.not_mem_nil, ?_⟩⟩
  rintro ⟨hbelow, hnotable⟩
  exact absurd hnotable (Bool.eq_false_iff.mp (hnone place hbelow))

theorem charts_singleton (hnotable : isNotable options root project top = true)
    (honly : ∀ place, top <+: place → isNotable options root project place = true → place = top) :
    Charts options root project top [taskAt root project top] := by
  refine ⟨[top], rfl, List.pairwise_singleton _ _, fun place ↦ ?_⟩
  rw [List.mem_singleton]
  constructor
  · rintro rfl
    exact ⟨List.prefix_rfl, hnotable⟩
  · rintro ⟨hbelow, hplace⟩
    exact honly place hbelow hplace

/-- Charts for the names of a directory make a chart for the directory. Assumes: the names come in
order, and every notable place is below one of them. -/
theorem charts_flatMap {names : List String} {tasks : String → List Task}
    (hnames : names.Pairwise (· < ·))
    (htasks : ∀ name ∈ names, Charts options root project (top ++ [name]) (tasks name))
    (hbelow : ∀ place, top <+: place → isNotable options root project place = true →
      ∃ name ∈ names, top ++ [name] <+: place) :
    Charts options root project top (names.flatMap tasks) := by
  choose! places hmap hascending hmem using htasks
  refine ⟨names.flatMap places, ?_, List.pairwise_flatMap.mpr ⟨hascending, ?_⟩, fun place ↦ ?_⟩
  · rw [List.map_flatMap]
    exact List.flatMap_congr hmap
  · refine hnames.imp_of_mem fun {first second} hfirst hsecond hless place hplace other hother ↦ ?_
    obtain ⟨⟨rest, rfl⟩, _⟩ := (hmem first hfirst place).mp hplace
    obtain ⟨⟨later, rfl⟩, _⟩ := (hmem second hsecond other).mp hother
    simp only [List.append_assoc, List.singleton_append, List.map_append, List.map_cons]
    exact List.append_left_lt (List.cons_lt_cons_iff.mpr (Or.inl (Text.bytes_lt_of_lt hless)))
  · rw [List.mem_flatMap]
    constructor
    · rintro ⟨name, hname, hplace⟩
      obtain ⟨hprefixed, hnotable⟩ := (hmem name hname place).mp hplace
      exact ⟨(List.prefix_append top [name]).trans hprefixed, hnotable⟩
    · rintro ⟨htop, hnotable⟩
      obtain ⟨name, hname, hplace⟩ := hbelow place htop hnotable
      exact ⟨name, hname, (hmem name hname place).mpr ⟨hplace, hnotable⟩⟩

/-- What is left out takes with it all that is below. -/
theorem charts_of_isLeftOut (htop : top ≠ []) (hleft : isLeftOut options root top = true) :
    Charts options root project top [] := by
  refine charts_nil fun place hbelow ↦ Bool.eq_false_iff.mpr fun hnotable ↦ ?_
  have hkept := isKept_iff.mp (isNotable_iff.mp hnotable).1 top hbelow htop
  exact Bool.false_ne_true (hkept.symm.trans hleft)

/-- There is nothing below a file. -/
theorem eq_of_file {content : Content} (hfile : project.find? top = some (.file content))
    {place : Location} (hbelow : top <+: place)
    (hnotable : isNotable options root project place = true) : place = top := by
  obtain ⟨rest, rfl⟩ := hbelow
  cases rest with
  | nil => exact List.append_nil top
  | cons name later =>
    have hnone : project.find? (top ++ name :: later) = none := by
      rw [Entry.find?_append, hfile]
      rfl
    have hsome := (isNotable_iff.mp hnotable).2.2
    rw [hnone] at hsome
    simp at hsome

/-- There is nothing to be seen below a directory that cannot be read. -/
theorem eq_of_isOverlong (hlong : isOverlong root top = true) {place : Location}
    (hbelow : top <+: place) (hnotable : isNotable options root project place = true) :
    place = top := by
  by_contra hne
  have hshort := isReachable_iff.mp (isNotable_iff.mp hnotable).2.1 top hbelow (Ne.symm hne)
  exact Bool.false_ne_true (hshort.symm.trans hlong)

theorem charts_file {content : Content} (hfile : project.find? top = some (.file content))
    (hkept : isKept options root top = true) (hreachable : isReachable root top = true)
    (hanalysed : isAnalysed options (joined root top) =
      (top.getLast?.any Specifier.hasSourceExtension &&
        options.focus?.all (Text.Search.contains (joined root top).text))) :
    Charts options root project top
      ([Sighting.file (joined root top)].filterMap (taskOf? options)) := by
  have hiff : isNotable options root project top = isAnalysed options (joined root top) := by
    rw [Bool.eq_iff_iff, isNotable_iff, hanalysed, hfile]
    simp [hkept, hreachable, Entry.isFile, Entry.isDirectory]
  have htask : taskAt root project top = .visit (joined root top) 0 := by
    simp [taskAt, hfile, Entry.isDirectory]
  cases hchosen : isAnalysed options (joined root top) with
  | true =>
    have hchart := charts_singleton (hiff.trans hchosen) fun place ↦ eq_of_file hfile
    simpa [taskOf?, hchosen, htask] using hchart
  | false =>
    have hchart : Charts options root project top [] := by
      refine charts_nil fun place hbelow ↦ Bool.eq_false_iff.mpr fun hnotable ↦ ?_
      have heq := eq_of_file hfile hbelow hnotable
      rw [heq, hiff, hchosen] at hnotable
      exact Bool.false_ne_true hnotable
    simpa [taskOf?, hchosen] using hchart

end Charts

section Walk

variable {tree : FileTree} {options : Options} {root : Path} {location : Location}
  {project : Entry} (hfree : tree.isLinkFree = true) (hnamed : tree.isWellNamed = true)
  (hdistinct : tree.isDistinctlyNamed = true) (hproject : tree.root.find? location = some project)

include hproject

theorem find?_project (place : Location) :
    tree.root.find? (location ++ place) = project.find? place := by
  rw [Entry.find?_append, hproject]
  rfl

include hfree hnamed

/-- What the walk makes of one name in a directory that it can read. Assumes: what it makes of the
directory of that name, if it is one. -/
theorem charts_sightName {top : Location} {name : String}
    (hkept : isKept options root top = true) (hreachable : isReachable root top = true)
    (hreadable : isOverlong root top = false)
    (hname : (project.find? (top ++ [name])).isSome = true)
    {enter : Path → Location → List Sighting} (opened : List OpenDirectory)
    (henter : ∀ entries, project.find? (top ++ [name]) = some (.directory entries) →
      isLeftOut options root (top ++ [name]) = false →
      Charts options root project (top ++ [name])
        ((enter (joined root (top ++ [name])) (location ++ (top ++ [name]))).filterMap
          (taskOf? options))) :
    Charts options root project (top ++ [name])
      ((sightName tree (isExcluded (patterns options)) enter opened (joined root top)
        (location ++ top) name).filterMap (taskOf? options)) := by
  obtain ⟨child, hchild⟩ := Option.isSome_iff_exists.mp hname
  have hfound : tree.root.find? (location ++ (top ++ [name])) = some child :=
    (find?_project hproject _).trans hchild
  have hproper := (List.forall_mem_append.mp (Entry.isProperName_of_find? hnamed hfound)).2
  rw [sightName, List.append_assoc, hfound]
  dsimp only
  rw [isExcluded_joined, ← joined_concat]
  cases child with
  | link target =>
    -- without links no name leads to one
    exact absurd hfound (Entry.straightTo_of_free hfree _ _ List.prefix_rfl (by simp) target)
  | file content =>
    cases hleft : isLeftOut options root (top ++ [name]) with
    | true => exact charts_of_isLeftOut (List.concat_ne_nil name top) hleft
    | false =>
      exact charts_file hchild (isKept_concat hkept hleft) (isReachable_concat hreachable hreadable)
        (isAnalysed_joined hproper)
  | directory entries =>
    cases hleft : isLeftOut options root (top ++ [name]) with
    | true => exact charts_of_isLeftOut (List.concat_ne_nil name top) hleft
    | false => exact henter entries hchild hleft

include hdistinct

/-- The walk below a directory charts it. The induction is on the depth of the walk, which the
directories that are left do not exceed. -/
theorem charts_walkBelow {depth : Nat} {top : Location} {entries : List (String × Entry)}
    (hfound : project.find? top = some (.directory entries))
    (hdepth : (Entry.directory entries).directoryCount ≤ depth)
    (hkept : isKept options root top = true) (hreachable : isReachable root top = true)
    (opened : List OpenDirectory) :
    Charts options root project top
      ((walkBelow tree (isExcluded (patterns options)) depth opened (joined root top)
        (location ++ top)).filterMap (taskOf? options)) := by
  induction depth generalizing top entries opened with
  | zero => exact absurd hdepth (Nat.not_succ_le_zero _)
  | succ depth ih =>
    rw [walkBelow]
    cases hlong : isOverlong root top with
    | true =>
      have htask : taskAt root project top =
          .remark (joined root top) (inaccessibleMessage (joined root top) .nameTooLong) := by
        simp [taskAt, hfound, Entry.isDirectory]
      have hnotable : isNotable options root project top = true :=
        isNotable_iff.mpr ⟨hkept, hreachable, Or.inr ⟨by simp [hfound, Entry.isDirectory], hlong⟩⟩
      rw [if_pos (of_decide_eq_true hlong)]
      have hchart := charts_singleton hnotable fun place ↦ eq_of_isOverlong hlong
      rwa [htask] at hchart
    | false =>
      rw [if_neg (of_decide_eq_false hlong), List.filterMap_flatMap]
      refine charts_flatMap (pairwise_sortedNames hdistinct _) (fun name hname ↦ ?_) ?_
      · rw [mem_sortedNames, List.append_assoc, find?_project hproject] at hname
        refine charts_sightName hfree hnamed hproject hkept hreachable hlong hname _
          fun children hchildren hleft ↦ ?_
        have hcount : (Entry.directory children).directoryCount ≤ depth := by
          have hlookup : entries.lookup name = some (.directory children) := by
            rw [Entry.find?_concat, hfound] at hchildren
            exact hchildren
          have hless := Entry.directoryCount_le_of_mem (Entry.mem_of_lookup hlookup)
          rw [Entry.directoryCount] at hdepth
          exact hless.trans (Nat.le_of_succ_le_succ hdepth)
        exact ih hchildren hcount (isKept_concat hkept hleft)
          (isReachable_concat hreachable hlong) _
      · rintro place ⟨rest, rfl⟩ hnotable
        have hcases := (isNotable_iff.mp hnotable).2.2
        cases rest with
        | nil =>
          -- the directory itself can be read
          rw [List.append_nil, hfound, hlong] at hcases
          simp [Entry.isFile] at hcases
        | cons name later =>
          refine ⟨name, ?_, later, by rw [List.append_assoc, List.singleton_append]⟩
          rw [mem_sortedNames, List.append_assoc, find?_project hproject]
          by_contra hnone
          have hmissing : project.find? (top ++ name :: later) = none := by
            rw [← List.singleton_append, ← List.append_assoc, Entry.find?_append,
              Option.not_isSome_iff_eq_none.mp hnone]
            rfl
          rw [hmissing] at hcases
          simp at hcases

end Walk

/-! ### The survey -/

/-- The diagnostic about a pattern of the options, if it cannot be read. -/
def complaint? (root : Path) (text : String) : Option Ledger.Diagnostic :=
  match Glob.compile? text with
  | .ok _ => none
  | .error failure =>
      some ⟨root.text, .walk, "Invalid ignore pattern '" ++ text ++ "': " ++ failure.message⟩

/-- What a survey does about a place that it has to do with. -/
def lookAt (parse : Source.Parser) (tree : FileTree) (options : Options) (root : Path)
    (project : Entry) (ledger : Ledger) (place : Location) : Ledger :=
  if isWanted options root project place then
    Analysis.analyze (.ofTree parse tree) options (joined root place) 0 ledger
  else
    ledger.diagnose (joined root place) .walk
      (inaccessibleMessage (joined root place) .nameTooLong)

theorem warned_eq (options : Options) (root : Path) (ledger : Ledger) :
    (patternComplaints options).foldl (fun ledger message ↦ ledger.diagnose root .walk message)
        ledger =
      { ledger with
        diagnostics := ledger.diagnostics ++ options.ignores.filterMap (complaint? root) } := by
  have hcomplaints : ((patternComplaints options).map fun message ↦ (Ledger.Step.walk, message)).map
      (fun complaint ↦ ⟨root.text, complaint.1, complaint.2⟩) =
        options.ignores.filterMap (complaint? root) := by
    rw [patternComplaints, List.map_map, List.map_filterMap]
    congr 1
    funext text
    rw [complaint?]
    cases Glob.compile? text <;> rfl
  rw [← hcomplaints, ← complain_eq, Analysis.complain, List.foldl_map]

/-- The path that a task visits. -/
def visited? : Task → Option Path
  | .visit path _ => some path
  | _ => none

theorem handed_eq_filterMap (tree : FileTree) (options : Options) (root : Path) :
    handed tree options root =
      ((sightings tree options root).filterMap (taskOf? options)).filterMap visited? := by
  rw [handed, List.filterMap_filterMap]
  congr 1
  funext sighting
  cases sighting with
  | file path =>
    by_cases hanalysed : isAnalysed options path = true <;> simp [taskOf?, hanalysed, visited?]
  | directory path => rfl
  | inaccessible path fault => rfl
  | loop path ancestor => rfl

section Notable

variable {options : Options} {root : Path} {project : Entry}

/-- A notable place that is not wanted is that of a directory, and none that is wanted is. -/
theorem taskAt_of_isNotable {place : Location}
    (hnotable : isNotable options root project place = true) :
    taskAt root project place =
      if isWanted options root project place then .visit (joined root place) 0
      else .remark (joined root place) (inaccessibleMessage (joined root place) .nameTooLong) := by
  obtain ⟨hkept, _, hcases⟩ := isNotable_iff.mp hnotable
  have hexclusive : (project.find? place).any Entry.isFile = true →
      (project.find? place).any Entry.isDirectory = false := by
    rcases project.find? place with _ | (_ | _ | _) <;> simp [Entry.isFile, Entry.isDirectory]
  rw [taskAt, isWanted]
  rcases hcases with ⟨hfile, hextension, hfocus⟩ | ⟨hdirectory, _⟩
  · simp [hfile, hextension, hfocus, hkept, hexclusive hfile]
  · have hnofile : (project.find? place).any Entry.isFile = false :=
      Bool.eq_false_iff.mpr fun hfile ↦
        Bool.false_ne_true ((hexclusive hfile).symm.trans hdirectory)
    simp [hdirectory, hnofile]

theorem filterMap_visited_taskAt {places : List Location}
    (hnotable : ∀ place ∈ places, isNotable options root project place = true) :
    (places.map (taskAt root project)).filterMap visited? =
      (places.filter (isWanted options root project)).map (joined root) := by
  induction places with
  | nil => rfl
  | cons place later ih =>
    obtain ⟨hplace, hlater⟩ := List.forall_mem_cons.mp hnotable
    rw [List.map_cons, List.filterMap_cons, ih hlater, taskAt_of_isNotable hplace, List.filter_cons]
    cases isWanted options root project place <;> rfl

end Notable

theorem mem_places_of_isNotable {options : Options} {root : Path} {project : Entry}
    {place : Location} (hnotable : isNotable options root project place = true) :
    place ∈ project.places := by
  have hcases := (isNotable_iff.mp hnotable).2.2
  cases hfound : project.find? place with
  | none =>
    rw [hfound] at hcases
    simp at hcases
  | some found => exact Entry.mem_places_of_find? hfound

theorem nodup_project {tree : FileTree} (hdistinct : tree.isDistinctlyNamed = true) {root : Path}
    {project : Entry} (hroot : tree.entry root = .ok project) : project.places.Nodup := by
  obtain ⟨location, _, hfound⟩ := entry_eq_ok_iff.mp hroot
  rw [isDistinctlyNamed, Bool.and_eq_true] at hdistinct
  exact Entry.nodup_places project
    (Entry.hasDistinctNames_of_find? hdistinct.1 hdistinct.2 hfound)
    (Entry.allBelow_of_find? hdistinct.2 hfound)

section Survey

variable {tree : FileTree} (options : Options) {root : Path} {entries : List (String × Entry)}
  (hfree : tree.isLinkFree = true) (hnamed : tree.isWellNamed = true)
  (hdistinct : tree.isDistinctlyNamed = true)
  (hroot : tree.entry root = .ok (.directory entries))

include hfree hnamed hdistinct hroot

theorem charts_sightings :
    Charts options root (.directory entries) []
      ((sightings tree options root).filterMap (taskOf? options)) := by
  obtain ⟨location, hlocate, hfound⟩ := entry_eq_ok_iff.mp hroot
  have hlimit : (Entry.directory entries).directoryCount ≤ tree.depthLimit := by
    have hcount := Entry.directoryCount_le_of_find? hfound
    rw [depthLimit]
    exact hcount.trans ((Nat.le_succ _).trans (Nat.le_mul_of_pos_left _ (Nat.succ_pos _)))
  have hbelow : Charts options root (.directory entries) []
      ((walkBelow tree (isExcluded (patterns options)) tree.depthLimit [] (joined root [])
        (location ++ [])).filterMap (taskOf? options)) :=
    charts_walkBelow hfree hnamed hdistinct hfound rfl hlimit rfl rfl []
  rw [List.append_nil] at hbelow
  rw [sightings, walk, hlocate]
  dsimp only
  rw [hfound]
  dsimp only
  rw [List.filterMap_cons_none rfl]
  exact hbelow

/-- The notable places in order, and what the survey does about them. -/
theorem filterMap_sightings_eq :
    (sightings tree options root).filterMap (taskOf? options) =
      (((Entry.directory entries).places.filter
        (isNotable options root (.directory entries))).mergeSort bytewise).map
          (taskAt root (.directory entries)) := by
  obtain ⟨places, htasks, hascending, hmem⟩ :=
    charts_sightings options hfree hnamed hdistinct hroot
  rw [htasks, hascending.eq_mergeSort (nodup_project hdistinct hroot) fun place ↦ ?_]
  rw [hmem]
  constructor
  · rintro ⟨_, hnotable⟩
    exact ⟨mem_places_of_isNotable hnotable, hnotable⟩
  · rintro ⟨_, hnotable⟩
    exact ⟨List.nil_prefix, hnotable⟩

/-- The files that are handed over, by a filter and a sort. -/
theorem handed_eq_filter_sort :
    handed tree options root =
      (((Entry.directory entries).places.filter fun place ↦
        isWanted options root (.directory entries) place && isReachable root place).mergeSort
          bytewise).map (joined root) := by
  obtain ⟨places, htasks, hascending, hmem⟩ :=
    charts_sightings options hfree hnamed hdistinct hroot
  have hnotable : ∀ place ∈ places, isNotable options root (.directory entries) place = true :=
    fun place hplace ↦ ((hmem place).mp hplace).2
  have hwanted : Ascending (places.filter (isWanted options root (.directory entries))) :=
    List.Pairwise.filter _ hascending
  rw [handed_eq_filterMap, htasks, filterMap_visited_taskAt hnotable,
    hwanted.eq_mergeSort (nodup_project hdistinct hroot) fun place ↦ ?_]
  rw [List.mem_filter, hmem, Bool.and_eq_true]
  constructor
  · rintro ⟨⟨_, hplace⟩, hwanted⟩
    exact ⟨mem_places_of_isNotable hplace, hwanted, (isNotable_iff.mp hplace).2.1⟩
  · rintro ⟨_, hwanted, hreachable⟩
    refine ⟨⟨List.nil_prefix, ?_⟩, hwanted⟩
    rw [isNotable, hwanted, hreachable, Bool.and_self, Bool.true_or]

/-- No path is handed over twice. -/
theorem nodup_handed : (handed tree options root).Nodup := by
  obtain ⟨location, _, hfound⟩ := entry_eq_ok_iff.mp hroot
  rw [handed_eq_filter_sort options hfree hnamed hdistinct hroot]
  have hnodup := (List.mergeSort_perm _ bytewise).nodup_iff.mpr
    ((nodup_project hdistinct hroot).filter fun place ↦
      isWanted options root (.directory entries) place && isReachable root place)
  refine hnodup.map_on fun first hfirst second hsecond heq ↦ ?_
  have hproper : ∀ place ∈ ((Entry.directory entries).places.filter fun place ↦
      isWanted options root (.directory entries) place && isReachable root place),
      ∀ name ∈ place, Path.isProperName name = true := by
    intro place hplace
    obtain ⟨hwanted, _⟩ := Bool.and_eq_true_iff.mp (List.mem_filter.mp hplace).2
    obtain ⟨file, hfile⟩ := exists_of_isWanted hwanted
    have hplaced := (find?_project hfound place).trans hfile
    exact (List.forall_mem_append.mp (Entry.isProperName_of_find? hnamed hplaced)).2
  have hnames := congrArg (fun path ↦ path.key.names) heq
  rw [names_key_joined root (hproper first (List.mem_mergeSort.mp hfirst)),
    names_key_joined root (hproper second (List.mem_mergeSort.mp hsecond))] at hnames
  exact List.append_cancel_left hnames

/-- A survey complains about the patterns and then looks at the notable places in order. -/
theorem run_eq_foldl_lookAt (parse : Source.Parser) (ledger : Ledger) :
    run parse tree options root ledger =
      (((Entry.directory entries).places.filter
        (isNotable options root (.directory entries))).mergeSort bytewise).foldl
          (lookAt parse tree options root (.directory entries))
          { ledger with
            diagnostics := ledger.diagnostics ++ options.ignores.filterMap (complaint? root) } := by
  rw [run, warned_eq, foldl_enterSighting_eq,
    filterMap_sightings_eq options hfree hnamed hdistinct hroot, runAgenda, List.foldl_map]
  refine List.foldl_ext _ _ _ fun ledger place hplace ↦ ?_
  have hnotable := (List.mem_filter.mp (List.mem_mergeSort.mp hplace)).2
  rw [taskAt_of_isNotable hnotable, lookAt]
  split <;> rfl

end Survey

/-- A survey selects like a filter and a sort. Assumes: a tree without links, with proper and
distinct names, and a root that is a directory. The files that are handed over are the wanted ones
whose directories can all be read, in the order of the bytes of their names, and no path is handed
over twice. Before anything else there is one diagnostic for each pattern that cannot be read, in
order; a directory that cannot be read gives one diagnostic when its turn comes. -/
theorem survey_eq_filter_sort {tree : FileTree} (hfree : tree.isLinkFree = true)
    (hnamed : tree.isWellNamed = true) (hdistinct : tree.isDistinctlyNamed = true)
    (options : Options) {root : Path} {entries : List (String × Entry)}
    (hroot : tree.entry root = .ok (.directory entries)) :
    handed tree options root =
        (((Entry.directory entries).places.filter fun place ↦
          isWanted options root (.directory entries) place && isReachable root place).mergeSort
            bytewise).map (joined root) ∧
      (handed tree options root).Nodup ∧
      ∀ parse ledger, run parse tree options root ledger =
        (((Entry.directory entries).places.filter fun place ↦
          isWanted options root (.directory entries) place && isReachable root place ||
            isUnreadable options root (.directory entries) place).mergeSort bytewise).foldl
          (lookAt parse tree options root (.directory entries))
          { ledger with
            diagnostics := ledger.diagnostics ++ options.ignores.filterMap (complaint? root) } :=
  ⟨handed_eq_filter_sort options hfree hnamed hdistinct hroot,
    nodup_handed options hfree hnamed hdistinct hroot,
    run_eq_foldl_lookAt options hfree hnamed hdistinct hroot⟩

/-- A project in a directory whose name would be left out below the root. -/
def atelier : List (String × Entry) := [
  ("a", .directory [("b.ts", .file (.text "")), ("dist", .directory [("e.ts", .file (.text ""))])]),
  ("a.ts", .file (.text "")),
  ("vendor", .directory [("d.ts", .file (.text ""))])]

theorem survey_eq_filter_sort_atelier :
    let tree : FileTree := ⟨.directory [("test", .directory atelier)], []⟩
    let options : Options := { ignores := ["[", "**/vendor"] }
    tree.isLinkFree = true ∧ tree.isWellNamed = true ∧ tree.isDistinctlyNamed = true ∧
      tree.entry ⟨"/test"⟩ = .ok (.directory atelier) ∧
      handed tree options ⟨"/test"⟩ = [⟨"/test/a/b.ts"⟩, ⟨"/test/a.ts"⟩] := by
  intro tree options
  have hfree : tree.isLinkFree = true := by decide
  have hnamed : tree.isWellNamed = true := by decide
  have hdistinct : tree.isDistinctlyNamed = true := by decide
  have hroot : tree.entry ⟨"/test"⟩ = .ok (.directory atelier) := by rfl
  have hplaces : ((Entry.directory atelier).places.filter fun place ↦
      isWanted options ⟨"/test"⟩ (.directory atelier) place && isReachable ⟨"/test"⟩ place) =
      [["a", "b.ts"], ["a.ts"]] := by decide
  refine ⟨hfree, hnamed, hdistinct, hroot, ?_⟩
  rw [(survey_eq_filter_sort hfree hnamed hdistinct options hroot).1, hplaces,
    List.mergeSort_of_pairwise (by decide)]
  decide

/-! ### A directory that cannot be read -/

/-- The root of a tree, written with so many slashes. -/
def slashes (count : Nat) : Path :=
  ⟨String.ofList (List.replicate count '/')⟩

theorem toList_slashes (count : Nat) : (slashes count).text.toList = List.replicate count '/' :=
  String.toList_ofList

theorem segmentsOf_slashes (count : Nat) :
    Path.segmentsOf (slashes count).text = List.replicate (count + 1) "" := by
  have hpieces : Path.pieces (List.replicate count '/') = List.replicate (count + 1) [] := by
    induction count with
    | zero => rfl
    | succ count ih => rw [List.replicate_succ, Path.pieces, if_pos rfl, ih, ← List.replicate_succ]
  rw [Path.segmentsOf, toList_slashes, hpieces, List.map_replicate]

theorem utf8ByteSize_slashes (count : Nat) : (slashes count).text.utf8ByteSize = count := by
  induction count with
  | zero => rfl
  | succ count ih =>
    rw [slashes, List.replicate_succ', String.ofList_append, String.utf8ByteSize_append]
    exact congrArg (· + 1) ih

/-- Segments that do not move lead nowhere else. -/
theorem followSegments_silent {start : Entry} {purpose : Purpose}
    {atLink : String → List String → Location → Except Fault Location} {location : Location}
    {entries : List (String × Entry)} (hfound : start.find? location = some (.directory entries))
    {segments : List String} (hsilent : ∀ segment ∈ segments, Path.isSilent segment = true) :
    followSegments start purpose atLink segments location = .ok location := by
  induction segments with
  | nil => rfl
  | cons segment rest ih =>
    obtain ⟨hsegment, hrest⟩ := List.forall_mem_cons.mp hsilent
    rw [followSegments, hfound]
    dsimp only
    rw [if_pos hsegment, ih hrest]

/-- Slashes lead to the root, as long as there are not too many of them. -/
theorem entry_slashes {entries : List (String × Entry)} {count : Nat} (hsome : 0 < count)
    (hfew : count ≤ pathLimit) :
    (FileTree.mk (.directory entries) []).entry (slashes count) = .ok (.directory entries) := by
  refine entry_eq_ok_iff.mpr ⟨[], ?_, rfl⟩
  have hzero : ¬ (slashes count).text.toList.contains (Char.ofNat 0) = true := by
    rw [toList_slashes, List.contains_iff_mem]
    intro hmem
    exact absurd (List.eq_of_mem_replicate hmem) (by decide)
  have hnonempty : (slashes count).text ≠ "" := by
    intro hempty
    have hsize := utf8ByteSize_slashes count
    rw [hempty] at hsize
    exact absurd hsize (Nat.ne_of_lt hsome)
  rw [locate, locateFor, if_neg hzero, if_neg hnonempty, utf8ByteSize_slashes,
    if_neg (Nat.not_lt.mpr hfew), startOf, ite_self, segmentsOf_slashes, linkLimit, follow]
  refine followSegments_silent rfl fun segment hsegment ↦ ?_
  rw [List.eq_of_mem_replicate hsegment]
  rfl

/-- A project with one file in one directory. -/
def annex : List (String × Entry) :=
  [("sub", .directory [("App.tsx", .file (.text ""))])]

theorem joined_slashes_sub {count : Nat} (hsome : 0 < count) :
    joined (slashes count) ["sub"] = ⟨(slashes count).text ++ "sub"⟩ := by
  have hends : Text.Search.endsWith (slashes count).text "/" = true := by
    obtain ⟨fewer, rfl⟩ := Nat.exists_eq_succ_of_ne_zero (Nat.ne_of_gt hsome)
    rw [Text.Search.endsWith, toList_slashes, List.isSuffixOf_iff_suffix, List.replicate_succ']
    exact List.suffix_append _ _
  have hbegins : Text.Search.beginsWith "sub" "/" = false := by decide
  simp [joined, Path.join, hbegins, hends]

/-- The longest path of a root, with nothing left for the names below it. -/
theorem isOverlong_sub : isOverlong (slashes pathLimit) ["sub"] = true := by
  rw [isOverlong, joined_slashes_sub (by decide), String.utf8ByteSize_append, utf8ByteSize_slashes]
  decide

theorem mem_joined {path : Path} {names : List String} {character : Char}
    (hcharacter : character ∈ (joined path names).text.toList) :
    character ∈ path.text.toList ∨ character = '/' ∨ ∃ name ∈ names, character ∈ name.toList := by
  induction names generalizing path with
  | nil => exact Or.inl hcharacter
  | cons name rest ih =>
    rcases ih hcharacter with hjoin | hslash | ⟨other, hother, hmem⟩
    · have hcases : character ∈ path.text.toList ∨ character = '/' ∨ character ∈ name.toList := by
        rw [Path.join] at hjoin
        split_ifs at hjoin
        · exact Or.inr (Or.inr hjoin)
        · rw [String.toList_append, List.mem_append] at hjoin
          exact hjoin.imp_right Or.inr
        · simpa [or_assoc] using hjoin
      rcases hcases with hpath | hslash | hname
      · exact Or.inl hpath
      · exact Or.inr (Or.inl hslash)
      · exact Or.inr (Or.inr ⟨name, List.mem_cons_self, hname⟩)
    · exact Or.inr (Or.inl hslash)
    · exact Or.inr (Or.inr ⟨other, List.mem_cons_of_mem _ hother, hmem⟩)

theorem isWanted_annex :
    isWanted {} (slashes pathLimit) (.directory annex) ["sub", "App.tsx"] = true := by
  have hkept : isKept {} (slashes pathLimit) ["sub", "App.tsx"] = true := by
    refine isKept_iff.mpr fun front hfront hnonempty ↦ ?_
    -- no character of the path is the first one of the name of the packages
    have hpackages :
        Text.Search.contains (joined (slashes pathLimit) front).text "node_modules" = false := by
      refine Bool.eq_false_iff.mpr fun hcontains ↦ ?_
      have hmem := ((Text.Search.contains_iff _ _).mp hcontains).subset
        (by decide : 'n' ∈ "node_modules".toList)
      rcases mem_joined hmem with hroot | hslash | ⟨name, hname, hmem⟩
      · rw [toList_slashes] at hroot
        exact absurd (List.eq_of_mem_replicate hroot) (by decide)
      · exact absurd hslash (by decide)
      · have hnames : ∀ name ∈ ["sub", "App.tsx"], 'n' ∉ name.toList := by decide
        exact hnames name (hfront.subset hname) hmem
    have hfronts : front = ["sub"] ∨ front = ["sub", "App.tsx"] := by
      have hinits := (List.mem_inits front ["sub", "App.tsx"]).mpr hfront
      simpa [List.inits, hnonempty] using hinits
    rw [isLeftOut, hpackages]
    rcases hfronts with rfl | rfl
    · decide
    · decide
  rw [isWanted, hkept]
  decide

/-- The length of paths matters: with a root of the longest path a wanted file is not handed over,
since the directory that it is in cannot be read. -/
theorem handed_ne_wanted_of_overlong :
    let tree : FileTree := ⟨.directory annex, []⟩
    let root := slashes pathLimit
    tree.isLinkFree = true ∧ tree.isWellNamed = true ∧ tree.isDistinctlyNamed = true ∧
      tree.entry root = .ok (.directory annex) ∧
      handed tree {} root ≠
        (((Entry.directory annex).places.filter
          (isWanted {} root (.directory annex))).mergeSort bytewise).map (joined root) := by
  intro tree root
  have hfree : tree.isLinkFree = true := by decide
  have hnamed : tree.isWellNamed = true := by decide
  have hdistinct : tree.isDistinctlyNamed = true := by decide
  have hroot : tree.entry root = .ok (.directory annex) :=
    entry_slashes (by decide) (Nat.le_refl _)
  refine ⟨hfree, hnamed, hdistinct, hroot, fun hequal ↦ ?_⟩
  have hunreachable : isReachable root ["sub", "App.tsx"] = false := by
    refine Bool.eq_false_iff.mpr fun hreachable ↦ ?_
    have hshort := isReachable_iff.mp hreachable ["sub"] ⟨["App.tsx"], rfl⟩ (by decide)
    exact Bool.false_ne_true (hshort.symm.trans isOverlong_sub)
  have hplaces : (Entry.directory annex).places = [[], ["sub"], ["sub", "App.tsx"]] := rfl
  have hnone : handed tree {} root = [] := by
    have hfilter : ((Entry.directory annex).places.filter fun place ↦
        isWanted {} root (.directory annex) place && isReachable root place) = [] := by
      rw [hplaces, List.filter_cons_of_neg (by exact Bool.false_ne_true),
        List.filter_cons_of_neg (by exact Bool.false_ne_true),
        List.filter_cons_of_neg (by rw [hunreachable, Bool.and_false]; exact Bool.false_ne_true),
        List.filter_nil]
    rw [handed_eq_filter_sort {} hfree hnamed hdistinct hroot, hfilter, List.mergeSort_nil,
      List.map_nil]
  have hsome : joined root ["sub", "App.tsx"] ∈ handed tree {} root := by
    rw [hequal]
    refine List.mem_map_of_mem (List.mem_mergeSort.mpr (List.mem_filter.mpr ⟨?_, isWanted_annex⟩))
    exact Entry.mem_places_of_find? rfl
  rw [hnone] at hsome
  exact List.not_mem_nil hsome

end Survey

end ComponentGraph
