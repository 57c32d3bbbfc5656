import ComponentGraph.Proofs.Addition
import ComponentGraph.Proofs.Isolation
import ComponentGraph.Proofs.Moving

/-!
A file that no analysis sees.

An analysis asks about the files that its walk hands over and about those to which their imports
lead. A walk keeps hidden names out. An import that does not spell a name never leads below an entry
of that name: each segment either goes up, or adds a name of its own (`not_prefix_destination`). So
when a hidden file that has not the name of a source file is added to a tree, and no import spells
its name, the analysis asks the same questions as before and gets the same answers
(`Project.analyze_addFile`).
-/

set_option autoImplicit false
set_option relaxedAutoImplicit false

namespace ComponentGraph

open Analysis
open FileTree (pathOf)
open Specifier (IsSourcePlace)

/-! ### Paths that do not spell a name -/

namespace Path

/-- A step that does not add the name keeps clear of the entry of that name. -/
theorem not_prefix_stepClean {front latest : List String} {name segment : String}
    (hsegment : segment ≠ name) (hlatest : ¬ front ++ [name] <+: latest.reverse) :
    ¬ front ++ [name] <+: (stepClean .root latest segment).reverse := by
  have hpush : ¬ front ++ [name] <+: (segment :: latest).reverse := by
    rw [List.reverse_cons, List.prefix_concat_iff, not_or]
    refine ⟨fun heq ↦ hsegment ?_, hlatest⟩
    exact (List.singleton_inj.mp (List.append_inj' heq rfl).2).symm
  rw [stepClean.eq_def]
  by_cases hup : (segment == "..") = true
  · rw [if_pos hup]
    cases latest with
    | nil => exact hlatest
    | cons top below =>
      dsimp only
      split
      · rwa [beq_iff_eq.mp hup] at hpush
      · intro hbelow
        rw [List.reverse_cons] at hlatest
        exact hlatest (hbelow.trans (List.prefix_append _ _))
  · rwa [if_neg hup]

theorem not_prefix_destination {front directory : Location} {name : String}
    (hdirectory : ∀ other ∈ directory, isProperName other = true)
    (helsewhere : ¬ front ++ [name] <+: directory) {segments : List String}
    (havoids : name ∉ segments) : ¬ front ++ [name] <+: destination directory segments := by
  have hfold {names latest : List String} (hnames : name ∉ names)
      (hlatest : ¬ front ++ [name] <+: latest.reverse) :
      ¬ front ++ [name] <+: (names.foldl (stepClean .root) latest).reverse := by
    induction names generalizing latest with
    | nil => exact hlatest
    | cons segment rest ih =>
      obtain ⟨hsegment, hrest⟩ := not_or.mp (List.mem_cons.not.mp hnames)
      exact ih hrest (not_prefix_stepClean (Ne.symm hsegment) hlatest)
  rw [destination, cleanNames, List.foldl_append, foldl_stepClean_of_proper hdirectory,
    List.append_nil]
  refine hfold (fun hname ↦ havoids (List.mem_of_mem_filter hname)) ?_
  rwa [List.reverse_reverse]

theorem clean_join_eq {directory : Location}
    (hdirectory : ∀ name ∈ directory, isProperName name = true) {text : String}
    (hrelative : Text.Search.beginsWith text "/" = false) :
    ((pathOf directory).join text).clean = pathOf (destination directory (segmentsOf text)) := by
  have hroot : (pathOf directory).key.anchor = .root := by rw [key_pathOf hdirectory]
  rw [clean_eq_pathOf (anchor_join hroot text), names_key_join_relative _ hrelative,
    key_pathOf hdirectory, destination]

theorem clean_join_join_eq {directory : Location}
    (hdirectory : ∀ name ∈ directory, isProperName name = true) {text name : String}
    (hrelative : Text.Search.beginsWith text "/" = false) (hname : isProperName name = true) :
    (((pathOf directory).join text).join name).clean =
      pathOf (destination directory (segmentsOf text ++ [name])) := by
  have hroot : (pathOf directory).key.anchor = .root := by rw [key_pathOf hdirectory]
  rw [clean_eq_pathOf (anchor_join (anchor_join hroot text) name), names_key_join _ hname,
    names_key_join_relative _ hrelative, key_pathOf hdirectory, destination, List.filter_append,
    filter_silent_of_proper (List.forall_mem_singleton.mpr hname), List.append_assoc]

/-- A text that does not contain a name does not spell it. -/
theorem not_mem_segmentsOf {text name : String} (hname : isProperName name = true)
    (hcontains : Text.Search.contains text name = false) : name ∉ segmentsOf text := by
  intro hsegment
  obtain ⟨hnonempty, _, _, hslash⟩ := isProperName_iff.mp hname
  refine Bool.false_ne_true (hcontains.symm.trans ?_)
  rw [Text.Search.contains_iff, ← joinSegments_segmentsOf text]
  refine (Text.Search.infix_joinSegments_iff hslash ?_ _).mpr ⟨name, hsegment, List.infix_rfl⟩
  rwa [Ne, String.toList_eq_nil_iff]

end Path

/-- The path of a source file that neither is an entry of a name nor lies below it. -/
def IsElsewhere (front : Location) (name : String) (path : Path) : Prop :=
  ∃ place, IsSourcePlace place ∧ ¬ front ++ [name] <+: place ∧ path = pathOf place

namespace Specifier

open ComponentGraph.Path

section Elsewhere

variable {front directory : Location} {name source : String} (hname : isSourceName name = false)
  (hdirectory : ∀ other ∈ directory, isProperName other = true)
  (helsewhere : ¬ front ++ [name] <+: directory) (hlocal : isLocal source = true)
  (havoids : name ∉ segmentsOf source)

include hdirectory helsewhere

theorem isElsewhere_join {text extension : String} (hextension : extension ∈ extensions)
    (hends : Text.Search.endsWith text ("." ++ extension) = true)
    (hrelative : Text.Search.beginsWith text "/" = false) (hspells : name ∉ segmentsOf text) :
    IsElsewhere front name ((pathOf directory).join text).clean :=
  ⟨_, isSourcePlace_of_endsWith hdirectory hextension hends,
    not_prefix_destination hdirectory helsewhere hspells, clean_join_eq hdirectory hrelative⟩

include hname hlocal havoids

theorem isElsewhere_of_mem_candidates {path : Path}
    (hpath : path ∈ candidates source (pathOf directory)) : IsElsewhere front name path := by
  rw [candidates, List.mem_append, List.mem_map, List.mem_map] at hpath
  rcases hpath with ⟨extension, hextension, rfl⟩ | ⟨extension, hextension, rfl⟩
  · have hslash := no_slash_extension extension hextension
    rw [String.append_assoc]
    refine isElsewhere_join hdirectory helsewhere hextension (endsWith_append _ _)
      (beginsWith_slash_of_isLocal hlocal _) ?_
    -- only the last segment changes, and it becomes the name of a source file
    obtain ⟨before, last, hsegments, hlonger⟩ := exists_segmentsOf_append source hslash
    rw [hlonger, List.mem_append, List.mem_singleton, not_or]
    refine ⟨fun hmem ↦ havoids ?_, ?_⟩
    · rw [hsegments]
      exact List.mem_append_left _ hmem
    · rintro rfl
      refine Bool.false_ne_true (hname.symm.trans ?_)
      exact List.any_eq_true.mpr ⟨extension, hextension, endsWith_append _ _⟩
  · have hrelative := beginsWith_slash_of_isLocal hlocal ""
    rw [String.append_empty] at hrelative
    obtain ⟨hindex, hsource⟩ := isProperName_index extension hextension
    refine ⟨_, isSourcePlace_destination hdirectory (fun _ ↦ no_slash_of_mem_segmentsOf) hindex
      hsource, not_prefix_destination hdirectory helsewhere ?_,
      clean_join_join_eq hdirectory hrelative hindex⟩
    rw [List.mem_append, List.mem_singleton, not_or]
    refine ⟨havoids, ?_⟩
    rintro rfl
    exact Bool.false_ne_true (hname.symm.trans hsource)

/-- A specifier that does not spell a name leads past the entry of that name. -/
theorem isElsewhere_of_resolve {isFile : Path → Bool} {target : Path}
    (hresolve : resolve isFile source (pathOf directory) = some target) :
    IsElsewhere front name target := by
  rw [resolve] at hresolve
  split at hresolve
  · rename_i hsource
    cases hresolve
    obtain ⟨extension, hextension, hends⟩ := exists_extension hsource
    have hrelative := beginsWith_slash_of_isLocal hlocal ""
    rw [String.append_empty] at hrelative
    exact isElsewhere_join hdirectory helsewhere hextension hends hrelative havoids
  · exact isElsewhere_of_mem_candidates hname hdirectory helsewhere hlocal havoids
      (List.mem_of_find?_eq_some hresolve)

/-- It leads to the same file whatever there is at the entry of that name. -/
theorem resolve_congr {isFile isFile' : Path → Bool}
    (hfiles : ∀ path, IsElsewhere front name path → isFile' path = isFile path) :
    resolve isFile' source (pathOf directory) = resolve isFile source (pathOf directory) := by
  rw [resolve, resolve]
  split
  · rfl
  · exact List.find?_congr fun path hpath ↦
      hfiles path (isElsewhere_of_mem_candidates hname hdirectory helsewhere hlocal havoids hpath)

end Elsewhere

end Specifier

/-! ### Analyses that get the same answers -/

namespace Journal

theorem Act.move_id (act : Act) : act.move id = act := by
  cases act with
  | book booking => cases booking <;> rfl
  | call | enter | remark => rfl

theorem Task.move_id (task : Task) : task.move id = task := by
  cases task <;> rfl

section Agree

variable {files files' : Files} {inside : Path → Prop}
  (hexamine : ∀ path, inside path → examine files' path = examine files path)

include hexamine

theorem replay_congr {acts : List Act} (hacts : ∀ act ∈ acts, act.Inside inside)
    (ledger : Ledger) : replay files' acts ledger = replay files acts ledger := by
  induction acts generalizing ledger with
  | nil => rfl
  | cons act rest ih =>
    obtain ⟨hact, hrest⟩ := List.forall_mem_cons.mp hacts
    have hperform : perform files' ledger act = perform files ledger act := by
      cases act with
      | enter path depth =>
        rw [perform, perform]
        unfold judge
        rw [hexamine path hact]
      | call | book | remark => rfl
    rw [replay_cons, replay_cons, hperform, ih hrest]

/-- An agenda whose files are found the same in two places, and so are all to which their imports
lead, comes to the same. -/
theorem runAgenda_congr {options : Options}
    (hrelocation : Relocation files files' inside id) {agenda : List Task}
    (hagenda : ∀ task ∈ agenda, task.Inside files inside) :
    runAgenda files' options agenda {} = runAgenda files options agenda {} := by
  have hrun : Run files options [] agenda (journal files options agenda []) := run_journal _ _
  obtain ⟨hmoved, hinside⟩ :=
    hrelocation.run_move hrun (fun path hpath ↦ absurd hpath List.not_mem_nil) hagenda
  rw [List.map_congr_left fun task _ ↦ Task.move_id task,
    List.map_congr_left fun act _ ↦ Act.move_id act, List.map_id', List.map_id'] at hmoved
  rw [hrun.run_eq_replay covers_empty, ← replay_congr hexamine hinside]
  exact hmoved.run_eq_replay covers_empty

end Agree

end Journal

namespace FileTree

/-! ### What a walk hands over -/

section Sightings

variable {tree : FileTree} (hfree : tree.isLinkFree = true) {excluded : Exclusion}

include hfree

/-- Without links, what is come across under a name is a file, or a directory and what is found on
entering it. -/
theorem mem_sightName_of_free {enter : Path → Location → List Sighting}
    {opened : List OpenDirectory} {path : Path} {location : Location} {name : String}
    {sighting : Sighting}
    (hsighting : sighting ∈ sightName tree excluded enter opened path location name) :
    (sighting = .file (path.join name) ∧
        ∃ content, tree.root.find? (location ++ [name]) = some (.file content)) ∨
      sighting = .directory (path.join name) ∨
      sighting ∈ enter (path.join name) (location ++ [name]) := by
  have hkept {sightings : List Sighting}
      (hmem : sighting ∈ if excluded (path.join name) name = true then [] else sightings) :
      sighting ∈ sightings := by
    split at hmem
    · cases hmem
    · exact hmem
  rw [sightName] at hsighting
  cases hfound : tree.root.find? (location ++ [name]) with
  | none =>
    rw [hfound] at hsighting
    cases hsighting
  | some found =>
    rw [hfound] at hsighting
    cases found with
    | file content =>
      exact Or.inl ⟨List.mem_singleton.mp (hkept hsighting), content, rfl⟩
    | directory entries => exact Or.inr (List.mem_cons.mp (hkept hsighting))
    | link target => exact absurd hfound (Entry.find?_concat_ne_link hfree _ _ target)

theorem mem_walkBelow_of_free {depth : Nat} {opened : List OpenDirectory} {path : Path}
    {location : Location} {sighting : Sighting}
    (hsighting : sighting ∈ walkBelow tree excluded depth opened path location) :
    (∃ child, sighting = .directory child) ∨
      (∃ child, pathLimit < child.text.utf8ByteSize ∧
        sighting = .inaccessible child .nameTooLong) ∨
      ∃ names content, sighting = .file (joined path names) ∧
        tree.root.find? (location ++ names) = some (.file content) := by
  induction depth generalizing opened path location with
  | zero => cases hsighting
  | succ depth ih =>
    rcases mem_walkBelow hsighting with hlong | ⟨name, _, hhere⟩
    · exact Or.inr (Or.inl ⟨path, hlong⟩)
    rcases mem_sightName_of_free hfree hhere with ⟨heq, content, hfile⟩ | heq | hbelow
    · exact Or.inr (Or.inr ⟨[name], content, heq, hfile⟩)
    · exact Or.inl ⟨_, heq⟩
    · rcases ih hbelow with hdirectory | hlong | ⟨names, content, heq, hfile⟩
      · exact Or.inl hdirectory
      · exact Or.inr (Or.inl hlong)
      · refine Or.inr (Or.inr ⟨name :: names, content, heq, ?_⟩)
        rwa [List.append_assoc, List.singleton_append] at hfile

/-- Without links a walk comes across directories and files only, and its only faults are paths that
are too long. -/
theorem mem_walk_of_free {start : Path} {location : Location} {sighting : Sighting}
    (hlocate : tree.locate start = .ok location)
    (hsighting : sighting ∈ tree.walk excluded start) :
    (∃ child, sighting = .directory child) ∨
      (∃ child, pathLimit < child.text.utf8ByteSize ∧
        sighting = .inaccessible child .nameTooLong) ∨
      ∃ names found, sighting = .file (joined start names) ∧
        tree.root.find? (location ++ names) = some found := by
  obtain ⟨found, hfound⟩ := exists_of_locate hlocate
  rw [walk, hlocate] at hsighting
  simp only [hfound] at hsighting
  cases found with
  | directory entries =>
    rcases List.mem_cons.mp hsighting with heq | hbelow
    · exact Or.inl ⟨_, heq⟩
    · rcases mem_walkBelow_of_free hfree hbelow with
        hdirectory | hlong | ⟨names, content, heq, hfile⟩
      · exact Or.inl hdirectory
      · exact Or.inr (Or.inl hlong)
      · exact Or.inr (Or.inr ⟨names, _, heq, hfile⟩)
  | file | link =>
    have hhere := (congrArg tree.root.find? (List.append_nil location)).trans hfound
    exact Or.inr (Or.inr ⟨[], _, List.mem_singleton.mp hsighting, hhere⟩)

end Sightings

/-! ### What imports spell -/

/-- Whether an event is no import whose specifier contains a name. -/
def avoidsName (name : String) : Source.Event → Bool
  | .imported source _ => !Text.Search.contains source name
  | _ => true

/-- Whether no import of a source file contains a name in its specifier. -/
def Entry.importsAvoid (parse : Source.Parser) (root : Entry) (name : String) : Bool :=
  root.places.all fun place ↦
    !Specifier.isSourceName (place.getLastD "") ||
      (root.eventsAt parse (pathOf place).text place).all (avoidsName name)

theorem Entry.contains_eq_false_of_mem_eventsAt {parse : Source.Parser} {root : Entry}
    {name : String} (havoid : root.importsAvoid parse name = true) {place : Location}
    (hplace : IsSourcePlace place) {source : String} {names : List String}
    (hevent : .imported source names ∈ root.eventsAt parse (pathOf place).text place) :
    Text.Search.contains source name = false := by
  have hhere := List.all_eq_true.mp havoid place (Entry.mem_places_of_mem_eventsAt hevent)
  rw [hplace.source, Bool.not_true, Bool.false_or, List.all_eq_true] at hhere
  have himported := hhere _ hevent
  rwa [avoidsName, Bool.not_eq_true_eq_eq_false] at himported

theorem exists_text_of_examine {parse : Source.Parser} {tree : FileTree} {path : Path}
    {parsed : Source.Parsed} (hexamine : examine (.ofTree parse tree) path = .source parsed) :
    ∃ text, tree.readText path = .ok text ∧ parse path.text text = some parsed := by
  rw [Journal.examine_ofTree] at hexamine
  split at hexamine
  · cases hexamine
  · cases hread : tree.readText path with
    | error fault =>
      rw [hread] at hexamine
      cases hexamine
    | ok text =>
      rw [hread] at hexamine
      exact ⟨text, rfl, parse_of_examineText hexamine⟩

/-- The events of a file are those of its text. -/
theorem mem_eventsAt_of_mem_eventsOf {parse : Source.Parser} {tree : FileTree}
    (hfree : tree.isLinkFree = true) {place : Location} (hplace : IsSourcePlace place)
    {event : Source.Event} (hevent : event ∈ Journal.eventsOf (.ofTree parse tree) (pathOf place)) :
    event ∈ tree.root.eventsAt parse (pathOf place).text place := by
  rw [Journal.eventsOf] at hevent
  cases hexamine : examine (.ofTree parse tree) (pathOf place) with
  | source parsed =>
    rw [hexamine] at hevent
    obtain ⟨text, hread, hparse⟩ := exists_text_of_examine hexamine
    have htext : (tree.entry (pathOf place)).toOption.bind Entry.text? = some text := by
      rw [← toOption_readText, hread]
      rfl
    cases hentry : tree.entry (pathOf place) with
    | error fault =>
      rw [hentry] at htext
      cases htext
    | ok found =>
      have hfound := ((entry_pathOf_iff hplace.nonempty hplace.proper
        (Entry.straightTo_of_free hfree place)).mp hentry).2
      rw [hentry] at htext
      have hhere : (tree.root.find? place).bind Entry.text? = some text := by
        rw [hfound]
        exact htext
      rw [Entry.eventsAt, hhere]
      dsimp only
      rw [hparse]
      exact hevent
  | passedOver | unreadable | oversized | unparsable =>
    rw [hexamine] at hevent
    cases hevent

/-! ### The questions of an analysis -/

/-- A path for which a new file makes no difference: that of a source file elsewhere, or one that is
too long to lead anywhere. -/
def IsUntouched (above : Location) (name : String) (path : Path) : Prop :=
  IsElsewhere above name path ∨ pathLimit < path.text.utf8ByteSize

theorem readText_of_long {path : Path} (hlong : pathLimit < path.text.utf8ByteSize)
    (tree tree' : FileTree) : tree'.readText path = tree.readText path := by
  obtain ⟨fault, hlocate⟩ := locate_of_long hlong
  rw [readText, readText, FileTree.entry, FileTree.entry, hlocate, hlocate]
  rfl

/-- Only a path that leads somewhere has events. -/
theorem isElsewhere_of_mem_eventsOf {parse : Source.Parser} {tree : FileTree} {above : Location}
    {name : String} {path : Path} (hpath : IsUntouched above name path) {event : Source.Event}
    (hevent : event ∈ Journal.eventsOf (.ofTree parse tree) path) :
    IsElsewhere above name path := by
  refine hpath.resolve_right fun hlong ↦ ?_
  rw [Journal.eventsOf_of_not_source (isSource_of_long hlong)] at hevent
  cases hevent

section Analysis

variable {parse : Source.Parser} {tree : FileTree} {above : Location} {name : String}
  {entries : List (String × Entry)} (hvacant : tree.root.Vacant above name entries)
  (content : Content) (hfree : tree.isLinkFree = true)

include hvacant hfree

theorem surface_entry_elsewhere {path : Path} (hpath : IsElsewhere above name path) :
    ((tree.addFile above name content).entry path).map Entry.surface =
      (tree.entry path).map Entry.surface := by
  obtain ⟨place, hplace, helsewhere, rfl⟩ := hpath
  exact surface_entry_addFile hvacant content
    (locate_addFile_pathOf hvacant content hfree hplace.nonempty hplace.proper helsewhere)

theorem examine_untouched {path : Path} (hpath : IsUntouched above name path) :
    examine (.ofTree parse (tree.addFile above name content)) path =
      examine (.ofTree parse tree) path := by
  have hread : (tree.addFile above name content).readText path = tree.readText path := by
    rcases hpath with hwhere | hlong
    · exact readText_of_surface (surface_entry_elsewhere hvacant content hfree hwhere)
    · exact readText_of_long hlong _ _
  rw [Journal.examine_ofTree, Journal.examine_ofTree, hread]

variable (hproper : Path.isProperName name = true) (hname : Specifier.isSourceName name = false)
  (havoid : tree.root.importsAvoid parse name = true)

include hproper hname havoid

/-- What an import asks for is found the same, and lies elsewhere too. -/
theorem importTarget?_elsewhere {path : Path} (hpath : IsElsewhere above name path)
    {source : String} {names : List String}
    (hevent : .imported source names ∈ Journal.eventsOf (.ofTree parse tree) path) :
    importTarget? (.ofTree parse (tree.addFile above name content)) path source =
        importTarget? (.ofTree parse tree) path source ∧
      ∀ target, importTarget? (.ofTree parse tree) path source = some target →
        IsElsewhere above name target := by
  obtain ⟨place, hplace, helsewhere, rfl⟩ := hpath
  have hspells : name ∉ Path.segmentsOf source :=
    Path.not_mem_segmentsOf hproper (Entry.contains_eq_false_of_mem_eventsAt havoid hplace
      (mem_eventsAt_of_mem_eventsOf hfree hplace hevent))
  have hsplit := dropLast_append_getLastD hplace.nonempty
  have hnames : ∀ other ∈ place.dropLast ++ [place.getLastD ""],
      Path.isProperName other = true := by
    rw [hsplit]
    exact hplace.proper
  have hparent : (pathOf place).parent? = some (pathOf place.dropLast) := by
    rw [← Path.parent?_pathOf hnames, hsplit]
  have hdirectory := (List.forall_mem_append.mp hnames).1
  have habove : ¬ above ++ [name] <+: place.dropLast :=
    fun hfront ↦ helsewhere (hfront.trans (List.dropLast_prefix place))
  rw [importTarget?, importTarget?, hparent, Option.bind_some, Option.bind_some]
  by_cases hlocal : Specifier.isLocal source = true
  · rw [if_pos hlocal, if_pos hlocal]
    refine ⟨Specifier.resolve_congr hname hdirectory habove hlocal hspells fun path hpath ↦ ?_,
      fun target htarget ↦
        Specifier.isElsewhere_of_resolve hname hdirectory habove hlocal hspells htarget⟩
    exact hasFile_of_surface (surface_entry_elsewhere hvacant content hfree hpath)
  · rw [if_neg hlocal, if_neg hlocal]
    exact ⟨rfl, fun target htarget ↦ absurd htarget (Option.some_ne_none target).symm⟩

theorem relocation_addFile :
    Journal.Relocation (.ofTree parse tree) (.ofTree parse (tree.addFile above name content))
      (IsUntouched above name) id where
  keys _ _ _ _ := Iff.rfl
  passedOver _ _ := rfl
  examined path hpath := Or.inl (examine_untouched hvacant content hfree hpath).symm
  target path source names hpath hevent := by
    rw [Option.map_id]
    have hwhere := isElsewhere_of_mem_eventsOf hpath hevent
    exact (importTarget?_elsewhere hvacant content hfree hproper hname havoid hwhere hevent).1
  stays path target hpath himports := by
    obtain ⟨source, names, hevent, htarget⟩ := himports
    have hwhere := isElsewhere_of_mem_eventsOf hpath hevent
    exact Or.inl ((importTarget?_elsewhere hvacant content hfree hproper hname havoid hwhere
      hevent).2 target htarget)

end Analysis

end FileTree

/-! ### The analysis as a whole -/

namespace FileTree

/-- The path of the root directory leads there. -/
theorem locate_root {tree : FileTree} {entries : List (String × Entry)}
    (hroot : tree.root = .directory entries) : tree.locate (pathOf []) = .ok [] := by
  have hfind : tree.root.find? [] = some (.directory entries) := by
    rw [hroot]
    rfl
  have hsegments : Path.segmentsOf (pathOf []).text = ["", ""] := by decide
  have hstart : startOf (pathOf []).text tree.workingDirectory = [] := rfl
  have hsilent : Path.isSilent "" = true := rfl
  rw [locate, locateFor, if_neg (by decide), if_neg (by decide), if_neg (by decide), hsegments,
    hstart, linkLimit, follow]
  simp only [followSegments, hfind, hsilent, if_true]

theorem eq_of_locate_pathOf {tree : FileTree} (hfree : tree.isLinkFree = true)
    {entries : List (String × Entry)} (hroot : tree.root = .directory entries)
    {names location : Location} (hnames : ∀ name ∈ names, Path.isProperName name = true)
    (hlocate : tree.locate (pathOf names) = .ok location) : location = names := by
  by_cases hnonempty : names = []
  · subst hnonempty
    exact Except.ok.inj (hlocate.symm.trans (locate_root hroot))
  · exact ((locate_pathOf_iff hnonempty hnames (Entry.straightTo_of_free hfree names)).mp
      hlocate).1

theorem Entry.Vacant.exists_directory {root : Entry} {above : Location} {name : String}
    {entries : List (String × Entry)} (hvacant : root.Vacant above name entries) :
    ∃ others, root = .directory others := by
  cases above with
  | nil => exact ⟨entries, Option.some.inj hvacant.directory⟩
  | cons first rest =>
    obtain ⟨others, _, hroot, _⟩ := hvacant.exists_next
    exact ⟨others, hroot⟩

theorem exists_locate_of_has {tree : FileTree} {path : Path} (hhas : tree.has path = true) :
    ∃ location, tree.locate path = .ok location := by
  rw [has] at hhas
  cases hentry : tree.entry path with
  | error fault =>
    rw [hentry] at hhas
    cases hhas
  | ok found =>
    obtain ⟨location, hlocate, _⟩ := entry_eq_ok_iff.mp hentry
    exact ⟨location, hlocate⟩

theorem has_of_hasDirectory {tree : FileTree} {path : Path}
    (hdirectory : tree.hasDirectory path = true) : tree.has path = true := by
  rw [hasDirectory] at hdirectory
  rw [has]
  cases hentry : tree.entry path with
  | error fault =>
    rw [hentry] at hdirectory
    cases hdirectory
  | ok found => rfl

end FileTree

theorem Survey.isExcluded_of_hidden {name : String}
    (hhidden : Text.Search.beginsWith name "." = true) (patterns : List Glob.Pattern)
    (path : Path) : isExcluded patterns path name = true := by
  rw [isExcluded, hhidden, Bool.or_true, Bool.true_or, Bool.true_or]

theorem isSourcePlace_of_isAnalysed {options : Options} {place : Location}
    (hplace : ∀ name ∈ place, Path.isProperName name = true)
    (hanalysed : Survey.isAnalysed options (pathOf place) = true) : IsSourcePlace place := by
  have hsource := (Bool.and_eq_true_iff.mp hanalysed).1
  rw [Survey.isSourceFile, Path.fileName?, Path.key_pathOf hplace] at hsource
  dsimp only at hsource
  cases hlast : place.getLast? with
  | none =>
    rw [hlast] at hsource
    cases hsource
  | some name =>
    have hdots : ¬ (name == "..") = true := by
      simpa using (Path.isProperName_iff.mp (hplace name (List.mem_of_getLast? hlast))).2.2.1
    rw [hlast] at hsource
    dsimp only at hsource
    rw [if_neg hdots] at hsource
    obtain ⟨extension, hextension, hends⟩ := Specifier.exists_extension hsource
    refine ⟨fun hempty ↦ ?_, hplace, ?_⟩
    · rw [hempty] at hlast
      cases hlast
    · rw [List.getLastD_eq_getLast?, hlast, Option.getD_some]
      exact List.any_eq_true.mpr ⟨extension, hextension, hends⟩

section Project

variable {parse : Source.Parser} {tree : FileTree} {above : Location} {name : String}
  {entries : List (String × FileTree.Entry)} (hvacant : tree.root.Vacant above name entries)
  (content : FileTree.Content) (hfree : tree.isLinkFree = true) (hnames : tree.isWellNamed = true)
  {options : Options} (hignores : options.ignores = [])

include hvacant hfree hnames hignores

/-- The files that a survey visits are elsewhere, and it remarks on paths only that are too long.
Assumes: there are no links and nothing is ignored. -/
theorem inside_surveyAgenda_untouched {location : Location}
    (hlocate : tree.locate (pathOf location) = .ok location) :
    ∀ task ∈ Journal.surveyAgenda tree options (pathOf location),
      task.Inside (.ofTree parse tree) (FileTree.IsUntouched above name) := by
  intro task htask
  have hlocation := FileTree.isProperName_of_locate hnames hlocate
  have hcomplaints : Survey.patternComplaints options = [] := by
    rw [Survey.patternComplaints, hignores, List.filterMap_nil]
  rw [Journal.surveyAgenda, hcomplaints, List.map_nil, List.nil_append, List.mem_filterMap] at htask
  obtain ⟨sighting, hsighting, htask⟩ := htask
  rcases FileTree.mem_walk_of_free hfree hlocate hsighting with
    ⟨child, rfl⟩ | ⟨child, hlong, rfl⟩ | ⟨names, found, rfl, hfound⟩
  · cases htask
  · cases htask
    exact Or.inr hlong
  · have hplace := FileTree.Entry.isProperName_of_find? hnames hfound
    rw [Path.joined_pathOf hlocation (List.forall_mem_append.mp hplace).2, Journal.taskOf?,
      Option.ite_none_right_eq_some] at htask
    obtain ⟨hanalysed, heq⟩ := htask
    cases heq
    exact Or.inl ⟨_, isSourcePlace_of_isAnalysed hplace hanalysed, hvacant.not_prefix hfound, rfl⟩

variable (hproper : Path.isProperName name = true)
  (hhidden : Text.Search.beginsWith name "." = true)
  (hname : Specifier.isSourceName name = false) (havoid : tree.root.importsAvoid parse name = true)

include hproper hhidden hname havoid

/-- A survey finds what it found before. -/
theorem survey_addFile {location : Location}
    (hlocate : tree.locate (pathOf location) = .ok location) :
    Survey.run parse (tree.addFile above name content) options (pathOf location) {} =
      Survey.run parse tree options (pathOf location) {} := by
  have hagenda : Journal.surveyAgenda (tree.addFile above name content) options (pathOf location) =
      Journal.surveyAgenda tree options (pathOf location) := by
    have hwalk := FileTree.walk_addFile hvacant content hfree
      (Survey.isExcluded_of_hidden hhidden (Survey.patterns options)) hlocate
    rw [Journal.surveyAgenda, Journal.surveyAgenda, Survey.sightings, Survey.sightings, hwalk]
  rw [Journal.survey_run_eq, Journal.survey_run_eq, hagenda]
  exact Journal.runAgenda_congr
    (fun _ hpath ↦ FileTree.examine_untouched hvacant content hfree hpath)
    (FileTree.relocation_addFile hvacant content hfree hproper hname havoid)
    (inside_surveyAgenda_untouched hvacant hfree hnames hignores hlocate)

omit hignores hproper hhidden hname havoid in
theorem rootOf_addFile {root : Path} {location : Location}
    (hlocate : tree.locate root = .ok location) :
    Project.rootOf (tree.addFile above name content) root = Project.rootOf tree root := by
  obtain ⟨found, hfound⟩ := FileTree.exists_of_locate hlocate
  have hlocation := FileTree.isProperName_of_locate hnames hlocate
  have hcanonical : (tree.addFile above name content).locate (pathOf location) =
      tree.locate (pathOf location) := by
    by_cases hnonempty : location = []
    · subst hnonempty
      obtain ⟨others, hothers⟩ := hvacant.exists_directory
      have hhere := FileTree.locate_root hothers
      rw [hhere, FileTree.locate_addFile hvacant content hfree hhere]
    · exact FileTree.locate_addFile_pathOf hvacant content hfree hnonempty hlocation
        (hvacant.not_prefix hfound)
  have hdirectory := FileTree.hasDirectory_of_surface
    (FileTree.surface_entry_addFile hvacant content hcanonical)
  rw [Project.rootOf, Project.rootOf, FileTree.canonical, FileTree.canonical, hlocate,
    FileTree.locate_addFile hvacant content hfree hlocate]
  simp only [Except.map, hdirectory]

/-- Adding a hidden file does not change an analysis. Assumes: the root is there, and no import
spells the name of the file. -/
theorem Project.analyze_addFile {root : Path} {location : Location}
    (hlocate : tree.locate root = .ok location) :
    Project.analyze parse (tree.addFile above name content) options root =
      Project.analyze parse tree options root := by
  have hroot := rootOf_addFile hvacant content hfree hnames hlocate
  cases husable : Project.rootOf tree root with
  | error problem =>
    rw [Project.analyze, Project.analyze, Project.tryAnalyze, Project.tryAnalyze, hroot, husable]
    rfl
  | ok path =>
    obtain ⟨place, hplace, rfl⟩ := Project.exists_locate_of_rootOf husable
    obtain ⟨others, hothers⟩ := hvacant.exists_directory
    obtain ⟨there, hthere⟩ := FileTree.exists_locate_of_has
      (FileTree.has_of_hasDirectory (Project.hasDirectory_of_rootOf husable))
    have heq := FileTree.eq_of_locate_pathOf hfree hothers
      (FileTree.isProperName_of_locate hnames hplace) hthere
    subst heq
    rw [Project.analyze_of_rootOf husable, Project.analyze_of_rootOf (hroot.trans husable),
      Project.ledgerOf, Project.ledgerOf,
      survey_addFile hvacant content hfree hnames hignores hproper hhidden hname havoid hthere]

end Project

end ComponentGraph
