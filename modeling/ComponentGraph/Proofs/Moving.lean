import ComponentGraph.Proofs.Inside
import ComponentGraph.Proofs.Relocation

/-!
Moving a project does not change its graph.

Seen from the root, a file of a project is a place, and everything an analysis asks about it is
answered by the project: how it is examined (`Rooted.exists_examine_eq`) and where its imports lead
(`Rooted.importTarget?_below`). Exchanging what stands above the root is therefore a relocation
(`Rooted.relocation`), and the two analyses do the same. The parser must not look above the root
either: it may go by the ending of a path only.

What stands above the root has one effect all the same. Below a long root the system refuses paths
that it takes below a short one, so a project has to fit at both.
-/

set_option autoImplicit false
set_option relaxedAutoImplicit false

namespace ComponentGraph

open Analysis
open FileTree (pathOf)
open Specifier (IsSourcePlace)

namespace FileTree

/-! ### The source files of a project -/

/-- What a survey comes across below a root are files of the project. -/
theorem Entry.file_of_mem_filesBelow {project entry : Entry} {names place : Location} {depth : Nat}
    (hfound : project.find? names = some entry) (hplace : place ∈ entry.filesBelow depth names) :
    ∃ content, project.find? place = some (.file content) := by
  induction depth generalizing entry names with
  | zero => cases hplace
  | succ depth ih =>
    rw [Entry.filesBelow, List.mem_flatMap] at hplace
    obtain ⟨name, _, hhere⟩ := hplace
    have hchild : project.find? (names ++ [name]) = entry.child? name := by
      rw [Entry.find?_concat, hfound]
      rfl
    split at hhere
    · cases hhere
    · cases hentry : entry.child? name with
      | none => simp [hentry] at hhere
      | some found =>
        rw [hentry] at hchild
        cases found with
        | file content =>
          simp only [hentry, List.mem_singleton] at hhere
          exact ⟨content, hhere ▸ hchild⟩
        | link target => simp [hentry] at hhere
        | directory entries =>
          simp only [hentry] at hhere
          exact ih hchild hhere

theorem Rooted.isSourcePlace_of_mem {tree : FileTree} {above : Location} {project : Entry}
    (hrooted : Rooted tree above project) {options : Options} {place : Location} {depth : Nat}
    (hplace : place ∈ (project.filesBelow depth []).filter (isAnalysedBelow options)) :
    IsSourcePlace place := by
  obtain ⟨hbelow, hanalysed⟩ := List.mem_filter.mp hplace
  obtain ⟨content, hfound⟩ := Entry.file_of_mem_filesBelow rfl hbelow
  have hsource := (Bool.and_eq_true_iff.mp hanalysed).1
  refine ⟨?_, hrooted.proper_below hfound, ?_⟩
  · rintro rfl
    exact Bool.false_ne_true hsource
  · obtain ⟨extension, hextension, hends⟩ := Specifier.exists_extension hsource
    exact List.any_eq_true.mpr ⟨extension, hextension, hends⟩

/-- The events of the file at a place in a project, if its text is read under this path. -/
def Entry.eventsAt (parse : Source.Parser) (project : Entry) (path : String) (place : Location) :
    List Source.Event :=
  match (project.find? place).bind Entry.text? with
  | some text =>
      match parse path text with
      | some parsed => parsed.module.events
      | none => []
  | none => []

/-- Whether an event of a file in a directory so many names below the root is no local import that
leads above the root. -/
def staysInside (depth : Nat) : Source.Event → Bool
  | .imported source _ =>
      !Specifier.isLocal source || Path.staysBelow depth (Path.segmentsOf source)
  | _ => true

/-- Whether no local import of a source file in a project leads above its root. -/
def Entry.importsStay (parse : Source.Parser) (project : Entry) : Bool :=
  project.places.all fun place ↦
    !Specifier.isSourceName (place.getLastD "") ||
      (project.eventsAt parse (place.getLastD "") place).all (staysInside place.dropLast.length)

theorem Entry.mem_places_of_mem_eventsAt {parse : Source.Parser} {project : Entry} {path : String}
    {place : Location} {event : Source.Event}
    (hevent : event ∈ project.eventsAt parse path place) : place ∈ project.places := by
  cases hfound : project.find? place with
  | none =>
    rw [Entry.eventsAt, hfound] at hevent
    cases hevent
  | some found => exact Entry.mem_places_of_find? hfound

theorem Entry.staysBelow_of_mem_eventsAt {parse : Source.Parser} {project : Entry}
    (hstay : project.importsStay parse = true) {place : Location} (hplace : IsSourcePlace place)
    {source : String} {names : List String}
    (hevent : .imported source names ∈ project.eventsAt parse (place.getLastD "") place)
    (hlocal : Specifier.isLocal source = true) :
    Path.staysBelow place.dropLast.length (Path.segmentsOf source) = true := by
  have hhere := List.all_eq_true.mp hstay place (Entry.mem_places_of_mem_eventsAt hevent)
  rw [hplace.source, Bool.not_true, Bool.false_or, List.all_eq_true] at hhere
  have himported := hhere _ hevent
  rwa [staysInside, hlocal, Bool.not_true, Bool.false_or] at himported

/-! ### One file seen from the root -/

/-- Whether a file of a project is passed over. -/
def isPassedOverBelow (place : Location) : Bool :=
  Text.Search.endsWith (place.getLastD "") ".d.ts" ||
    place.any fun name ↦ Text.Search.contains name "node_modules"

/-- What a file is by its name and its text. -/
def examineText (parse : Source.Parser) (name text : String) : Examination :=
  if characterLimit < text.length then .oversized
  else
    match parse name text with
    | none => .unparsable
    | some parsed => .source parsed

theorem parse_of_examineText {parse : Source.Parser} {name text : String} {parsed : Source.Parsed}
    (hexamine : examineText parse name text = .source parsed) :
    parse name text = some parsed := by
  rw [examineText] at hexamine
  split at hexamine
  · cases hexamine
  · cases hparse : parse name text with
    | none =>
      rw [hparse] at hexamine
      cases hexamine
    | some found =>
      rw [hparse] at hexamine
      cases hexamine
      rfl

/-- What a file of a project is. Why one cannot be read is left open. -/
def examineBelow (parse : Source.Parser) (project : Entry) (place : Location) (fault : Fault) :
    Examination :=
  if isPassedOverBelow place then .passedOver
  else
    ((project.reach? place).bind Entry.text?).elim (.unreadable fault)
      (examineText parse (place.getLastD ""))

theorem sameVerdict_examineBelow (parse : Source.Parser) (project : Entry) (place : Location)
    (fault fault' : Fault) :
    Journal.SameVerdict (examineBelow parse project place fault)
      (examineBelow parse project place fault') := by
  rw [examineBelow, examineBelow]
  split
  · exact Or.inl rfl
  · cases (project.reach? place).bind Entry.text? with
    | none => exact Or.inr ⟨fault, fault', rfl, rfl⟩
    | some text => exact Or.inl rfl

/-- A file that is parsed has a text in the project. -/
theorem text_of_examineBelow {parse : Source.Parser} {project : Entry} {place : Location}
    {fault : Fault} {parsed : Source.Parsed}
    (hexamine : examineBelow parse project place fault = .source parsed) :
    ∃ text, (project.find? place).bind Entry.text? = some text ∧
      parse (place.getLastD "") text = some parsed := by
  rw [examineBelow] at hexamine
  split at hexamine
  · cases hexamine
  · cases htext : (project.reach? place).bind Entry.text? with
    | none =>
      rw [htext] at hexamine
      cases hexamine
    | some text =>
      rw [htext] at hexamine
      refine ⟨text, ?_, parse_of_examineText hexamine⟩
      rw [Entry.reach?] at htext
      split at htext
      · exact htext
      · cases htext

/-- The place in a project to which a local import of a file leads. -/
def importBelow? (project : Entry) (place : Location) (source : String) : Option Location :=
  if Specifier.isLocal source then
    Specifier.resolveBelow (fun target ↦ (project.reach? target).any Entry.isFile) source
      place.dropLast
  else none

theorem isSourcePlace_of_importBelow? {project : Entry} {place target : Location} {source : String}
    (hplace : IsSourcePlace place) (himport : importBelow? project place source = some target) :
    IsSourcePlace target := by
  rw [importBelow?, Option.ite_none_right_eq_some] at himport
  have hdirectory : ∀ name ∈ place.dropLast, Path.isProperName name = true :=
    fun name hname ↦ hplace.proper name (List.mem_of_mem_dropLast hname)
  exact Specifier.isSourcePlace_of_resolveBelow hdirectory himport.2

theorem dropLast_append_getLastD {place : Location} (hnonempty : place ≠ []) :
    place.dropLast ++ [place.getLastD ""] = place := by
  rw [List.getLastD_eq_getLast?, List.getLast?_eq_some_getLast hnonempty, Option.getD_some,
    List.dropLast_append_getLast]

section File

variable {parse : Source.Parser} {tree : FileTree} {options : Options} {above : Location}
  {project : Entry} (hrooted : Rooted tree above project)

include hrooted

/-- The end of a path below the root is the end of the last name. -/
theorem Rooted.endsWith_append {place : Location} (hplace : IsSourcePlace place) {pattern : String}
    (hslash : '/' ∉ pattern.toList) :
    Text.Search.endsWith (pathOf (above ++ place)).text pattern =
      Text.Search.endsWith (place.getLastD "") pattern := by
  have hsegments : Path.segmentsOf (pathOf (above ++ place)).text =
      ("" :: (above ++ place.dropLast)) ++ [place.getLastD ""] := by
    rw [Path.segmentsOf_pathOf (List.append_ne_nil_of_right_ne_nil above hplace.nonempty)
      (hrooted.proper_append hplace.proper), List.cons_append, List.append_assoc,
      dropLast_append_getLastD hplace.nonempty]
  exact Path.endsWith_eq_of_segments hsegments hslash

theorem Rooted.isPassedOver_append (habove : Unremarkable options above) {place : Location}
    (hplace : IsSourcePlace place) :
    isPassedOver (pathOf (above ++ place)) = isPassedOverBelow place := by
  rw [isPassedOver, hrooted.endsWith_append hplace (by decide), contains_packages_append habove,
    isPassedOverBelow]

/-- A file below the root is examined by its place and by what the project has there. -/
theorem Rooted.exists_examine_eq (hending : parse.GoesByEnding) (hfits : Fits above project)
    (habove : Unremarkable options above) {place : Location} (hplace : IsSourcePlace place) :
    ∃ fault, examine (.ofTree parse tree) (pathOf (above ++ place)) =
      examineBelow parse project place fault := by
  have hread : (tree.readText (pathOf (above ++ place))).toOption =
      (project.reach? place).bind Entry.text? := by
    rw [toOption_readText, hrooted.toOption_entry hfits hplace.nonempty hplace.proper]
  have hparse : parse (pathOf (above ++ place)).text = parse (place.getLastD "") :=
    hending _ _ (congrArg not (hrooted.endsWith_append hplace (by decide)))
  rw [Journal.examine_ofTree, hrooted.isPassedOver_append habove hplace, hparse]
  cases htext : tree.readText (pathOf (above ++ place)) with
  | error fault =>
    refine ⟨fault, ?_⟩
    rw [examineBelow, ← hread, htext]
    rfl
  | ok text =>
    refine ⟨.notFound, ?_⟩
    rw [examineBelow, ← hread, htext]
    rfl

theorem Rooted.mem_eventsAt (hending : parse.GoesByEnding) (hfits : Fits above project)
    (habove : Unremarkable options above) {place : Location} (hplace : IsSourcePlace place)
    {event : Source.Event}
    (hevent : event ∈ Journal.eventsOf (.ofTree parse tree) (pathOf (above ++ place))) :
    event ∈ project.eventsAt parse (place.getLastD "") place := by
  obtain ⟨fault, hexamine⟩ := hrooted.exists_examine_eq hending hfits habove hplace
  rw [Journal.eventsOf] at hevent
  cases hexamined : examine (.ofTree parse tree) (pathOf (above ++ place)) with
  | source parsed =>
    obtain ⟨text, htext, hparse⟩ := text_of_examineBelow (hexamine.symm.trans hexamined)
    rw [hexamined] at hevent
    rw [Entry.eventsAt, htext]
    dsimp only
    rw [hparse]
    exact hevent
  | passedOver | unreadable | oversized | unparsable =>
    rw [hexamined] at hevent
    cases hevent

/-- A local import of a file below the root leads to a place in the project. -/
theorem Rooted.importTarget?_below (hfits : Fits above project)
    (hstay : project.importsStay parse = true) {place : Location} (hplace : IsSourcePlace place)
    {source : String} {names : List String}
    (hevent : .imported source names ∈ project.eventsAt parse (place.getLastD "") place) :
    importTarget? (.ofTree parse tree) (pathOf (above ++ place)) source =
      (importBelow? project place source).map fun target ↦ pathOf (above ++ target) := by
  rw [importTarget?, importBelow?]
  by_cases hlocal : Specifier.isLocal source = true
  · have hstays := Entry.staysBelow_of_mem_eventsAt hstay hplace hevent hlocal
    have hproper : ∀ name ∈ above ++ place.dropLast ++ [place.getLastD ""],
        Path.isProperName name = true := by
      rw [List.append_assoc, dropLast_append_getLastD hplace.nonempty]
      exact hrooted.proper_append hplace.proper
    have hparent : (pathOf (above ++ place)).parent? = some (pathOf (above ++ place.dropLast)) := by
      rw [← Path.parent?_pathOf hproper, List.append_assoc,
        dropLast_append_getLastD hplace.nonempty]
    have hdirectory : ∀ name ∈ place.dropLast, Path.isProperName name = true :=
      fun name hname ↦ hplace.proper name (List.mem_of_mem_dropLast hname)
    rw [if_pos hlocal, if_pos hlocal, hparent, Option.bind_some]
    refine Specifier.resolve_below hrooted.proper_above hdirectory hlocal hstays ?_
    intro target htarget
    have hfile : (Files.ofTree parse tree).isFile (pathOf (above ++ target)) =
        tree.hasFile (pathOf (above ++ target)) := rfl
    rw [hfile, hasFile_eq_any, hrooted.toOption_entry hfits htarget.nonempty htarget.proper]
  · rw [if_neg hlocal, if_neg hlocal, Option.map_none]

end File

/-! ### Exchanging what stands above the root -/

/-- The path of a source file below a root, whether it is there or not. -/
def IsBelow (above : Location) (path : Path) : Prop :=
  ∃ place, IsSourcePlace place ∧ path = pathOf (above ++ place)

/-- A path with what stands above the root exchanged. -/
def exchange (above above' : Location) (path : Path) : Path :=
  pathOf (above' ++ path.key.names.drop above.length)

section Exchange

variable {parse : Source.Parser} {tree tree' : FileTree} {options : Options}
  {above above' : Location} {project : Entry} (hrooted : Rooted tree above project)
  (hrooted' : Rooted tree' above' project) (habove : Unremarkable options above)
  (habove' : Unremarkable options above')

include hrooted

theorem Rooted.exchange_pathOf {place : Location} (hplace : IsSourcePlace place) :
    exchange above above' (pathOf (above ++ place)) = pathOf (above' ++ place) := by
  rw [exchange, Path.key_pathOf (hrooted.proper_append hplace.proper), List.drop_left]

theorem Rooted.key_eq_iff {place other : Location} (hplace : IsSourcePlace place)
    (hother : IsSourcePlace other) :
    (pathOf (above ++ place)).key = (pathOf (above ++ other)).key ↔ place = other := by
  rw [Path.key_pathOf (hrooted.proper_append hplace.proper),
    Path.key_pathOf (hrooted.proper_append hother.proper)]
  simp

include hrooted' habove habove'

/-- A project at two roots is a relocation. -/
theorem Rooted.relocation (hending : parse.GoesByEnding) (hfits : Fits above project)
    (hfits' : Fits above' project) (hstay : project.importsStay parse = true) :
    Journal.Relocation (.ofTree parse tree) (.ofTree parse tree') (IsBelow above)
      (exchange above above') := by
  refine ⟨?_, ?_, ?_, ?_, ?_⟩
  · rintro _ _ ⟨place, hplace, rfl⟩ ⟨other, hother, rfl⟩
    rw [hrooted.exchange_pathOf hplace, hrooted.exchange_pathOf hother,
      hrooted.key_eq_iff hplace hother, hrooted'.key_eq_iff hplace hother]
  · rintro _ ⟨place, hplace, rfl⟩
    rw [hrooted.exchange_pathOf hplace, hrooted.isPassedOver_append habove hplace,
      hrooted'.isPassedOver_append habove' hplace]
  · rintro _ ⟨place, hplace, rfl⟩
    obtain ⟨fault, hexamine⟩ := hrooted.exists_examine_eq hending hfits habove hplace
    obtain ⟨fault', hexamine'⟩ := hrooted'.exists_examine_eq hending hfits' habove' hplace
    rw [hrooted.exchange_pathOf hplace, hexamine, hexamine']
    exact sameVerdict_examineBelow parse project place fault fault'
  · rintro _ source names ⟨place, hplace, rfl⟩ hevent
    have hhere := hrooted.mem_eventsAt hending hfits habove hplace hevent
    rw [hrooted.exchange_pathOf hplace, hrooted.importTarget?_below hfits hstay hplace hhere,
      hrooted'.importTarget?_below hfits' hstay hplace hhere, Option.map_map]
    refine Option.map_congr fun target htarget ↦ ?_
    exact (hrooted.exchange_pathOf (isSourcePlace_of_importBelow? hplace htarget)).symm
  · rintro _ target ⟨place, hplace, rfl⟩ ⟨source, names, hevent, htarget⟩
    have hhere := hrooted.mem_eventsAt hending hfits habove hplace hevent
    rw [hrooted.importTarget?_below hfits hstay hplace hhere, Option.map_eq_some_iff] at htarget
    obtain ⟨destination, himport, rfl⟩ := htarget
    exact ⟨destination, isSourcePlace_of_importBelow? hplace himport, rfl⟩

/-- The agenda of a survey moves with the project. -/
theorem Rooted.surveyAgenda_exchange (hreadable : Readable above project)
    (hreadable' : Readable above' project) (hignores : options.ignores = []) :
    Journal.surveyAgenda tree' options (pathOf above') =
      (Journal.surveyAgenda tree options (pathOf above)).map
        (Journal.Task.move (exchange above above')) := by
  rw [hrooted.surveyAgenda_eq habove hreadable hignores,
    hrooted'.surveyAgenda_eq habove' hreadable' hignores, List.map_map]
  refine List.map_congr_left fun place hplace ↦ ?_
  have hmoved : exchange above above' (pathOf (above ++ place)) = pathOf (above' ++ place) :=
    hrooted.exchange_pathOf (hrooted.isSourcePlace_of_mem hplace)
  rw [Function.comp_apply, Journal.Task.move, hmoved]

end Exchange

theorem Rooted.inside_surveyAgenda {parse : Source.Parser} {tree : FileTree} {options : Options}
    {above : Location} {project : Entry} (hrooted : Rooted tree above project)
    (habove : Unremarkable options above) (hreadable : Readable above project)
    (hignores : options.ignores = []) :
    ∀ task ∈ Journal.surveyAgenda tree options (pathOf above),
      task.Inside (.ofTree parse tree) (IsBelow above) := by
  intro task htask
  rw [hrooted.surveyAgenda_eq habove hreadable hignores, List.mem_map] at htask
  obtain ⟨place, hplace, rfl⟩ := htask
  exact ⟨place, hrooted.isSourcePlace_of_mem hplace, rfl⟩

/-! ### Roots as long as a path may be -/

theorem isSource_of_long {parse : Source.Parser} {tree : FileTree} {path : Path}
    (hlong : pathLimit < path.text.utf8ByteSize) :
    Journal.isSource (.ofTree parse tree) path = false := by
  by_contra hsource
  have haccepted := (Journal.judgement_examine parse tree path).accepted_iff.mp
    (Bool.not_eq_false _ ▸ hsource)
  obtain ⟨_, text, hread, _⟩ := haccepted
  have htext := toOption_readText tree path
  rw [hread] at htext
  obtain ⟨found, hentry, _⟩ := Option.bind_eq_some_iff.mp htext.symm
  cases hlookup : tree.entry path with
  | error fault =>
    rw [hlookup] at hentry
    cases hentry
  | ok entry =>
    obtain ⟨location, hlocate, _⟩ := entry_eq_ok_iff.mp hlookup
    obtain ⟨fault, hfault⟩ := locate_of_long hlong
    cases (hfault tree).symm.trans hlocate

/-- Nothing below a root is parsed if its path is as long as a path may be. -/
theorem Rooted.parsed_of_long {tree : FileTree} {options : Options} {project : Entry}
    {above : Location} (hrooted : Rooted tree above project) (parse : Source.Parser)
    (habove : Unremarkable options above) (hreadable : Readable above project)
    (hignores : options.ignores = []) (hlong : pathLimit ≤ (pathOf above).text.utf8ByteSize) :
    (Project.ledgerOf parse tree options (pathOf above)).parsed = [] := by
  have hroot : above ≠ [] := by
    rintro rfl
    exact absurd hlong (by decide)
  have hbelow {names : Location} (hnames : names ≠ []) :
      pathLimit < (pathOf (above ++ names)).text.utf8ByteSize := by
    have hslash : "/".utf8ByteSize = 1 := by decide
    rw [Path.text_pathOf_append hroot hnames, String.utf8ByteSize_append,
      String.utf8ByteSize_append, hslash]
    omega
  have hunread : ∀ path ∈ Journal.entered (Journal.surveyJournal parse tree options (pathOf above)),
      Journal.isSource (.ofTree parse tree) path = false := by
    intro path hentered
    refine Journal.forall_entered_survey
      (fun path ↦ Journal.isSource (.ofTree parse tree) path = false) ?_ ?_ hentered
    · intro file hfile
      have htask := Journal.visit_mem_surveyAgenda hfile
      rw [hrooted.surveyAgenda_eq habove hreadable hignores, List.mem_map] at htask
      obtain ⟨place, hplace, hvisit⟩ := htask
      cases hvisit
      exact isSource_of_long (hbelow (hrooted.isSourcePlace_of_mem hplace).nonempty)
    · rintro importer target himporter ⟨source, names, hevent, _⟩
      rw [Journal.eventsOf_of_not_source himporter] at hevent
      cases hevent
  rw [Project.ledgerOf, Journal.parsed_survey, List.filter_eq_nil_iff]
  exact fun path hentered ↦ Bool.not_eq_true _ ▸ hunread path hentered

end FileTree

/-! ### Two roots -/

namespace Project

open FileTree (Entry)

/-- A project that can be moved: it has no links, and no local import in it leads above its root.
Nothing is ignored, and there is no focus or one without slashes. -/
structure Movable (parse : Source.Parser) (options : Options) (project : Entry) : Prop where
  free : project.allBelow (fun _ entry ↦ !entry.isLink) = true
  imports : project.importsStay parse = true
  ignores : options.ignores = []
  focus : ∀ focus, options.focus? = some focus → '/' ∉ focus.toList

/-- A project that stands at a canonical root, in whose path there is nothing that an analysis looks
for. -/
structure StandsAt (tree : FileTree) (options : Options) (project : Entry) (root : Path) :
    Prop where
  wellNamed : tree.isWellNamed = true
  canonical : rootOf tree root = .ok root
  found : tree.entry root = .ok project
  packages : Text.Search.contains root.text "node_modules" = false
  focus : ∀ focus, options.focus? = some focus → Text.Search.contains root.text focus = false

/-- Whether the system takes the paths of all that is in a project at a root. -/
def fitsAt (project : Entry) (root : Path) : Bool :=
  project.places.all fun names ↦
    decide ((FileTree.joined root names).text.utf8ByteSize ≤ FileTree.pathLimit)

/-- Texts of the paths of one file at two roots. -/
def SameFile (root root' : Path) (file file' : String) : Prop :=
  ∃ names : Location, names ≠ [] ∧ (∀ name ∈ names, Path.isProperName name = true) ∧
    file = (FileTree.joined root names).text ∧ file' = (FileTree.joined root' names).text

/-- Nodes that agree but for the root of the file in which they are declared. -/
structure SameNode (root root' : Path) (node node' : Node) : Prop where
  id : node'.id = node.id
  children : node'.children = node.children
  kind : node'.kind = node.kind
  usedCount : node'.usedCount = node.usedCount
  file : SameFile root root' node.filePath node'.filePath ∨
    node.filePath = "unknown/" ++ node.id ∧ node'.filePath = node.filePath

/-- Completed analyses at two roots with the same nodes, the same figures, and diagnostics of the
same steps for the same files, all in the same order. -/
structure SameGraph (root root' : Path) (outcome outcome' : Outcome) : Prop where
  nodes : List.Forall₂ (SameNode root root') outcome.nodes outcome'.nodes
  summary : ∃ total shown parsed skipped,
    outcome.summary = .completed total shown parsed skipped ∧
      outcome'.summary = .completed total shown parsed skipped
  diagnostics : List.Forall₂
    (fun diagnostic diagnostic' ↦ diagnostic'.step = diagnostic.step ∧
      SameFile root root' diagnostic.file diagnostic'.file)
    outcome.diagnostics outcome'.diagnostics

theorem StandsAt.exists_rooted {parse : Source.Parser} {tree : FileTree} {options : Options}
    {project : Entry} {root : Path} (hstands : StandsAt tree options project root)
    (hmovable : Movable parse options project) :
    ∃ above, root = pathOf above ∧ FileTree.Rooted tree above project ∧
      FileTree.Unremarkable options above := by
  obtain ⟨above, hlocate, hroot⟩ := exists_locate_of_rootOf hstands.canonical
  obtain ⟨location, hlocation, hfound⟩ := FileTree.entry_eq_ok_iff.mp hstands.found
  cases hlocate.symm.trans hlocation
  subst hroot
  have hdirectory : ∃ entries, project = .directory entries := by
    have husable := hstands.canonical
    rw [rootOf, FileTree.canonical, hlocate] at husable
    have hhas : tree.hasDirectory (pathOf above) = true := by
      by_contra hno
      simp [Except.map, hno] at husable
    rw [FileTree.hasDirectory, hstands.found] at hhas
    cases project with
    | directory entries => exact ⟨entries, rfl⟩
    | file | link => cases hhas
  refine ⟨above, rfl, ⟨hstands.wellNamed, hfound, hdirectory, hlocate, hmovable.free⟩,
    hstands.packages, fun focus hfocus ↦ ?_⟩
  exact ⟨hmovable.focus focus hfocus, hstands.focus focus hfocus⟩

theorem fits_of_fitsAt {tree : FileTree} {project : Entry} {above : Location}
    (hrooted : FileTree.Rooted tree above project) (hfits : fitsAt project (pathOf above) = true) :
    FileTree.Fits above project := by
  intro names entry hentry
  have hsize := List.all_eq_true.mp hfits names (FileTree.Entry.mem_places_of_find? hentry)
  rw [decide_eq_true_eq, Path.joined_pathOf hrooted.proper_above (hrooted.proper_below hentry)]
    at hsize
  exact hsize

theorem analyze_of_rootOf {parse : Source.Parser} {tree : FileTree} {options : Options}
    {root path : Path} (hroot : rootOf tree root = .ok path) :
    analyze parse tree options root = outcomeOf options (ledgerOf parse tree options path) := by
  rw [analyze, tryAnalyze, hroot]
  rfl

theorem sameFile_of_movedFile {tree tree' : FileTree} {project : Entry} {above above' : Location}
    (hrooted : FileTree.Rooted tree above project) (hrooted' : FileTree.Rooted tree' above' project)
    {file file' : String}
    (hfile : Journal.MovedFile (FileTree.IsBelow above) (FileTree.exchange above above')
      file file') :
    SameFile (pathOf above) (pathOf above') file file' := by
  obtain ⟨_, ⟨place, hplace, rfl⟩, rfl, rfl⟩ := hfile
  refine ⟨place, hplace.nonempty, hplace.proper, ?_, ?_⟩
  · rw [Path.joined_pathOf hrooted.proper_above hplace.proper]
  · rw [Path.joined_pathOf hrooted'.proper_above hplace.proper, hrooted.exchange_pathOf hplace]

/-- Moving a project does not change its graph. Assumes: the parser goes by the ending of a path,
and the project fits at both roots. -/
theorem moving_keeps_graph {parse : Source.Parser} (hending : parse.GoesByEnding)
    {tree tree' : FileTree} {options : Options} {project : Entry} {root root' : Path}
    (hmovable : Movable parse options project) (hstands : StandsAt tree options project root)
    (hstands' : StandsAt tree' options project root') (hfits : fitsAt project root = true)
    (hfits' : fitsAt project root' = true) :
    SameGraph root root' (analyze parse tree options root) (analyze parse tree' options root') := by
  rw [analyze_of_rootOf hstands.canonical, analyze_of_rootOf hstands'.canonical]
  obtain ⟨above, rfl, hrooted, habove⟩ := hstands.exists_rooted hmovable
  obtain ⟨above', rfl, hrooted', habove'⟩ := hstands'.exists_rooted hmovable
  have hplaces := fits_of_fitsAt hrooted hfits
  have hplaces' := fits_of_fitsAt hrooted' hfits'
  have hrelocation :=
    hrooted.relocation hrooted' habove habove' hending hplaces hplaces' hmovable.imports
  have hmoved : Journal.Moved (FileTree.IsBelow above) (FileTree.exchange above above')
      (ledgerOf parse tree options (pathOf above))
      (ledgerOf parse tree' options (pathOf above')) := by
    rw [ledgerOf, ledgerOf, Journal.survey_run_eq, Journal.survey_run_eq,
      hrooted.surveyAgenda_exchange hrooted' habove habove' hplaces.readable hplaces'.readable
        hmovable.ignores]
    exact hrelocation.moved_runAgenda
      (hrooted.inside_surveyAgenda habove hplaces.readable hmovable.ignores)
  have hnodes := hmoved.nodes options.maxNodes
  refine ⟨?_, ⟨_, _, _, _, rfl, ?_⟩, ?_⟩
  · refine hnodes.imp fun node node' hnode ↦ ?_
    refine ⟨hnode.id, hnode.children, hnode.kind, hnode.usedCount, ?_⟩
    rcases hnode.file with hdeclared | ⟨hunknown, hunknown'⟩
    · exact Or.inl (sameFile_of_movedFile hrooted hrooted' hdeclared)
    · exact Or.inr ⟨hunknown, hunknown'.trans hunknown.symm⟩
  · have htotal : (ledgerOf parse tree' options (pathOf above')).records.length =
        (ledgerOf parse tree options (pathOf above)).records.length := by
      rw [hmoved.records, Ledger.moveRecords, List.length_map]
    rw [outcomeOf]
    dsimp only
    rw [Ranking.shown, Ranking.shown, hnodes.length_eq, hmoved.parsed, hmoved.skipped,
      List.length_map, List.length_map]
    rw [Ranking.ofLedger, Ranking.ofLedger, htotal]
  · refine hmoved.diagnostics.imp fun diagnostic diagnostic' hdiagnostic ↦ ?_
    exact ⟨hdiagnostic.step, sameFile_of_movedFile hrooted hrooted' hdiagnostic.file⟩

/-- Two files that import each other, and an element that is declared nowhere. -/
def shop : Entry := .directory [
  ("App.tsx", .file (.text
    "import \x7b Button \x7d from './lib/Button'; function App() \x7b return <Button/> \x7d")),
  ("lib", .directory [("Button.tsx", .file (.text
    "import '../App.tsx'; function Button() \x7b return <Missing/> \x7d"))])]

/-- The same project at two roots. -/
def branches : FileTree where
  root := .directory [("a", shop), ("srv", .directory [("b", shop)])]
  workingDirectory := []

theorem moving_keeps_graph_branches :
    Movable Source.parse { focusComponent := "Button" } shop ∧
      StandsAt branches { focusComponent := "Button" } shop ⟨"/a"⟩ ∧
        StandsAt branches { focusComponent := "Button" } shop ⟨"/srv/b"⟩ ∧
          fitsAt shop ⟨"/a"⟩ = true ∧ fitsAt shop ⟨"/srv/b"⟩ = true ∧
            SameGraph ⟨"/a"⟩ ⟨"/srv/b"⟩
              (analyze Source.parse branches { focusComponent := "Button" } ⟨"/a"⟩)
              (analyze Source.parse branches { focusComponent := "Button" } ⟨"/srv/b"⟩) := by
  have hfocus (focus : String)
      (hsome : Options.focus? { focusComponent := "Button" } = some focus) : focus = "Button" :=
    (Option.some.inj hsome).symm
  have hmovable : Movable Source.parse { focusComponent := "Button" } shop := by
    refine ⟨by decide +kernel, by decide +kernel, rfl, fun focus hsome ↦ ?_⟩
    rw [hfocus focus hsome]
    decide
  have hstands : StandsAt branches { focusComponent := "Button" } shop ⟨"/a"⟩ := by
    refine ⟨by decide +kernel, by decide +kernel, ?_, by decide +kernel, fun focus hsome ↦ ?_⟩
    · exact FileTree.entry_eq_ok_iff.mpr ⟨["a"], by decide +kernel, rfl⟩
    · rw [hfocus focus hsome]
      decide +kernel
  have hstands' : StandsAt branches { focusComponent := "Button" } shop ⟨"/srv/b"⟩ := by
    refine ⟨by decide +kernel, by decide +kernel, ?_, by decide +kernel, fun focus hsome ↦ ?_⟩
    · exact FileTree.entry_eq_ok_iff.mpr ⟨["srv", "b"], by decide +kernel, rfl⟩
    · rw [hfocus focus hsome]
      decide +kernel
  have hfits : fitsAt shop ⟨"/a"⟩ = true := by decide +kernel
  have hfits' : fitsAt shop ⟨"/srv/b"⟩ = true := by decide +kernel
  exact ⟨hmovable, hstands, hstands', hfits, hfits',
    moving_keeps_graph Source.goesByEnding_parse hmovable hstands hstands' hfits hfits'⟩

/-! ### A root where a project does not fit -/

/-- A project of one file. -/
def cottage : Entry := .directory [("App.ts", .file (.text "function App() \x7b\x7d"))]

/-- An entry so many directories deep. -/
def bury (entry : Entry) : Nat → Entry
  | 0 => entry
  | depth + 1 => .directory [("a", bury entry depth)]

theorem find?_bury (entry : Entry) (depth : Nat) :
    (bury entry depth).find? (List.replicate depth "a") = some entry := by
  induction depth with
  | zero => rfl
  | succ depth ih => exact ih

theorem allBelow_bury {test : String → Entry → Bool} {entry : Entry}
    (hentry : entry.allBelow test = true) (htest : ∀ depth, test "a" (bury entry depth) = true)
    (depth : Nat) : (bury entry depth).allBelow test = true := by
  induction depth with
  | zero => exact hentry
  | succ depth ih =>
    rw [bury, FileTree.Entry.allBelow, FileTree.Entry.allNamed_iff]
    exact List.forall_mem_singleton.mpr ⟨htest depth, ih⟩

theorem utf8ByteSize_joinSegments_replicate (depth : Nat) :
    (Path.joinSegments (List.replicate (depth + 1) "a")).utf8ByteSize = 2 * depth + 1 := by
  induction depth with
  | zero => decide
  | succ depth ih =>
    have hname : "a".utf8ByteSize = 1 := by decide
    have hslash : "/".utf8ByteSize = 1 := by decide
    rw [List.replicate_succ, Path.joinSegments_cons "a" (by simp), String.utf8ByteSize_append,
      String.utf8ByteSize_append, ih, hname, hslash]
    omega

/-- The names of a root that lies deep. -/
def deepRoot (depth : Nat) : Location := "aa" :: List.replicate (depth + 1) "a"

theorem utf8ByteSize_deepRoot (depth : Nat) :
    (pathOf (deepRoot depth)).text.utf8ByteSize = 2 * depth + 5 := by
  have hname : "aa".utf8ByteSize = 2 := by decide
  have hslash : "/".utf8ByteSize = 1 := by decide
  rw [Path.text_pathOf, deepRoot, Path.joinSegments_cons "aa" (by simp), String.utf8ByteSize_append,
    String.utf8ByteSize_append, String.utf8ByteSize_append, utf8ByteSize_joinSegments_replicate,
    hname, hslash]
  omega

/-- One project at two roots, of which the second lies so deep. -/
def valley (depth : Nat) : FileTree where
  root := .directory [("home", cottage), ("aa", bury cottage (depth + 1))]
  workingDirectory := []

theorem allBelow_valley {test : String → Entry → Bool} (hhome : test "home" cottage = true)
    (hcottage : cottage.allBelow test = true)
    (htest : ∀ name depth, name = "a" ∨ name = "aa" → test name (bury cottage depth) = true)
    (depth : Nat) : (valley depth).root.allBelow test = true := by
  have hburied := allBelow_bury hcottage (fun depth ↦ htest "a" depth (Or.inl rfl)) (depth + 1)
  rw [valley, FileTree.Entry.allBelow, FileTree.Entry.allNamed_iff, List.forall_mem_cons]
  exact ⟨⟨hhome, hcottage⟩,
    List.forall_mem_singleton.mpr ⟨htest "aa" (depth + 1) (Or.inr rfl), hburied⟩⟩

theorem isWellNamed_valley (depth : Nat) : (valley depth).isWellNamed = true := by
  refine allBelow_valley (by decide) (by decide) (fun name _ hname ↦ ?_) depth
  rcases hname with rfl | rfl <;> decide

theorem isLinkFree_valley (depth : Nat) : (valley depth).isLinkFree = true := by
  refine allBelow_valley (by decide) (by decide) (fun _ buried _ ↦ ?_) depth
  cases buried <;> rfl

theorem standsAt_valley {depth : Nat} {above : Location} (hnonempty : above ≠ [])
    (hfound : (valley depth).root.find? above = some cottage)
    (haddressable : FileTree.isAddressable above = true)
    (hpackages : (above.any fun name ↦ Text.Search.contains name "node_modules") = false) :
    StandsAt (valley depth) {} cottage (pathOf above) := by
  have habove := FileTree.Entry.isProperName_of_find? (isWellNamed_valley depth) hfound
  have hlocate : (valley depth).locate (pathOf above) = .ok above :=
    (FileTree.locate_pathOf_iff hnonempty habove
      (FileTree.Entry.straightTo_of_free (isLinkFree_valley depth) above)).mpr
      ⟨rfl, haddressable, by rw [hfound, Option.isSome_some]⟩
  have hentry : (valley depth).entry (pathOf above) = .ok cottage :=
    FileTree.entry_eq_ok_iff.mpr ⟨above, hlocate, hfound⟩
  refine ⟨isWellNamed_valley depth, ?_, hentry, ?_, fun focus hfocus ↦ ?_⟩
  · rw [rootOf, FileTree.canonical, hlocate, Except.map]
    dsimp only
    rw [FileTree.hasDirectory, hentry]
    rfl
  · rw [Text.Search.contains_pathOf (by decide) (by decide), hpackages]
  · cases hfocus

theorem movable_cottage : Movable Source.parse {} cottage :=
  ⟨by decide, by decide +kernel, rfl, fun _ hfocus ↦ by cases hfocus⟩

theorem standsAt_home (depth : Nat) : StandsAt (valley depth) {} cottage (pathOf ["home"]) :=
  standsAt_valley (by decide) rfl (by decide) (by decide)

theorem find?_deepRoot (depth : Nat) :
    (valley depth).root.find? (deepRoot depth) = some cottage :=
  find?_bury cottage (depth + 1)

theorem standsAt_deepRoot {depth : Nat} (hdepth : depth ≤ 2045) :
    StandsAt (valley depth) {} cottage (pathOf (deepRoot depth)) := by
  refine standsAt_valley (List.cons_ne_nil _ _) (find?_deepRoot depth) ?_ ?_
  · have hlimit : FileTree.pathLimit = 4095 := rfl
    rw [FileTree.isAddressable, Bool.and_eq_true, decide_eq_true_eq, utf8ByteSize_deepRoot, hlimit]
    refine ⟨?_, by omega⟩
    rw [deepRoot, List.all_cons, List.all_replicate, if_neg (Nat.succ_ne_zero depth)]
    decide
  · rw [deepRoot, List.any_cons, List.any_replicate, if_neg (Nat.succ_ne_zero depth)]
    decide

theorem rooted_of_standsAt {depth : Nat} {above : Location}
    (hstands : StandsAt (valley depth) {} cottage (pathOf above))
    (hproper : ∀ name ∈ above, Path.isProperName name = true) :
    FileTree.Rooted (valley depth) above cottage ∧ FileTree.Unremarkable {} above := by
  obtain ⟨location, hpath, hrooted, hplain⟩ := hstands.exists_rooted movable_cottage
  cases Path.pathOf_injective hproper hrooted.proper_above hpath
  exact ⟨hrooted, hplain⟩

/-- The project has no directory but its root. -/
theorem readable_cottage {above : Location}
    (habove : (pathOf above).text.utf8ByteSize ≤ FileTree.pathLimit) :
    FileTree.Readable above cottage := by
  intro names entries hfound
  cases names with
  | nil => rwa [List.append_nil]
  | cons name rest =>
    rw [FileTree.Entry.find?] at hfound
    cases hchild : cottage.child? name with
    | none => simp [hchild] at hfound
    | some child =>
      have hlookup : List.lookup name [("App.ts", _)] = some child := hchild
      obtain ⟨_, rfl⟩ :=
        Prod.mk.inj (List.mem_singleton.mp (FileTree.Entry.mem_of_lookup hlookup))
      simp only [hchild] at hfound
      cases rest <;> cases hfound

theorem parsed_home :
    (ledgerOf Source.parse (valley 2045) {} (pathOf ["home"])).parsed = [⟨"/home/App.ts"⟩] := by
  obtain ⟨hrooted, habove⟩ := rooted_of_standsAt (standsAt_home 2045) (by decide)
  have hplaces : (cottage.filesBelow cottage.directoryCount []).filter
      (FileTree.isAnalysedBelow {}) = [["App.ts"]] := by
    decide +kernel
  rw [ledgerOf, Journal.survey_run_eq,
    hrooted.surveyAgenda_eq habove (readable_cottage (by decide)) rfl, hplaces]
  decide +kernel

/-- Moving a project to where it does not fit changes its graph. -/
theorem moving_changes_graph_of_long_root :
    ¬ ∀ (tree : FileTree) (options : Options) (project : Entry) (root root' : Path),
      Movable Source.parse options project → StandsAt tree options project root →
        StandsAt tree options project root' →
          SameGraph root root' (analyze Source.parse tree options root)
            (analyze Source.parse tree options root') := by
  intro hsame
  have hhome := standsAt_home 2045
  have hdeep := standsAt_deepRoot (Nat.le_refl 2045)
  have hgraph := hsame (valley 2045) {} cottage _ _ movable_cottage hhome hdeep
  have hproper := FileTree.Entry.isProperName_of_find? (isWellNamed_valley 2045)
    (find?_deepRoot 2045)
  obtain ⟨hrooted, habove⟩ := rooted_of_standsAt hdeep hproper
  have hreadable := readable_cottage (Nat.le_of_eq (utf8ByteSize_deepRoot 2045))
  have hnothing := hrooted.parsed_of_long Source.parse habove hreadable rfl
    (by rw [utf8ByteSize_deepRoot]; decide)
  obtain ⟨total, shown, parsed, skipped, hfirst, hsecond⟩ := hgraph.summary
  rw [analyze_of_rootOf hhome.canonical, outcomeOf, parsed_home] at hfirst
  rw [analyze_of_rootOf hdeep.canonical, outcomeOf, hnothing] at hsecond
  injection hfirst with _ _ hone
  injection hsecond with _ _ hzero
  exact absurd (hone.trans hzero.symm) (by decide)

end Project

end ComponentGraph
