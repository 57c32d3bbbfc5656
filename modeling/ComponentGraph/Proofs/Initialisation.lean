import ComponentGraph.Proofs.Precedence
import ComponentGraph.Proofs.Unseen

/-!
Writing a configuration changes no analysis.

In a tree without links, a path at which a file can be made is a missing name in a directory, so
writing there adds one file (`exists_addFile_of_write`). The name of a configuration is hidden and
is not that of a source file, so no analysis sees the file, as long as no import spells its name.

The search for a configuration does see it: where it found none before, it now finds none or the new
file (`climb_addFile`). The file holds the defaults, which are in force without a file too
(`options_load_addFile`).
-/

set_option autoImplicit false
set_option relaxedAutoImplicit false

namespace ComponentGraph

open FileTree (pathOf)

namespace FileTree

/-! ### Making a file -/

/-- Writing to a path that names nothing adds a file under the last name of the path. Assumes: there
are no links. -/
theorem exists_addFile_of_write {tree changed : FileTree} (hfree : tree.isLinkFree = true)
    {path : Path} {text : String} (hmissing : tree.has path = false)
    (hwrite : tree.write path text = .ok changed) {before : List String} {name : String}
    (hsegments : Path.segmentsOf path.text = before ++ [name]) :
    ∃ above entries, tree.root.Vacant above name entries ∧
      changed = tree.addFile above name (.text text) ∧
      changed.locate path = .ok (above ++ [name]) := by
  rw [write] at hwrite
  cases hcreate : locateFor .creating tree path with
  | error fault =>
    rw [hcreate] at hwrite
    cases hwrite
  | ok target =>
    rw [hcreate] at hwrite
    have hcases : tree.locate path = .ok target ∨
        ∃ before above name entries, Path.segmentsOf path.text = before ++ [name] ∧
          target = above ++ [name] ∧ tree.root.Vacant above name entries := by
      have hfollow := hcreate
      rw [locateFor, linkLimit, follow] at hfollow
      rw [locate, locateFor, linkLimit, follow]
      split_ifs at hfollow ⊢
      exact (leads_of_followSegments hfree hfollow).existing_or_vacant.imp_left
        fun hleads ↦ hleads.followSegments_eq _
    rcases hcases with hthere | ⟨front, above, last, entries, hlast, rfl, hvacant⟩
    · -- the path would name something
      obtain ⟨found, hfound⟩ := exists_of_locate hthere
      have hentry : tree.entry path = .ok found := entry_eq_ok_iff.mpr ⟨target, hthere, hfound⟩
      rw [has, hentry] at hmissing
      cases hmissing
    · obtain rfl : last = name :=
        List.singleton_inj.mp (List.append_inj' (hlast.symm.trans hsegments) rfl).2
      simp only [bind, Except.bind, hvacant.find?_eq_none, Except.ok.injEq] at hwrite
      subst hwrite
      exact ⟨above, entries, hvacant, rfl,
        locate_addFile_of_locateFor hvacant _ hfree hcreate fun _ ↦ rfl⟩

section Added

variable {tree : FileTree} {above : Location} {name : String} {entries : List (String × Entry)}
  (hvacant : tree.root.Vacant above name entries) (hfree : tree.isLinkFree = true)

include hvacant

/-- What the new file holds can be read by every path that leads to it. -/
theorem readText_addFile {text : String} {path : Path}
    (hlocate : (tree.addFile above name (.text text)).locate path = .ok (above ++ [name])) :
    (tree.addFile above name (.text text)).readText path = .ok text := by
  have hentry : (tree.addFile above name (.text text)).entry path = .ok (.file (.text text)) :=
    entry_eq_ok_iff.mpr ⟨_, hlocate, hvacant.find?_insert_self⟩
  rw [readText, hentry]
  rfl

include hfree

theorem straightTo_addFile (content : Content) (names : Location) :
    (tree.addFile above name content).root.StraightTo names := by
  intro front _ hnonempty link hlink
  by_cases hfront : above ++ [name] <+: front
  · obtain ⟨more, rfl⟩ := hfront
    have hself : (tree.addFile above name content).root.find? (above ++ [name]) = _ :=
      hvacant.find?_insert_self
    rw [Entry.find?_append, hself] at hlink
    cases more <;> cases hlink
  · have hsurface := surface_addFile hvacant content hfront
    rw [hlink] at hsurface
    obtain ⟨found, hfound, hsame⟩ := Option.map_eq_some_iff.mp hsurface.symm
    cases found <;> cases hsame
    exact Entry.straightTo_of_free hfree front front List.prefix_rfl hnonempty link hfound

theorem has_addFile_pathOf (content : Content) {place : Location} (hnonempty : place ≠ [])
    (hproper : ∀ other ∈ place, Path.isProperName other = true)
    (helsewhere : ¬ above ++ [name] <+: place) :
    (tree.addFile above name content).has (pathOf place) = tree.has (pathOf place) :=
  has_of_surface (surface_entry_addFile hvacant content
    (locate_addFile_pathOf hvacant content hfree hnonempty hproper helsewhere))

end Added

end FileTree

/-! ### The search for a configuration -/

namespace Config

theorem isProperName_fileName : Path.isProperName fileName = true := by decide

theorem isProperName_repositoryMark : Path.isProperName repositoryMark = true := by decide

/-- The defaults can be read back. -/
theorem parse_print_defaults : Options.parse ({} : Options).print = .ok {} :=
  Command.eq_ok_of_toOption (by decide +kernel)

theorem readFile_defaults {tree : FileTree} {path : Path}
    (hread : tree.readText path = .ok ({} : Options).print) : readFile tree path = .ok {} := by
  unfold readFile
  rw [hread]
  dsimp only
  rw [parse_print_defaults]
  rfl

section Added

variable {tree : FileTree} {above : Location} {entries : List (String × FileTree.Entry)}
  (hvacant : tree.root.Vacant above fileName entries) (hfree : tree.isLinkFree = true)

include hvacant hfree

/-- A search that found nothing finds nothing or the new file. -/
theorem climb_addFile (content : FileTree.Content) {fuel : Nat} {location : Location}
    (hlocation : ∀ name ∈ location, Path.isProperName name = true)
    (helsewhere : ¬ above ++ [fileName] <+: location)
    (hnone : climb tree fuel (pathOf location) = none) :
    climb (tree.addFile above fileName content) fuel (pathOf location) = none ∨
      climb (tree.addFile above fileName content) fuel (pathOf location) =
          some (pathOf (above ++ [fileName])) ∧
        (tree.addFile above fileName content).has (pathOf (above ++ [fileName])) = true := by
  induction fuel generalizing location with
  | zero => exact Or.inl rfl
  | succ fuel ih =>
    have hall {name : String} (hname : Path.isProperName name = true) :
        ∀ other ∈ location ++ [name], Path.isProperName other = true :=
      List.forall_mem_append.mpr ⟨hlocation, List.forall_mem_singleton.mpr hname⟩
    rw [climb, Path.pathOf_join hlocation isProperName_fileName,
      Path.pathOf_join hlocation isProperName_repositoryMark] at hnone ⊢
    by_cases hfound :
        (tree.addFile above fileName content).has (pathOf (location ++ [fileName])) = true
    · -- only the new file can have come in
      have hplace : above = location := by
        by_contra hother
        have hfront : ¬ above ++ [fileName] <+: location ++ [fileName] := by
          rw [List.prefix_concat_iff, not_or]
          exact ⟨fun heq ↦ hother (List.append_inj' heq rfl).1, helsewhere⟩
        rw [FileTree.has_addFile_pathOf hvacant hfree content (List.concat_ne_nil _ _)
          (hall isProperName_fileName) hfront] at hfound
        rw [if_pos hfound] at hnone
        cases hnone
      rw [hplace] at hfound ⊢
      exact Or.inr ⟨if_pos hfound, hfound⟩
    · have hbefore : ¬ tree.has (pathOf (location ++ [fileName])) = true := by
        intro hhas
        rw [if_pos hhas] at hnone
        cases hnone
      have hfront : ¬ above ++ [fileName] <+: location ++ [repositoryMark] := by
        rw [List.prefix_concat_iff, not_or]
        refine ⟨fun heq ↦ ?_, helsewhere⟩
        exact absurd (List.singleton_inj.mp (List.append_inj' heq rfl).2) (by decide)
      rw [if_neg hbefore] at hnone
      rw [if_neg hfound, FileTree.has_addFile_pathOf hvacant hfree content
        (List.concat_ne_nil _ _) (hall isProperName_repositoryMark) hfront]
      by_cases hmark : tree.has (pathOf (location ++ [repositoryMark])) = true
      · exact Or.inl (if_pos hmark)
      · rw [if_neg hmark] at hnone ⊢
        rcases List.eq_nil_or_concat location with rfl | ⟨front, last, rfl⟩
        · exact Or.inl rfl
        · rw [List.concat_eq_append] at hlocation helsewhere hnone ⊢
          rw [Path.parent?_pathOf hlocation] at hnone ⊢
          refine ih (List.forall_mem_append.mp hlocation).1 (fun hfront ↦ ?_) hnone
          exact helsewhere (hfront.trans (List.prefix_append _ _))

variable (hnames : tree.isWellNamed = true)

include hnames

/-- Where no configuration was found, the defaults are in force, also after they were written.
Assumes: the start of the search is there. -/
theorem options_load_addFile {start : Path} {location : Location}
    (hlocate : tree.locate start = .ok location) (hnone : find? tree start = none) :
    (load (tree.addFile above fileName (.text ({} : Options).print)) start).map Loaded.options =
      .ok {} := by
  obtain ⟨found, hfound⟩ := FileTree.exists_of_locate hlocate
  have hsearch {other : FileTree} (hother : other.locate start = .ok location) :
      find? other start =
        climb other ((pathOf location).text.toList.length + 1) (pathOf location) := by
    have hstart : searchStart other start = pathOf location := by
      rw [searchStart, FileTree.canonical, hother]
      rfl
    rw [find?, hstart]
  rw [hsearch hlocate] at hnone
  unfold load
  rw [hsearch (FileTree.locate_addFile hvacant _ hfree hlocate)]
  rcases climb_addFile hvacant hfree _ (FileTree.isProperName_of_locate hnames hlocate)
    (hvacant.not_prefix hfound) hnone with hstill | ⟨hnew, hhas⟩
  · rw [hstill]
    rfl
  · have hproper : ∀ name ∈ above ++ [fileName], Path.isProperName name = true :=
      List.forall_mem_append.mpr
        ⟨FileTree.Entry.isProperName_of_find? hnames hvacant.directory,
          List.forall_mem_singleton.mpr isProperName_fileName⟩
    obtain ⟨place, hplace⟩ := FileTree.exists_locate_of_has hhas
    obtain ⟨rfl, _⟩ := (FileTree.locate_pathOf_iff (List.concat_ne_nil _ _) hproper
      (FileTree.straightTo_addFile hvacant hfree _ _)).mp hplace
    rw [hnew]
    dsimp only
    rw [readFile_defaults (FileTree.readText_addFile hvacant hplace)]
    rfl

end Added

end Config

/-! ### Commands afterwards -/

namespace Command

/-- The arguments that a command shares with all analyses, if it is an analysis. -/
def shared? : Command → Option Shared
  | .analyze shared _ _ => some shared
  | .focus _ shared _ => some shared
  | .graph shared _ => some shared
  | .init => none

/-- The path at which a configuration is written. -/
def configurationPath (tree : FileTree) : Path :=
  (pathOf tree.workingDirectory).join Config.fileName

theorem exists_segmentsOf_configurationPath (tree : FileTree) :
    ∃ before, Path.segmentsOf (configurationPath tree).text = before ++ [Config.fileName] := by
  have hrelative : Text.Search.beginsWith Config.fileName "/" = false := by decide
  have hname : Path.segmentsOf Config.fileName = [Config.fileName] := by decide
  obtain ⟨before, hsegments, _⟩ :=
    Path.exists_segmentsOf_join (pathOf tree.workingDirectory) hrelative
  exact ⟨before, by rw [configurationPath, hsegments, hname]⟩

theorem options_of_load {tree : FileTree} {shared : Shared} {options : Options}
    (hload : (Config.load tree shared.path).map Config.Loaded.options = .ok options)
    (focus : Option String) (preset : Option Options) :
    shared.options tree focus preset = .ok (shared.apply focus preset options) := by
  rw [Shared.options]
  cases hresult : Config.load tree shared.path with
  | error problem =>
    rw [hresult] at hload
    cases hload
  | ok loaded =>
    rw [hresult] at hload
    cases hload
    rfl

/-- How a command ends, by its result. -/
def endingOf (colours : Bool) (command : Command) : Except Failure Result → Ending
  | .error failure => .failed failure
  | .ok result => result.ending colours command.verbose

theorem ending_execute {parse : Source.Parser} {tree : FileTree} {arguments : List String}
    {command : Command} (hparse : parse? arguments = .ok (some command)) (colours : Bool) :
    (execute parse tree colours arguments).1 =
      endingOf colours command ((run parse tree command).map Prod.fst) := by
  simp only [execute, hparse]
  cases run parse tree command <;> rfl

section Afterwards

variable {parse : Source.Parser} {tree tree' : FileTree} {command : Command} {shared : Shared}
  (hshared : command.shared? = some shared)
  (houtcome : ∀ focus preset,
    shared.outcome parse tree' focus preset = shared.outcome parse tree focus preset)

include hshared houtcome

/-- Commands whose analyses come out the same have the same results. -/
theorem run_congr_outcome :
    (run parse tree' command).map Prod.fst = (run parse tree command).map Prod.fst := by
  cases command with
  | analyze _ wanted format =>
    cases hshared
    rw [run, run, houtcome]
    cases shared.outcome parse tree wanted none <;> rfl
  | focus component _ format =>
    cases hshared
    rw [run, run, houtcome]
    cases shared.outcome parse tree (some component) (some .aroundComponent) <;> rfl
  | graph _ wanted =>
    cases hshared
    rw [run, run, houtcome]
    cases shared.outcome parse tree wanted none <;> rfl
  | init => cases hshared

theorem ending_congr_outcome {arguments : List String}
    (hparse : parse? arguments = .ok (some command)) (colours : Bool) :
    (execute parse tree' colours arguments).1 = (execute parse tree colours arguments).1 := by
  rw [ending_execute hparse, ending_execute hparse, run_congr_outcome hshared houtcome]

end Afterwards

/-- What `init` does: it finds a configuration, or it cannot write one, and then nothing changes; or
it has written one. -/
theorem execute_init_cases (parse : Source.Parser) (tree : FileTree) (colours : Bool) :
    (tree.has (configurationPath tree) = true ∧ (execute parse tree colours ["init"]).1.status = 1 ∧
        (execute parse tree colours ["init"]).2 = tree) ∨
      tree.has (configurationPath tree) = false ∧
        ((execute parse tree colours ["init"]).1.status = 2 ∧
            (execute parse tree colours ["init"]).2 = tree ∨
          (execute parse tree colours ["init"]).1.status = 0 ∧
            tree.write (configurationPath tree) ({} : Options).print =
              .ok (execute parse tree colours ["init"]).2) := by
  have hparse : parse? ["init"] = .ok (some .init) := rfl
  rw [execute, hparse]
  simp only [run, writeConfiguration]
  rw [← configurationPath]
  cases hhas : tree.has (configurationPath tree) with
  | true => exact Or.inl ⟨rfl, rfl, rfl⟩
  | false =>
    cases hwrite : tree.write (configurationPath tree) ({} : Options).print with
    | error fault => exact Or.inr ⟨rfl, Or.inl ⟨rfl, rfl⟩⟩
    | ok changed => exact Or.inr ⟨rfl, Or.inr ⟨rfl, rfl⟩⟩

/-- After `init` an analysis comes out as it did before. Assumes: there are no links, no import
spells the name of a configuration, the project is there, and no configuration applied to it. -/
theorem outcome_after_init {parse : Source.Parser} {tree : FileTree}
    (hnames : tree.isWellNamed = true) (hfree : tree.isLinkFree = true)
    (havoid : tree.root.importsAvoid parse Config.fileName = true) {shared : Shared}
    (hdirectory : tree.hasDirectory shared.path = true)
    (hnone : Config.find? tree shared.path = none) (colours : Bool) (focus : Option String)
    (preset : Option Options) :
    shared.outcome parse (execute parse tree colours ["init"]).2 focus preset =
      shared.outcome parse tree focus preset := by
  rcases execute_init_cases parse tree colours with
    ⟨_, _, hsame⟩ | ⟨hmissing, ⟨_, hsame⟩ | ⟨_, hwrite⟩⟩
  · rw [hsame]
  · rw [hsame]
  · obtain ⟨before, hsegments⟩ := exists_segmentsOf_configurationPath tree
    obtain ⟨above, entries, hvacant, hchanged, _⟩ :=
      FileTree.exists_addFile_of_write hfree hmissing hwrite hsegments
    obtain ⟨location, hlocate⟩ :=
      FileTree.exists_locate_of_has (FileTree.has_of_hasDirectory hdirectory)
    have hload : (Config.load tree shared.path).map Config.Loaded.options = .ok {} := by
      unfold Config.load
      rw [hnone]
      rfl
    have hchangedLoad := Config.options_load_addFile hvacant hfree hnames hlocate hnone
    unfold Shared.outcome
    rw [hchanged, options_of_load hchangedLoad, options_of_load hload]
    dsimp only
    rw [Project.analyze_addFile hvacant _ hfree hnames rfl Config.isProperName_fileName (by decide)
      (by decide) havoid hlocate]

/-- Writing a configuration is transparent. Whatever becomes of `init`, every analysis of a project
to which no configuration applied ends as it would have ended without, in a tree without links in
which no import spells the name of a configuration. The status of `init` is one exactly if there is
a configuration already; unless it is zero the tree is as it was, and if it is zero the defaults can
be read from the configuration. -/
theorem init_is_transparent (parse : Source.Parser) (tree : FileTree) (colours : Bool) :
    (tree.isWellNamed = true → tree.isLinkFree = true →
      tree.root.importsAvoid parse Config.fileName = true →
      ∀ (coloured : Bool) (arguments : List String) (command : Command) (shared : Shared),
        parse? arguments = .ok (some command) → command.shared? = some shared →
        tree.hasDirectory shared.path = true → Config.find? tree shared.path = none →
        (execute parse (execute parse tree colours ["init"]).2 coloured arguments).1 =
          (execute parse tree coloured arguments).1) ∧
      (tree.has (configurationPath tree) = true ↔
        (execute parse tree colours ["init"]).1.status = 1) ∧
      ((execute parse tree colours ["init"]).1.status ≠ 0 →
        (execute parse tree colours ["init"]).2 = tree) ∧
      (tree.isLinkFree = true → (execute parse tree colours ["init"]).1.status = 0 →
        Config.readFile (execute parse tree colours ["init"]).2 (configurationPath tree) =
          .ok {}) := by
  refine ⟨fun hnames hfree havoid coloured arguments command shared hparse hshared hdirectory
    hnone ↦ ?_, ?_⟩
  · exact ending_congr_outcome hshared
      (outcome_after_init hnames hfree havoid hdirectory hnone colours) hparse coloured
  · rcases execute_init_cases parse tree colours with
      ⟨hhas, hstatus, hsame⟩ | ⟨hmissing, ⟨hstatus, hsame⟩ | ⟨hstatus, hwrite⟩⟩
    · rw [hhas, hstatus]
      exact ⟨iff_of_true rfl rfl, fun _ ↦ hsame, fun _ hzero ↦ absurd hzero (by decide)⟩
    · rw [hmissing, hstatus]
      exact ⟨iff_of_false Bool.false_ne_true (by decide), fun _ ↦ hsame,
        fun _ hzero ↦ absurd hzero (by decide)⟩
    · rw [hmissing, hstatus]
      refine ⟨iff_of_false Bool.false_ne_true (by decide), fun hnonzero ↦ absurd rfl hnonzero,
        fun hfree _ ↦ ?_⟩
      obtain ⟨before, hsegments⟩ := exists_segmentsOf_configurationPath tree
      obtain ⟨above, entries, hvacant, hchanged, hlocate⟩ :=
        FileTree.exists_addFile_of_write hfree hmissing hwrite hsegments
      rw [hchanged] at hlocate ⊢
      exact Config.readFile_defaults (FileTree.readText_addFile hvacant hlocate)

/-- A project below the working directory, with an import that goes up and down again. -/
def workshop : FileTree where
  root := .directory [("home", .directory [
    ("web", .directory [
      ("App.tsx", .file (.text "import \x7b Card \x7d from '../parts/Card'")),
      (".gitignore", .file (.text ".depictrc.json"))]),
    ("parts", .directory [
      ("Card.tsx", .file (.text "export function Card() \x7b return <p/> \x7d"))])])]
  workingDirectory := ["home"]

theorem init_is_transparent_workshop :
    workshop.root.importsAvoid Source.parse Config.fileName = true ∧
      Config.find? workshop ⟨"web"⟩ = none ∧
      (execute Source.parse workshop false ["init"]).1.status = 0 ∧
      (Config.load (execute Source.parse workshop false ["init"]).2 ⟨"web"⟩).toOption =
        some ⟨{}, true⟩ ∧
      (execute Source.parse (execute Source.parse workshop false ["init"]).2 true
          ["graph", "web", "-v"]).1 =
        (execute Source.parse workshop true ["graph", "web", "-v"]).1 ∧
      (execute Source.parse (execute Source.parse workshop false ["init"]).2 false
        ["init"]).1.status = 1 ∧
      (execute Source.parse (execute Source.parse workshop false ["init"]).2 false ["init"]).2 =
        (execute Source.parse workshop false ["init"]).2 := by
  have havoid : workshop.root.importsAvoid Source.parse Config.fileName = true := by decide +kernel
  have hnone : Config.find? workshop ⟨"web"⟩ = none := by decide +kernel
  have hparse : parse? ["graph", "web", "-v"] =
      .ok (some (.graph { path := ⟨"web"⟩, verbose := true } none)) :=
    eq_ok_of_toOption (by decide +kernel)
  have hlater : (execute Source.parse (execute Source.parse workshop false ["init"]).2 false
      ["init"]).1.status = 1 :=
    (init_is_transparent Source.parse (execute Source.parse workshop false ["init"]).2
      false).2.1.mp (by decide +kernel)
  refine ⟨havoid, hnone, by decide +kernel, by decide +kernel, ?_, hlater, ?_⟩
  · exact (init_is_transparent Source.parse workshop false).1 (by decide +kernel)
      (by decide +kernel) havoid true ["graph", "web", "-v"] _ _ hparse rfl (by decide +kernel)
      hnone
  · exact (init_is_transparent Source.parse (execute Source.parse workshop false ["init"]).2
      false).2.2.1 (by rw [hlater]; decide)

end Command

end ComponentGraph
