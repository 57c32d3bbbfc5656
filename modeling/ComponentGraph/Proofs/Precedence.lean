import ComponentGraph.Command.Report

/-!
Where the options of a command come from.

What a configuration file says is a layer: it gives some of the options and leaves the others to
what lies beneath. The options of a command are found by asking one source after the other:
arguments, preset, file and defaults.

The look around a component differs from an analysis with a focus in its preset only. A preset ranks
above the file, so arguments with the same values do the same, whatever the file says.
-/

set_option autoImplicit false
set_option relaxedAutoImplicit false

namespace ComponentGraph

namespace Config

open Options (Layer)

/-- The layer that a configuration file gives. -/
def layerIn (tree : FileTree) (path : Path) : Except Problem Layer :=
  match tree.readText path with
  | .error fault => .error (.unreadable fault)
  | .ok text =>
      match Layer.parse text with
      | .error failure => .error (.unparsable path text failure)
      | .ok layer =>
          match (layer.atop {}).invalidIgnore? with
          | some ignore => .error (.invalid ignore)
          | none => .ok layer

/-- The layer in force for a directory; without a file everything is left open. -/
def layerFor (tree : FileTree) (start : Path) : Except Problem Layer :=
  match find? tree start with
  | none => .ok {}
  | some path => layerIn tree path

theorem readFile_eq (tree : FileTree) (path : Path) :
    readFile tree path = (layerIn tree path).map (fun layer ↦ layer.atop {}) := by
  rw [readFile, layerIn]
  cases tree.readText path with
  | error fault => rfl
  | ok text =>
    dsimp only
    rw [Options.parse]
    cases Layer.parse text with
    | error failure => rfl
    | ok layer =>
      dsimp only [Except.map]
      cases (layer.atop {}).invalidIgnore? <;> rfl

/-- The options in force are the layer in force over the defaults. -/
theorem load_eq (tree : FileTree) (start : Path) :
    (load tree start).map Loaded.options =
      (layerFor tree start).map (fun layer ↦ layer.atop {}) := by
  unfold load layerFor
  cases find? tree start with
  | none => rfl
  | some path =>
    dsimp only
    rw [readFile_eq]
    cases layerIn tree path <;> rfl

end Config

namespace Command

open Options (Layer)

/-! ### One source after the other -/

/-- The options that a command runs with, each from the first source that gives it: arguments,
preset, file, defaults. Packages count if the arguments or the file say so. -/
structure Resolved (shared : Shared) (focus : Option String) (preset file : Layer)
    (options : Options) : Prop where
  maxNodes : options.maxNodes = ((shared.maxNodes.or preset.maxNodes).or file.maxNodes).getD 150
  importDepth : options.importDepth =
    ((shared.importDepth.or preset.importDepth).or file.importDepth).getD 2
  focusComponent : options.focusComponent = (focus.or file.focusComponent).getD ""
  includeLibraries : options.includeLibraries =
    (shared.includeLibraries || file.includeLibraries.getD false)
  ignores : options.ignores = file.ignores.getD []

/-- What a preset has a say in. -/
def presetLayer (preset : Option Options) : Layer :=
  { maxNodes := preset.map Options.maxNodes, importDepth := preset.map Options.importDepth }

theorem resolved_apply (shared : Shared) (focus : Option String) (preset : Option Options)
    (file : Layer) :
    Resolved shared focus (presetLayer preset) file
      (shared.apply focus preset (file.atop {})) where
  maxNodes := Option.getD_or.symm
  importDepth := Option.getD_or.symm
  focusComponent := Option.getD_or.symm
  includeLibraries := rfl
  ignores := rfl

theorem options_eq (shared : Shared) (tree : FileTree) (focus : Option String)
    (preset : Option Options) :
    shared.options tree focus preset =
      (Config.layerFor tree shared.path).map
        (fun file ↦ shared.apply focus preset (file.atop {})) := by
  have hload := congrArg (Except.map (shared.apply focus preset))
    (Config.load_eq tree shared.path)
  rw [Shared.options]
  cases hloaded : Config.load tree shared.path <;>
    cases hlayer : Config.layerFor tree shared.path <;>
    rw [hloaded, hlayer] at hload <;> exact hload

/-- A command that analyses the project of its arguments: it fails as the configuration does, or
lists what the analysis with the resolved options finds. -/
structure Obeys (parse : Source.Parser) (tree : FileTree) (shared : Shared) (focus : Option String)
    (preset : Layer) (format : Format) (result : Except Failure (Result × FileTree)) : Prop where
  failed : ∀ problem, Config.layerFor tree shared.path = .error problem →
    result = .error (.configuration problem)
  listed : ∀ file, Config.layerFor tree shared.path = .ok file →
    ∃ options, Resolved shared focus preset file options ∧
      result = .ok (.listing (Project.analyze parse tree options shared.path) format, tree)

/-- The result of listing what an analysis finds. -/
def listing (parse : Source.Parser) (tree : FileTree) (shared : Shared) (focus : Option String)
    (preset : Option Options) (format : Format) : Except Failure (Result × FileTree) :=
  (fun outcome ↦ (.listing outcome format, tree)) <$> shared.outcome parse tree focus preset

theorem run_analyze (parse : Source.Parser) (tree : FileTree) (shared : Shared)
    (wanted : Option String) (format : Format) :
    run parse tree (.analyze shared wanted format) = listing parse tree shared wanted none format :=
  bind_pure_comp _ _

theorem run_focus (parse : Source.Parser) (tree : FileTree) (component : String) (shared : Shared)
    (format : Format) :
    run parse tree (.focus component shared format) =
      listing parse tree shared (some component) (some .aroundComponent) format :=
  bind_pure_comp _ _

theorem obeys_listing (parse : Source.Parser) (tree : FileTree) (shared : Shared)
    (focus : Option String) (preset : Option Options) (format : Format) :
    Obeys parse tree shared focus (presetLayer preset) format
      (listing parse tree shared focus preset format) where
  failed := by
    intro problem hlayer
    unfold listing Shared.outcome
    rw [options_eq, hlayer]
    rfl
  listed := by
    intro file hlayer
    refine ⟨_, resolved_apply shared focus preset file, ?_⟩
    unfold listing Shared.outcome
    rw [options_eq, hlayer]
    rfl

/-! ### The look around a component -/

/-- Arguments with a look around a component written out. -/
def Shared.around (shared : Shared) : Shared :=
  { shared with
    maxNodes := some (shared.maxNodes.getD 50)
    importDepth := some (shared.importDepth.getD 3) }

theorem apply_around (shared : Shared) (focus : Option String) (options : Options) :
    shared.around.apply focus none options =
      shared.apply focus (some .aroundComponent) options := by
  rw [Shared.apply, Shared.apply, Shared.around]
  cases shared.maxNodes <;> cases shared.importDepth <;> rfl

theorem listing_around (parse : Source.Parser) (tree : FileTree) (shared : Shared)
    (focus : Option String) (format : Format) :
    listing parse tree shared.around focus none format =
      listing parse tree shared focus (some .aroundComponent) format := by
  have hoptions : shared.around.options tree focus none =
      shared.options tree focus (some .aroundComponent) := by
    simp only [Shared.options, apply_around]
    rfl
  unfold listing Shared.outcome
  rw [hoptions]
  rfl

/-- Two lists of arguments do the same if their commands do. -/
theorem execute_congr {parse : Source.Parser} {tree : FileTree} {first second : List String}
    {command other : Command} (hfirst : parse? first = .ok (some command))
    (hsecond : parse? second = .ok (some other))
    (hrun : run parse tree command = run parse tree other)
    (hverbose : command.verbose = other.verbose) (colours : Bool) :
    execute parse tree colours first = execute parse tree colours second := by
  simp only [execute, hfirst, hsecond, hrun, hverbose]

/-- The look around a component is an analysis with a focus: it does what the analysis does whose
arguments ask for fifty nodes and three imports where they asked for nothing. Both take each option
from the first source that gives it, and both fail if the configuration cannot be used. -/
theorem focus_is_analysis (parse : Source.Parser) (tree : FileTree) (component : String)
    (shared : Shared) (format : Format) :
    run parse tree (.focus component shared format) =
        run parse tree (.analyze shared.around (some component) format) ∧
    (∀ colours first second, parse? first = .ok (some (.focus component shared format)) →
      parse? second = .ok (some (.analyze shared.around (some component) format)) →
      execute parse tree colours first = execute parse tree colours second) ∧
    (∀ wanted, Obeys parse tree shared wanted {} format
      (run parse tree (.analyze shared wanted format))) ∧
    Obeys parse tree shared (some component) { maxNodes := some 50, importDepth := some 3 } format
      (run parse tree (.focus component shared format)) := by
  have hsame : run parse tree (.focus component shared format) =
      run parse tree (.analyze shared.around (some component) format) := by
    rw [run_focus, run_analyze, listing_around]
  refine ⟨hsame, fun colours first second hfirst hsecond ↦ ?_, fun wanted ↦ ?_, ?_⟩
  · exact execute_congr hfirst hsecond hsame rfl colours
  · rw [run_analyze]
    exact obeys_listing parse tree shared wanted none format
  · rw [run_focus]
    exact obeys_listing parse tree shared (some component) (some .aroundComponent) format

/-- A project with a configuration that gives two options and says something else. -/
def webshop : FileTree where
  root := .directory [("web", .directory [
    (".depictrc.json", .file (.text
      "\x7b\"importDepth\": 7, \"theme\": [1], \"includeLibraries\": true\x7d")),
    ("Todo.tsx", .file (.text "export function Todo() \x7b return null \x7d"))])]
  workingDirectory := []

theorem eq_ok_of_toOption {ε α : Type} {result : Except ε α} {value : α}
    (hvalue : result.toOption = some value) : result = .ok value := by
  cases result with
  | error failure => cases hvalue
  | ok found => exact congrArg Except.ok (Option.some.inj hvalue)

theorem focus_is_analysis_webshop :
    (Config.layerFor webshop ⟨"web"⟩).toOption =
      some { importDepth := some 7, includeLibraries := some true } ∧
    execute Source.parse webshop false ["focus", "Todo", "web", "--import-depth", "5", "-v"] =
      execute Source.parse webshop false ["analyze", "web", "--focus", "Todo", "--max-nodes", "50",
        "--import-depth", "5", "-v"] ∧
    ∃ options, options.maxNodes = 50 ∧ options.importDepth = 3 ∧
      options.focusComponent = "Todo" ∧ options.includeLibraries = true ∧
      run Source.parse webshop (.focus "Todo" { path := ⟨"web"⟩ } .json) =
        .ok (.listing (Project.analyze Source.parse webshop options ⟨"web"⟩) .json, webshop) := by
  have hlayer : (Config.layerFor webshop ⟨"web"⟩).toOption =
      some { importDepth := some 7, includeLibraries := some true } := by decide +kernel
  refine ⟨hlayer, ?_, ?_⟩
  · refine (focus_is_analysis Source.parse webshop "Todo"
      { path := ⟨"web"⟩, importDepth := some 5, verbose := true } .text).2.1 _ _ _ ?_ ?_
    · exact eq_ok_of_toOption (by decide +kernel)
    · exact eq_ok_of_toOption (by decide +kernel)
  · obtain ⟨options, hresolved, hrun⟩ :=
      (focus_is_analysis Source.parse webshop "Todo" { path := ⟨"web"⟩ } .json).2.2.2.listed _
        (eq_ok_of_toOption hlayer)
    exact ⟨options, hresolved.maxNodes, hresolved.importDepth, hresolved.focusComponent,
      hresolved.includeLibraries, hrun⟩

end Command

end ComponentGraph
