import ComponentGraph.Proofs.Consistency
import ComponentGraph.Proofs.Initialisation

/-!
# The nearest configuration

The search for a configuration goes from directory to directory upwards. It has two reasons to stop,
and the order in which they are asked decides what happens at the root of a repository: the
configuration comes first. What the search finds is therefore the nearest configuration that has
neither another one nor the mark of a repository below it on the way (`IsNearest`). One step of the
search and one step of that description go together (`isNearest_concat`), so the two agree for every
place by induction on its names (`climb_pathOf_eq_some_iff`).

The search ends for every path, also for one that does not exist and is only made absolute by its
text: the path above another one is shorter (`length_parent?_lt`), and the last one has no name
(`exists_top`). From an absolute path that is the root (`key_of_upward`).
-/

set_option autoImplicit false
set_option relaxedAutoImplicit false

namespace ComponentGraph

open FileTree (pathOf)

/-! ### The way up -/

namespace Path

theorem text_assemble_here {segments : List String} (hsegments : segments ≠ []) :
    (assemble .here segments).text = "./" ++ joinSegments segments := by
  cases segments with
  | nil => exact absurd rfl hsegments
  | cons first rest => rfl

/-- A path is put together again from its anchor and its segments. -/
theorem text_assemble_anchored (path : Path) :
    (assemble path.anchored.1 path.anchored.2).text = path.text := by
  have htext := joinSegments_segmentsOf path.text
  rw [anchored]
  split
  · rename_i first rest hsegments
    rw [hsegments, joinSegments_cons "" (List.cons_ne_nil _ _), String.empty_append] at htext
    exact htext
  · rename_i rest hsegments
    rw [hsegments] at htext
    by_cases hrest : rest = []
    · rw [hrest] at htext ⊢
      exact htext
    · rw [joinSegments_cons "." hrest] at htext
      exact (text_assemble_here hrest).trans htext
  · exact htext

theorem length_le_joinSegments {segments : List String} {segment : String}
    (hsegment : segment ∈ segments) :
    segment.toList.length ≤ (joinSegments segments).toList.length := by
  induction segments with
  | nil => cases hsegment
  | cons first rest ih =>
    by_cases hrest : rest = []
    · subst hrest
      rw [List.mem_singleton.mp hsegment, joinSegments]
    · rw [joinSegments_cons first hrest]
      simp only [String.toList_append, List.length_append]
      rcases List.mem_cons.mp hsegment with rfl | hlater
      · omega
      · have hlength := ih hlater
        omega

/-- More segments make a longer text, as long as one of them is not empty. -/
theorem length_joinSegments_lt (front : List String) {back : List String} {segment : String}
    (hsegment : segment ∈ back) (hnonempty : segment ≠ "") :
    (joinSegments front).toList.length < (joinSegments (front ++ back)).toList.length := by
  have hback := length_le_joinSegments hsegment
  have hpositive : segment.toList.length ≠ 0 := by
    rwa [Ne, List.length_eq_zero_iff, String.toList_eq_nil_iff]
  by_cases hfront : front = []
  · subst hfront
    rw [List.nil_append]
    exact Nat.lt_of_lt_of_le (Nat.pos_of_ne_zero hpositive) hback
  · rw [joinSegments_append hfront (List.ne_nil_of_mem hsegment)]
    simp only [String.toList_append, List.length_append]
    omega

theorem length_assemble_lt (anchor : Anchor) (front : List String) {back : List String}
    {segment : String} (hsegment : segment ∈ back) (hnonempty : segment ≠ "") :
    (assemble anchor front).text.toList.length <
      (assemble anchor (front ++ back)).text.toList.length := by
  have hlonger := length_joinSegments_lt front hsegment hnonempty
  cases anchor with
  | root =>
    simp only [assemble, String.toList_append, List.length_append]
    omega
  | bare => exact hlonger
  | here =>
    have hsome : front ++ back ≠ [] :=
      List.append_ne_nil_of_right_ne_nil front (List.ne_nil_of_mem hsegment)
    rw [text_assemble_here hsome]
    have hdots : "./".toList.length = 2 := rfl
    by_cases hfront : front = []
    · subst hfront
      simp only [assemble, String.toList_append, List.length_append, hdots]
      exact Nat.lt_add_right _ (by decide)
    · rw [text_assemble_here hfront]
      simp only [String.toList_append, List.length_append]
      omega

/-- What the path above another one is: the text before the last name that moves, or nothing above a
lone `.`. -/
theorem parent?_cases {path above : Path} (habove : path.parent? = some above) :
    (path.anchored.1 = .here ∧ above = ⟨""⟩) ∨
      ∃ front back name, path.anchored.2 = front ++ back ∧ name ∈ back ∧ name ≠ "" ∧
        above = assemble path.anchored.1 front := by
  rw [parent?] at habove
  dsimp only at habove
  split at habove
  · split at habove
    · rename_i hanchor
      exact Or.inl ⟨by simpa using hanchor, (Option.some.inj habove).symm⟩
    · cases habove
  · rename_i name before hdropped
    have hnamed : isSilent name = false := by
      have hhead := List.head?_dropWhile_not isSilent path.anchored.2.reverse
      rw [hdropped] at hhead
      exact hhead
    have hnonempty : name ≠ "" := by
      rintro rfl
      exact absurd hnamed (by decide)
    obtain ⟨tail, htail⟩ : ∃ tail, path.anchored.2.reverse = tail ++ name :: before :=
      ⟨_, by rw [← hdropped, List.takeWhile_append_dropWhile]⟩
    obtain ⟨gap, hgap⟩ : ∃ gap, before = gap ++ before.dropWhile isSilent :=
      ⟨_, List.takeWhile_append_dropWhile.symm⟩
    refine Or.inr ⟨(before.dropWhile isSilent).reverse, gap.reverse ++ name :: tail.reverse, name,
      ?_, by simp, hnonempty, (Option.some.inj habove).symm⟩
    rw [← List.reverse_inj, htail]
    nth_rewrite 1 [hgap]
    simp

/-- The path above another one is shorter. -/
theorem length_parent?_lt {path above : Path} (habove : path.parent? = some above) :
    above.text.toList.length < path.text.toList.length := by
  rw [← text_assemble_anchored path]
  rcases parent?_cases habove with
    ⟨hanchor, rfl⟩ | ⟨front, back, name, hback, hname, hnonempty, rfl⟩
  · rw [hanchor]
    by_cases hsegments : path.anchored.2 = []
    · rw [hsegments]
      decide
    · rw [text_assemble_here hsegments, String.toList_append, List.length_append]
      exact Nat.lt_add_right _ (by decide)
  · rw [hback]
    exact length_assemble_lt path.anchored.1 front hname hnonempty

/-- The path so many steps up. -/
def upward : Nat → Path → Option Path
  | 0, path => some path
  | steps + 1, path => path.parent?.bind (upward steps)

/-- The way up from a path ends, before it has taken as many steps as the path has characters. -/
theorem exists_top (path : Path) :
    ∃ steps top, steps ≤ path.text.toList.length ∧ upward steps path = some top ∧
      top.parent? = none := by
  induction hlength : path.text.toList.length using Nat.strongRecOn generalizing path with
  | _ length ih =>
    subst hlength
    cases habove : path.parent? with
    | none => exact ⟨0, path, Nat.zero_le _, rfl, habove⟩
    | some above =>
      have hshorter := length_parent?_lt habove
      obtain ⟨steps, top, hsteps, hupward, htop⟩ := ih _ hshorter above rfl
      refine ⟨steps + 1, top, Nat.succ_le_of_lt (Nat.lt_of_le_of_lt hsteps hshorter), ?_, htop⟩
      rw [upward, habove]
      exact hupward

/-- A path with nothing above it has no names. -/
theorem names_of_parent?_eq_none {path : Path} (hnone : path.parent? = none) :
    path.key.names = [] := by
  have hsilent : path.anchored.2.reverse.dropWhile isSilent = [] := by
    cases hdropped : path.anchored.2.reverse.dropWhile isSilent with
    | nil => rfl
    | cons name before =>
      rw [parent?] at hnone
      simp only [hdropped] at hnone
      cases hnone
  rw [List.dropWhile_eq_nil_iff] at hsilent
  refine List.filter_eq_nil_iff.mpr fun segment hsegment ↦ ?_
  rw [hsilent segment (List.mem_reverse.mpr hsegment)]
  exact Bool.false_ne_true

/-- The way up from an absolute path ends at the root. -/
theorem key_of_upward {path top : Path} {steps : Nat} (hroot : path.key.anchor = .root)
    (hupward : upward steps path = some top) (htop : top.parent? = none) :
    top.key = ⟨.root, []⟩ := by
  induction steps generalizing path with
  | zero =>
    cases hupward
    rw [← hroot, ← names_of_parent?_eq_none htop]
  | succ steps ih =>
    rw [upward] at hupward
    obtain ⟨above, habove, hrest⟩ := Option.bind_eq_some_iff.mp hupward
    exact ih (Journal.anchor_parent? hroot habove) hrest

end Path

namespace Config

/-! ### The search -/

/-- The search takes no more steps than there are up to the top, however many it may take. -/
theorem climb_of_upward (tree : FileTree) {path top : Path} {steps fuel : Nat}
    (hupward : path.upward steps = some top) (htop : top.parent? = none) (hfuel : steps < fuel) :
    climb tree fuel path = climb tree (steps + 1) path := by
  induction steps generalizing path fuel with
  | zero =>
    cases hupward
    obtain ⟨fuel, rfl⟩ := Nat.exists_eq_succ_of_ne_zero (Nat.ne_of_gt hfuel)
    rw [climb, climb, htop]
  | succ steps ih =>
    obtain ⟨fuel, rfl⟩ := Nat.exists_eq_succ_of_ne_zero (Nat.ne_zero_of_lt hfuel)
    rw [Path.upward] at hupward
    obtain ⟨above, habove, hrest⟩ := Option.bind_eq_some_iff.mp hupward
    have hsame := ih hrest (Nat.lt_of_succ_lt_succ hfuel)
    rw [climb, climb, habove]
    dsimp only
    rw [hsame]

/-- The place of the nearest configuration: it is the start or above it, a configuration is there,
and no place below it on the way from the start has a configuration or is the root of a
repository. -/
structure IsNearest (tree : FileTree) (start place : Location) : Prop where
  above : place <+: start
  holds : tree.has (pathOf (place ++ [".depictrc.json"])) = true
  first : ∀ below, place <+: below → below ≠ place → below <+: start →
    tree.has (pathOf (below ++ [".depictrc.json"])) = false ∧
      tree.has (pathOf (below ++ [".git"])) = false

theorem isNearest_nil {tree : FileTree} {place : Location} :
    IsNearest tree [] place ↔
      place = [] ∧ tree.has (pathOf ([] ++ [".depictrc.json"])) = true := by
  constructor
  · rintro ⟨habove, hholds, _⟩
    have hplace := List.prefix_nil.mp habove
    exact ⟨hplace, hplace ▸ hholds⟩
  · rintro ⟨rfl, hholds⟩
    refine ⟨List.prefix_rfl, hholds, fun below _ hother hbelow ↦ ?_⟩
    exact absurd (List.prefix_nil.mp hbelow) hother

/-- One step up: the nearest configuration is right there, or there is neither a configuration nor
the mark of a repository and it is the nearest one from the place above. -/
theorem isNearest_concat {tree : FileTree} {start place : Location} {name : String} :
    IsNearest tree (start ++ [name]) place ↔
      (place = start ++ [name] ∧
        tree.has (pathOf (start ++ [name] ++ [".depictrc.json"])) = true) ∨
      (tree.has (pathOf (start ++ [name] ++ [".depictrc.json"])) = false ∧
        tree.has (pathOf (start ++ [name] ++ [".git"])) = false ∧ IsNearest tree start place) := by
  constructor
  · rintro ⟨habove, hholds, hfirst⟩
    rcases List.prefix_concat_iff.mp habove with rfl | hshorter
    · exact Or.inl ⟨rfl, hholds⟩
    · have hother : start ++ [name] ≠ place := by
        rintro rfl
        exact absurd hshorter.length_le (by simp)
      obtain ⟨hconfig, hmark⟩ := hfirst _ habove hother List.prefix_rfl
      refine Or.inr ⟨hconfig, hmark, hshorter, hholds, fun below hplace hbelow hstart ↦ ?_⟩
      exact hfirst below hplace hbelow (hstart.trans (List.prefix_append _ _))
  · rintro (⟨rfl, hholds⟩ | ⟨hconfig, hmark, habove, hholds, hfirst⟩)
    · refine ⟨List.prefix_rfl, hholds, fun below hplace hother hstart ↦ ?_⟩
      exact absurd (hstart.eq_of_length_le hplace.length_le) hother
    · refine ⟨habove.trans (List.prefix_append _ _), hholds, fun below hplace hother hstart ↦ ?_⟩
      rcases List.prefix_concat_iff.mp hstart with rfl | hshorter
      · exact ⟨hconfig, hmark⟩
      · exact hfirst below hplace hother hshorter

/-- One step of the search from a place. -/
theorem climb_pathOf_succ (tree : FileTree) (fuel : Nat) {start : Location}
    (hstart : ∀ name ∈ start, Path.isProperName name = true) :
    climb tree (fuel + 1) (pathOf start) =
      if tree.has (pathOf (start ++ [".depictrc.json"])) then
        some (pathOf (start ++ [".depictrc.json"]))
      else if tree.has (pathOf (start ++ [".git"])) then none
      else (pathOf start).parent?.bind (climb tree fuel) := by
  have hconfig := Path.pathOf_join hstart isProperName_fileName
  have hmark := Path.pathOf_join hstart isProperName_repositoryMark
  rw [climb, hconfig, hmark]
  cases (pathOf start).parent? <;> rfl

/-- The search from a place finds the nearest configuration. -/
theorem climb_pathOf_eq_some_iff {tree : FileTree} {start : Location}
    (hstart : ∀ name ∈ start, Path.isProperName name = true) {fuel : Nat}
    (hfuel : start.length < fuel) {file : Path} :
    climb tree fuel (pathOf start) = some file ↔
      ∃ place, file = pathOf (place ++ [".depictrc.json"]) ∧ IsNearest tree start place := by
  induction start using List.reverseRecOn generalizing fuel with
  | nil =>
    obtain ⟨fuel, rfl⟩ := Nat.exists_eq_succ_of_ne_zero (Nat.ne_zero_of_lt hfuel)
    have hroot : (pathOf []).parent? = none := by decide
    simp only [climb_pathOf_succ tree fuel hstart, isNearest_nil, hroot, Option.bind_none, ite_self]
    constructor
    · intro hfound
      obtain ⟨hconfig, hfile⟩ := Option.ite_none_right_eq_some.mp hfound
      exact ⟨[], (Option.some.inj hfile).symm, rfl, hconfig⟩
    · rintro ⟨_, rfl, rfl, hconfig⟩
      exact if_pos hconfig
  | append_singleton front name ih =>
    obtain ⟨fuel, rfl⟩ := Nat.exists_eq_succ_of_ne_zero (Nat.ne_zero_of_lt hfuel)
    have hfront := (List.forall_mem_append.mp hstart).1
    have hshorter : front.length < fuel := by simpa using hfuel
    simp only [climb_pathOf_succ tree fuel hstart, isNearest_concat, Path.parent?_pathOf hstart,
      Option.bind_some]
    cases hconfig : tree.has (pathOf (front ++ [name] ++ [".depictrc.json"])) with
    | true =>
      rw [if_pos rfl]
      constructor
      · intro hfile
        exact ⟨_, (Option.some.inj hfile).symm, Or.inl ⟨rfl, rfl⟩⟩
      · rintro ⟨_, rfl, ⟨rfl, _⟩ | ⟨hnot, _⟩⟩
        · rfl
        · cases hnot
    | false =>
      rw [if_neg Bool.false_ne_true]
      cases hmark : tree.has (pathOf (front ++ [name] ++ [".git"])) with
      | true =>
        rw [if_pos rfl]
        refine iff_of_false (Option.some_ne_none file).symm ?_
        rintro ⟨_, _, ⟨_, hhere⟩ | ⟨_, hunmarked, _⟩⟩
        · cases hhere
        · cases hunmarked
      | false =>
        rw [if_neg Bool.false_ne_true, ih hfront hshorter]
        refine exists_congr fun place ↦ and_congr_right fun _ ↦ ?_
        simp only [Bool.false_eq_true, and_false, false_or, true_and]

theorem length_lt_text_pathOf {names : Location}
    (hnames : ∀ name ∈ names, Path.isProperName name = true) :
    names.length < (pathOf names).text.toList.length + 1 := by
  induction names using List.reverseRecOn with
  | nil => exact Nat.succ_pos _
  | append_singleton front name ih =>
    have hshorter := Path.length_parent?_lt (Path.parent?_pathOf hnames)
    have hfront := ih (List.forall_mem_append.mp hnames).1
    rw [List.length_append, List.length_singleton]
    omega

theorem anchor_of_slash (text : String) : (Path.mk ("/" ++ text)).key.anchor = .root := by
  rw [Path.anchor_eq_root_iff, Text.Search.beginsWith, String.toList_append,
    List.isPrefixOf_iff_prefix]
  exact List.prefix_append _ _

theorem anchor_absolute {tree : FileTree} {path absolute : Path}
    (habsolute : tree.absolute path = .ok absolute) : absolute.key.anchor = .root := by
  have hdouble (text : String) : (Path.mk ("//" ++ text)).key.anchor = .root := by
    have hslash : "//" ++ text = "/" ++ ("/" ++ text) := by simp [← String.toList_inj]
    rw [hslash]
    exact anchor_of_slash _
  rw [FileTree.absolute] at habsolute
  split at habsolute
  · cases habsolute
  · rw [← Except.ok.inj habsolute]
    split_ifs
    · exact Path.anchor_join (hdouble _) ""
    · exact Path.anchor_join (anchor_of_slash _) ""
    · exact Path.anchor_join (Path.anchor_joined (anchor_of_slash _) _) ""
    · exact hdouble _
    · exact anchor_of_slash _
    · exact Path.anchor_joined (anchor_of_slash _) _

/-- The search starts at an absolute path, unless it is given the empty one. -/
theorem anchor_searchStart (tree : FileTree) {start : Path} (hstart : start.text ≠ "") :
    (searchStart tree start).key.anchor = .root := by
  rw [searchStart]
  split
  · rename_i path hcanonical
    rw [FileTree.canonical] at hcanonical
    cases hlocate : tree.locate start with
    | error fault =>
      rw [hlocate] at hcanonical
      cases hcanonical
    | ok location =>
      rw [hlocate] at hcanonical
      cases hcanonical
      exact anchor_of_slash _
  · split
    · rename_i habsolute
      exact anchor_absolute habsolute
    · rename_i habsolute
      rw [FileTree.absolute, if_neg hstart] at habsolute
      cases habsolute

/-- The nearest configuration is found. Assumes: a tree with proper names. From a start that is
there, the search finds the configuration of the nearest place at the start or above it, with no
other configuration and no mark of a repository below it on the way, and finds nothing if there is
no such place; a mark next to the configuration does not matter. From any start whatever, the search
ends: after some steps nothing is above, which is at the root unless the start is the empty path,
and a search that may take more steps finds the same. -/
theorem nearest_configuration_found (tree : FileTree) (hnames : tree.isWellNamed = true) :
    (∀ start place, tree.locate start = .ok place →
      tree.canonical start = .ok (pathOf place) ∧
      (∀ file, find? tree start = some file ↔
        ∃ above, file = pathOf (above ++ [".depictrc.json"]) ∧ IsNearest tree place above) ∧
      (find? tree start = none ↔ ¬ ∃ above, IsNearest tree place above) ∧
      ∀ above, IsNearest tree place above → tree.has (pathOf (above ++ [".git"])) = true →
        find? tree start = some (pathOf (above ++ [".depictrc.json"]))) ∧
    ∀ start, ∃ steps top, (searchStart tree start).upward steps = some top ∧
      top.parent? = none ∧ (start.text ≠ "" → top.key = ⟨.root, []⟩) ∧
      ∀ fuel, steps < fuel → climb tree fuel (searchStart tree start) = find? tree start := by
  refine ⟨fun start place hlocate ↦ ?_, fun start ↦ ?_⟩
  · have hproper := FileTree.isProperName_of_locate hnames hlocate
    have hcanonical : tree.canonical start = .ok (pathOf place) := by
      rw [FileTree.canonical, hlocate]
      rfl
    have hfind (file : Path) : find? tree start = some file ↔
        ∃ above, file = pathOf (above ++ [".depictrc.json"]) ∧ IsNearest tree place above := by
      have hsearch : searchStart tree start = pathOf place := by rw [searchStart, hcanonical]
      rw [find?, hsearch]
      exact climb_pathOf_eq_some_iff hproper (length_lt_text_pathOf hproper)
    refine ⟨hcanonical, hfind, ?_, fun above hnearest _ ↦ (hfind _).mpr ⟨above, rfl, hnearest⟩⟩
    rw [Option.eq_none_iff_forall_ne_some]
    constructor
    · rintro hnone ⟨above, hnearest⟩
      exact hnone _ ((hfind _).mpr ⟨above, rfl, hnearest⟩)
    · rintro hnothing file hfile
      obtain ⟨above, _, hnearest⟩ := (hfind file).mp hfile
      exact hnothing ⟨above, hnearest⟩
  · obtain ⟨steps, top, hsteps, hupward, htop⟩ := Path.exists_top (searchStart tree start)
    refine ⟨steps, top, hupward, htop, fun hstart ↦ ?_, fun fuel hfuel ↦ ?_⟩
    · exact Path.key_of_upward (anchor_searchStart tree hstart) hupward htop
    · rw [find?, climb_of_upward tree hupward htop hfuel,
        climb_of_upward tree hupward htop (Nat.lt_succ_of_le hsteps)]

/-- A repository with a configuration, below another configuration. -/
def repository : FileTree where
  root := .directory [
    (".depictrc.json", .file (.text "{}")),
    ("work", .directory [
      (".depictrc.json", .file (.text "{}")),
      (".git", .directory []),
      ("src", .directory [("deep", .directory [])])])]
  workingDirectory := []

theorem nearest_configuration_found_repository :
    repository.isWellNamed = true ∧
      repository.locate ⟨"/work/src/../src/deep"⟩ = .ok ["work", "src", "deep"] ∧
      IsNearest repository ["work", "src", "deep"] ["work"] ∧
      repository.has (pathOf (["work"] ++ [".git"])) = true ∧
      find? repository ⟨"/work/src/../src/deep"⟩ = some ⟨"/work/.depictrc.json"⟩ := by
  have hnames : repository.isWellNamed = true := by decide
  have hlocate : repository.locate ⟨"/work/src/../src/deep"⟩ = .ok ["work", "src", "deep"] := by
    rfl
  have hwork : IsNearest repository ([] ++ ["work"]) ["work"] :=
    isNearest_concat.mpr (Or.inl ⟨rfl, by decide⟩)
  have hsrc : IsNearest repository (["work"] ++ ["src"]) ["work"] :=
    isNearest_concat.mpr (Or.inr ⟨by decide, by decide, hwork⟩)
  have hdeep : IsNearest repository (["work", "src"] ++ ["deep"]) ["work"] :=
    isNearest_concat.mpr (Or.inr ⟨by decide, by decide, hsrc⟩)
  have hmark : repository.has (pathOf (["work"] ++ [".git"])) = true := by decide
  obtain ⟨_, _, _, hfound⟩ := (nearest_configuration_found repository hnames).1 _ _ hlocate
  exact ⟨hnames, hlocate, hdeep, hmark, hfound _ hdeep hmark⟩

end Config

end ComponentGraph
