import ComponentGraph.Proofs.Focus
import ComponentGraph.Proofs.OneKey
import ComponentGraph.Proofs.Ranking
import Mathlib.Algebra.Order.BigOperators.Group.List
import Mathlib.Algebra.Order.Group.Nat
import Mathlib.Data.List.Perm.Subperm

/-!
Counts and edges of the nodes agree.

Uses are counted and dependencies are noted apart from each other, and a dependency is noted only
once however often it comes up. But a dependency is never booked without a use of the same name, so
in the bookings of any files there are at least as many uses of a name as there are dependencies on
it (`Backed`). Different declarations need different bookings, hence no name has more dependents
than uses. Cutting a ranking short takes dependents away and leaves the counts as they are.

A declaration that depends on something was declared by a parsed file. All parsed files have
absolute paths, so the path that is shown for a name without a declaration is the path of no parsed
file, and a node that shows it was used somewhere, because it would not be known otherwise.
-/

set_option autoImplicit false
set_option relaxedAutoImplicit false

namespace ComponentGraph

/-! ### Dependencies and uses in bookings -/

namespace Ledger

/-- The declaration that a booking makes depend on a name. -/
def Booking.dependent? (name : String) : Booking → Option String
  | .depend owner dependency => if dependency = name then some owner else none
  | _ => none

/-- No name comes up more often as a dependency than it is used. -/
def Backed (bookings : List Booking) : Prop :=
  ∀ name, (bookings.filterMap (Booking.dependent? name)).length ≤ bookings.count (.use name)

theorem backed_nil : Backed [] := fun _ ↦ Nat.le_refl 0

theorem Backed.append {first second : List Booking} (hfirst : Backed first)
    (hsecond : Backed second) : Backed (first ++ second) := by
  intro name
  rw [List.filterMap_append, List.length_append, List.count_append]
  exact Nat.add_le_add (hfirst name) (hsecond name)

theorem backed_flatMap {α : Type} {items : List α} {bookings : α → List Booking}
    (hitems : ∀ item, Backed (bookings item)) : Backed (items.flatMap bookings) := by
  induction items with
  | nil => exact backed_nil
  | cons item rest ih => exact (hitems item).append ih

end Ledger

namespace Journal

open Analysis

variable {files : Files} {options : Options}

theorem backed_creditBookings (owner : Option String) (used : String) :
    Ledger.Backed (creditBookings owner used) := by
  intro name
  rw [count_use_creditBookings]
  cases owner with
  | none => exact Nat.zero_le _
  | some declaration =>
    by_cases hused : used = name
    · simp [creditBookings, Ledger.Booking.dependent?, hused]
    · simp [creditBookings, Ledger.Booking.dependent?, hused]

theorem backed_eventBookings (path : Path) (active : Option Active) (event : Source.Event) :
    Ledger.Backed (eventBookings options path active event) := by
  cases event with
  | declared name => exact fun _ ↦ Nat.zero_le _
  | rendered name =>
    cases howner : owner? active with
    | none => simpa [eventBookings, howner] using Ledger.backed_nil
    | some owner => simpa [eventBookings, howner] using backed_creditBookings (some owner) name
  | imported source names =>
    rw [eventBookings]
    split
    · exact Ledger.backed_flatMap (backed_creditBookings (owner? active))
    · exact Ledger.backed_nil

theorem backed_scanBookings (path : Path) (active : Option Active)
    (events : List Source.Event) : Ledger.Backed (scanBookings options path active events) := by
  induction events generalizing active with
  | nil => exact Ledger.backed_nil
  | cons event events ih => exact (backed_eventBookings path active event).append (ih _)

/-- A name has no more dependents than uses. Assumes: the dependents are different. -/
theorem Balanced.length_dependents_le {ledger : Ledger} (hbalanced : Balanced files options ledger)
    {dependents : List String} (hdistinct : dependents.Nodup) {name : String}
    (hdependents : ∀ owner ∈ dependents, name ∈ (ledger.recordOf owner).dependencies) :
    dependents.length ≤ (ledger.recordOf name).uses := by
  have huses : (ledger.recordOf name).uses =
      (ledger.parsed.flatMap (contribution files options)).count (.use name) := by
    rw [hbalanced.uses, List.count_flatMap]
    rfl
  have hbooked : dependents ⊆ (ledger.parsed.flatMap (contribution files options)).filterMap
      (Ledger.Booking.dependent? name) := by
    intro owner howner
    obtain ⟨path, hpath, hdepend⟩ :=
      (hbalanced.dependencies owner name).mp (hdependents owner howner)
    refine List.mem_filterMap.mpr ⟨.depend owner name, ?_, if_pos rfl⟩
    exact List.mem_flatMap.mpr ⟨path, hpath, hdepend⟩
  have hbacked : Ledger.Backed (ledger.parsed.flatMap (contribution files options)) :=
    Ledger.backed_flatMap fun path ↦ backed_scanBookings path none (eventsOf files path)
  calc dependents.length
      ≤ ((ledger.parsed.flatMap (contribution files options)).filterMap
          (Ledger.Booking.dependent? name)).length := (hdistinct.subperm hbooked).length_le
    _ ≤ (ledger.parsed.flatMap (contribution files options)).count (.use name) := hbacked name
    _ = (ledger.recordOf name).uses := huses.symm

/-! ### Absolute paths -/

theorem anchor_pathOf (location : Location) : (FileTree.pathOf location).key.anchor = .root := by
  rw [Path.anchor_eq_root_iff, Text.Search.beginsWith, List.isPrefixOf_iff_prefix,
    Path.text_pathOf, String.toList_append]
  exact List.prefix_append _ _

theorem anchor_parent? {path parent : Path} (hroot : path.key.anchor = .root)
    (hparent : path.parent? = some parent) : parent.key.anchor = .root := by
  rw [Path.key] at hroot
  rw [Path.parent?] at hparent
  dsimp only at hroot hparent
  rw [hroot] at hparent
  split at hparent
  · cases hparent
  · cases hparent
    exact anchor_pathOf _

/-- Imports lead from absolute paths to absolute paths. -/
theorem anchor_of_imports {path target : Path} (hroot : path.key.anchor = .root)
    (himports : Imports files path target) : target.key.anchor = .root := by
  obtain ⟨source, _, _, htarget⟩ := himports
  rw [importTarget?, if_pos (isLocal_of_importTarget? htarget), Option.bind_eq_some_iff] at htarget
  obtain ⟨directory, hdirectory, hresolve⟩ := htarget
  have habove := anchor_parent? hroot hdirectory
  have hclean {other : Path} (hother : other.key.anchor = .root) :
      other.clean.key.anchor = .root := by
    rw [Path.clean_eq_pathOf hother]
    exact anchor_pathOf _
  rw [Specifier.resolve] at hresolve
  split at hresolve
  · cases hresolve
    exact hclean (Path.anchor_join habove source)
  · have hcandidate := List.mem_of_find?_eq_some hresolve
    rw [Specifier.candidates, List.mem_append, List.mem_map, List.mem_map] at hcandidate
    rcases hcandidate with ⟨extension, _, rfl⟩ | ⟨extension, _, rfl⟩
    · exact hclean (Path.anchor_join habove _)
    · exact hclean (Path.anchor_join (Path.anchor_join habove source) _)

/-- Every file that is parsed below an absolute root has an absolute path. -/
theorem anchor_of_parsed {parse : Source.Parser} {tree : FileTree} {root path : Path}
    (hroot : root.key.anchor = .root)
    (hparsed : path ∈ (Survey.run parse tree options root {}).parsed) :
    path.key.anchor = .root := by
  rw [parsed_survey] at hparsed
  refine forall_entered_survey (fun path ↦ path.key.anchor = .root) ?_
    (fun _ _ hpath himports ↦ anchor_of_imports hpath himports) (List.mem_filter.mp hparsed).1
  intro other hother
  obtain ⟨names, _, rfl⟩ :=
    FileTree.exists_joined_of_walk ((mem_handed tree options root other).mp hother).1
  exact Path.anchor_joined hroot names

/-- A path that starts at the root is not the one that is shown for an unknown name. -/
theorem text_ne_unknownPath {path : Path} (hroot : path.key.anchor = .root) (name : String) :
    path.text ≠ Ranking.unknownPath name := by
  intro htext
  rw [Path.anchor_eq_root_iff, htext, Text.Search.beginsWith, List.isPrefixOf_iff_prefix,
    Ranking.unknownPath, String.toList_append] at hroot
  obtain ⟨rest, hrest⟩ := hroot
  cases hrest

theorem balanced_survey (parse : Source.Parser) (tree : FileTree) (options : Options)
    (root : Path) :
    Balanced (.ofTree parse tree) options (Survey.run parse tree options root {}) := by
  rw [survey_run_eq]
  exact balanced_of_initial (initial_surveyAgenda tree options root)

end Journal

/-! ### Nodes -/

namespace Project

/-- Counts and edges of nodes that agree with each other and with the ledger they come from. -/
structure Consistent (options : Options) (ledger : Ledger) (nodes : List Node) : Prop where
  /-- A node is used at least as often as it is a child. -/
  counts : ∀ node ∈ nodes,
    nodes.countP (fun other ↦ other.children.contains node.id) ≤ node.usedCount
  /-- A node with children shows a parsed file. -/
  declared : ∀ node ∈ nodes, node.children ≠ [] →
    (∃ path ∈ ledger.parsed, node.filePath = path.text) ∧
      node.filePath ≠ Ranking.unknownPath node.id
  /-- In focus, a node with children has the focus as a part of its name. -/
  focused : ∀ node ∈ nodes, node.children ≠ [] → ∀ focus, options.focus? = some focus →
    Text.Search.contains node.id focus = true
  /-- A node that shows no file is used. -/
  used : ∀ node ∈ nodes, node.filePath = Ranking.unknownPath node.id →
    ∃ record, ledger.record? node.id = some record ∧ 1 ≤ record.uses

section OfLedger

open Analysis Journal Ranking

variable {files : Files} {options : Options} {ledger : Ledger} {node : Node}

theorem recordOf_of_record? {name : String} {record : Ledger.Record}
    (hrecord : ledger.record? name = some record) : ledger.recordOf name = record := by
  rw [Ledger.recordOf, hrecord, Option.getD_some]

/-- A name that no file declares is known by its uses. -/
theorem uses_pos_of_no_source (hbalanced : Balanced files options ledger) {name : String}
    {record : Ledger.Record} (hrecord : ledger.record? name = some record)
    (hsource : record.source = none) : 1 ≤ record.uses := by
  have hknown : (ledger.record? name).isSome = true := by rw [hrecord, Option.isSome_some]
  obtain ⟨path, hpath, hdeclared | hused⟩ := (hbalanced.known name).mp hknown
  · have hsome := (hbalanced.declared name).mpr ⟨path, hpath, hdeclared⟩
    rw [recordOf_of_record? hrecord, hsource] at hsome
    cases hsome
  · rw [← recordOf_of_record? hrecord, hbalanced.uses]
    exact Nat.le_trans hused (List.le_sum_of_mem (List.mem_map_of_mem hpath))

variable (hledger : ledger.WellFormed) (hbalanced : Balanced files options ledger)

include hledger

/-- A child of a node is a dependency of its name. -/
theorem mem_dependencies_of_child {maxNodes : Nat} {child : String}
    (hnode : node ∈ (ofLedger ledger maxNodes).nodes) (hchild : child ∈ node.children) :
    child ∈ (ledger.recordOf node.id).dependencies := by
  obtain ⟨record, hrecord, hdescribes⟩ := exists_describes hledger hnode
  rw [hdescribes.children] at hchild
  rw [recordOf_of_record? hrecord]
  exact List.mem_of_mem_filter hchild

include hbalanced

theorem countP_children_le {maxNodes : Nat} (hnode : node ∈ (ofLedger ledger maxNodes).nodes) :
    (ofLedger ledger maxNodes).nodes.countP (fun other ↦ other.children.contains node.id) ≤
      node.usedCount := by
  obtain ⟨record, hrecord, hdescribes⟩ := exists_describes hledger hnode
  have hdistinct : (((ofLedger ledger maxNodes).nodes.filter fun other ↦
      other.children.contains node.id).map Node.id).Nodup :=
    (budgeted_ofLedger hledger maxNodes).ids_distinct.sublist (List.filter_sublist.map Node.id)
  have hdependents : (((ofLedger ledger maxNodes).nodes.filter fun other ↦
      other.children.contains node.id).map Node.id).length ≤ (ledger.recordOf node.id).uses := by
    refine hbalanced.length_dependents_le hdistinct fun owner howner ↦ ?_
    obtain ⟨other, hother, rfl⟩ := List.mem_map.mp howner
    obtain ⟨hkept, hcontains⟩ := List.mem_filter.mp hother
    exact mem_dependencies_of_child hledger hkept (List.contains_iff_mem.mp hcontains)
  rw [List.length_map, ← List.countP_eq_length_filter, recordOf_of_record? hrecord] at hdependents
  rw [hdescribes.usedCount]
  exact hdependents.trans (Nat.le_max_left _ _)

/-- A node with children has taken uses as a declaration of a parsed file. -/
theorem exists_contribution_of_children {maxNodes : Nat}
    (hnode : node ∈ (ofLedger ledger maxNodes).nodes) (hchildren : node.children ≠ []) :
    ∃ path ∈ ledger.parsed, ∃ child, .depend node.id child ∈ contribution files options path := by
  obtain ⟨child, hchild⟩ := List.exists_mem_of_ne_nil _ hchildren
  have hdependency := mem_dependencies_of_child hledger hnode hchild
  obtain ⟨path, hpath, hdepend⟩ := (hbalanced.dependencies node.id child).mp hdependency
  exact ⟨path, hpath, child, hdepend⟩

/-- Nodes show the files that declare their names, and the names with children are declared. -/
theorem exists_source_of_children {maxNodes : Nat}
    (hnode : node ∈ (ofLedger ledger maxNodes).nodes) (hchildren : node.children ≠ []) :
    ∃ path ∈ ledger.parsed, node.filePath = path.text := by
  obtain ⟨path, hpath, child, hdepend⟩ :=
    exists_contribution_of_children hledger hbalanced hnode hchildren
  have hdeclared : .declared node.id ∈ eventsOf files path := by
    rcases (depend_mem_scanBookings hdepend).1 with hactive | hdeclared
    · cases hactive
    · exact hdeclared
  have hsome := (hbalanced.declared node.id).mpr ⟨path, hpath, hdeclared⟩
  obtain ⟨source, hsource⟩ := Option.isSome_iff_exists.mp hsome
  obtain ⟨record, hrecord, hdescribes⟩ := exists_describes hledger hnode
  refine ⟨source, (hbalanced.source node.id source hsource).1, hdescribes.declared source ?_⟩
  rwa [recordOf_of_record? hrecord] at hsource

/-- The nodes of a ledger are consistent. Assumes: the ledger is well-formed and in balance, and
its parsed files have absolute paths. -/
theorem consistent_ofLedger (habsolute : ∀ path ∈ ledger.parsed, path.key.anchor = .root)
    (maxNodes : Nat) : Consistent options ledger (ofLedger ledger maxNodes).nodes where
  counts := fun node hnode ↦ countP_children_le hledger hbalanced hnode
  declared := by
    intro node hnode hchildren
    obtain ⟨path, hpath, htext⟩ :=
      exists_source_of_children hledger hbalanced hnode hchildren
    refine ⟨⟨path, hpath, htext⟩, ?_⟩
    rw [htext]
    exact text_ne_unknownPath (habsolute path hpath) node.id
  focused := by
    intro node hnode hchildren focus hfocus
    obtain ⟨path, _, child, hdepend⟩ :=
      exists_contribution_of_children hledger hbalanced hnode hchildren
    have htakes := takesUses_of_depend none hdepend
    rwa [takesUses, hfocus] at htakes
  used := by
    intro node hnode hunknown
    obtain ⟨record, hrecord, hdescribes⟩ := exists_describes hledger hnode
    refine ⟨record, hrecord, uses_pos_of_no_source hbalanced hrecord ?_⟩
    -- a source would be a parsed file, whose path is absolute and is the one that is shown
    refine Option.eq_none_iff_forall_ne_some.mpr fun source hsource ↦ ?_
    rw [← recordOf_of_record? hrecord] at hsource
    have hparsed := (hbalanced.source node.id source hsource).1
    rw [recordOf_of_record? hrecord] at hsource
    rw [hdescribes.declared source hsource] at hunknown
    exact text_ne_unknownPath (habsolute source hparsed) node.id hunknown

end OfLedger

/-- Counts and edges are consistent in every analysis. If the root cannot be used there are no nodes
at all. -/
theorem counts_and_edges_consistent (parse : Source.Parser) (tree : FileTree) (options : Options)
    (root : Path) :
    match rootOf tree root with
    | .error _ => (analyze parse tree options root).nodes = []
    | .ok path =>
        Consistent options (ledgerOf parse tree options path)
          (analyze parse tree options root).nodes := by
  cases hroot : rootOf tree root with
  | error problem =>
    rw [analyze, tryAnalyze, hroot]
    rfl
  | ok path =>
    have hnodes : (analyze parse tree options root).nodes =
        (Ranking.ofLedger (ledgerOf parse tree options path) options.maxNodes).nodes := by
      rw [analyze, tryAnalyze, hroot]
      rfl
    rw [hnodes]
    refine consistent_ofLedger ?_ (Journal.balanced_survey parse tree options path) ?_
      options.maxNodes
    · exact Ledger.wellFormed_empty.apply (.analysis parse tree options (.project path))
    · obtain ⟨location, _, rfl⟩ := exists_locate_of_rootOf hroot
      exact fun file hfile ↦ Journal.anchor_of_parsed (Journal.anchor_pathOf location) hfile

end Project

end ComponentGraph
