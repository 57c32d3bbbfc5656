import ComponentGraph.Proofs.Operation
import ComponentGraph.Ranking

/-!
A ranking keeps exactly the best names of a ledger, within its budget.

The place of a name depends on its standing: its category, how often it is used, and when it was
first met. Nodes are sorted by category and uses only. The sort is stable, which is what makes the
first meeting decide between names that are equal in both: numbered by the records they come from,
the nodes are sorted by their standings (`pairwise_ordered`).

`Budgeted` says all that there is to know about a ranking: how many nodes there are, in which order
they stand, that every name which was cut comes after every one that was kept, and what a node says
about its record (`Describes`). It holds of every ledger with distinct names and distinct
dependencies, and so after every sequence of operations.

Cutting twice is cutting once. A ranking with a smaller budget is therefore the beginning of one
with a larger budget, with the children closed anew.
-/

set_option autoImplicit false
set_option relaxedAutoImplicit false

namespace ComponentGraph

/-- In a ledger with distinct names every entry is the record of its name. -/
theorem Ledger.record?_of_mem {ledger : Ledger} (hnames : ledger.names.Nodup)
    {entry : String × Ledger.Record} (hentry : entry ∈ ledger.records) :
    ledger.record? entry.1 = some entry.2 := by
  obtain ⟨before, after, hrecords⟩ := List.append_of_mem hentry
  refine List.lookup_eq_some_iff.mpr ⟨before, after, hrecords, fun other hother ↦ ?_⟩
  rw [Ledger.names, hrecords, List.map_append, List.nodup_append] at hnames
  have hother_name : other.1 ∈ before.map Prod.fst := List.mem_map_of_mem hother
  have hne := hnames.2.2 other.1 hother_name entry.1 List.mem_cons_self
  exact bne_iff_ne.mpr (Ne.symm hne)

theorem Ledger.recordOf_of_mem {ledger : Ledger} (hnames : ledger.names.Nodup)
    {entry : String × Ledger.Record} (hentry : entry ∈ ledger.records) :
    ledger.recordOf entry.1 = entry.2 := by
  rw [Ledger.recordOf, Ledger.record?_of_mem hnames hentry, Option.getD_some]

namespace Ranking

/-! ### Standings -/

/-- What the place of a name depends on. -/
structure Standing where
  rank : Nat
  usedCount : Nat
  /-- How many names were met before. -/
  position : Nat

/-- Lower categories come first, then names that are used more, then names that were met earlier. -/
def Standing.Before (first second : Standing) : Prop :=
  first.rank < second.rank ∨
    first.rank = second.rank ∧
      (second.usedCount < first.usedCount ∨
        first.usedCount = second.usedCount ∧ first.position < second.position)

/-- The standing of a name. A name that is never used counts as used once. -/
def standing (ledger : Ledger) (name : String) : Standing where
  rank := (ledger.recordOf name).kind.rank
  usedCount := max (ledger.recordOf name).uses 1
  position := ledger.names.idxOf name

/-- The standing of a node with the number of its record. -/
def numberedStanding (numbered : Node × Nat) : Standing where
  rank := numbered.1.kind.rank
  usedCount := numbered.1.usedCount
  position := numbered.2

theorem numberedStanding_eq {ledger : Ledger} (hnames : ledger.names.Nodup)
    {numbered : Node × Nat} (hnumbered : numbered ∈ (ledger.records.map nodeOf).zipIdx) :
    numberedStanding numbered = standing ledger numbered.1.id := by
  obtain ⟨node, place⟩ := numbered
  obtain ⟨hplace, hnode⟩ :=
    List.getElem?_eq_some_iff.mp (List.mk_mem_zipIdx_iff_getElem?.mp hnumbered)
  rw [List.length_map] at hplace
  rw [List.getElem_map] at hnode
  subst hnode
  have hposition : ledger.names.idxOf (ledger.records[place]).1 = place := by
    have hlength : place < ledger.names.length := by rwa [Ledger.names, List.length_map]
    have hname : ledger.names[place] = (ledger.records[place]).1 := List.getElem_map Prod.fst
    rw [← hname]
    exact hnames.idxOf_getElem place hlength
  have hrecord := Ledger.recordOf_of_mem hnames (List.getElem_mem hplace)
  simp only [numberedStanding, standing, nodeOf, hrecord, hposition]

/-! ### The order of nodes -/

theorem mayPrecede_iff (first second : Node) :
    mayPrecede first second = true ↔
      first.kind.rank < second.kind.rank ∨
        first.kind.rank = second.kind.rank ∧ second.usedCount ≤ first.usedCount := by
  simp [mayPrecede]

theorem mayPrecede_trans (first middle last : Node) (hfirst : mayPrecede first middle = true)
    (hlast : mayPrecede middle last = true) : mayPrecede first last = true := by
  rw [mayPrecede_iff] at hfirst hlast ⊢
  omega

theorem mayPrecede_total (first second : Node) :
    (mayPrecede first second || mayPrecede second first) = true := by
  rw [Bool.or_eq_true, mayPrecede_iff, mayPrecede_iff]
  omega

/-- Nodes that are equal in category and uses are told apart by their numbers. -/
theorem before_of_zipIdxLE {first second : Node × Nat}
    (hle : List.zipIdxLE mayPrecede first second = true) (hne : first.2 ≠ second.2) :
    (numberedStanding first).Before (numberedStanding second) := by
  unfold List.zipIdxLE at hle
  unfold Standing.Before numberedStanding
  dsimp only
  by_cases hfirst : mayPrecede first.1 second.1 = true
  · rw [if_pos hfirst] at hle
    rw [mayPrecede_iff] at hfirst
    by_cases hsecond : mayPrecede second.1 first.1 = true
    · rw [if_pos hsecond, decide_eq_true_iff] at hle
      rw [mayPrecede_iff] at hsecond
      omega
    · rw [mayPrecede_iff] at hsecond
      omega
  · rw [if_neg hfirst] at hle
    exact absurd hle Bool.false_ne_true

/-- The nodes of a ledger stand in the order of their standings. -/
theorem pairwise_ordered {ledger : Ledger} (hnames : ledger.names.Nodup) :
    (ordered ledger).Pairwise fun first second ↦
      (standing ledger first.id).Before (standing ledger second.id) := by
  have hordered : (((ledger.records.map nodeOf).zipIdx.mergeSort
      (List.zipIdxLE mayPrecede)).map fun numbered ↦ numbered.1) = ordered ledger :=
    List.mergeSort_zipIdx
  have hperm := List.mergeSort_perm (ledger.records.map nodeOf).zipIdx (List.zipIdxLE mayPrecede)
  have hsorted := List.pairwise_mergeSort (List.zipIdxLE_trans mayPrecede_trans)
    (List.zipIdxLE_total mayPrecede_total) (ledger.records.map nodeOf).zipIdx
  have hnumbers : ((ledger.records.map nodeOf).zipIdx.mergeSort
      (List.zipIdxLE mayPrecede)).Pairwise fun first second ↦ first.2 ≠ second.2 := by
    rw [← List.pairwise_map (f := Prod.snd)]
    refine (hperm.map Prod.snd).nodup_iff.mpr ?_
    rw [List.zipIdx_map_snd]
    exact List.nodup_range'
  rw [← hordered, List.pairwise_map]
  refine (hsorted.and hnumbers).imp_of_mem ?_
  rintro first second hfirst hsecond ⟨hle, hne⟩
  rw [← numberedStanding_eq hnames (hperm.mem_iff.mp hfirst),
    ← numberedStanding_eq hnames (hperm.mem_iff.mp hsecond)]
  exact before_of_zipIdxLE hle hne

theorem ids_ordered_perm (ledger : Ledger) : ((ordered ledger).map Node.id).Perm ledger.names := by
  have hids : (ledger.records.map nodeOf).map Node.id = ledger.names := by
    rw [List.map_map]
    rfl
  rw [← hids]
  exact (List.mergeSort_perm _ _).map Node.id

/-! ### Rankings -/

/-- What a node says about the record of its name, where `kept` are the names in the ranking. -/
structure Describes (kept : List String) (record : Ledger.Record) (node : Node) : Prop where
  kind : node.kind = record.kind
  usedCount : node.usedCount = max record.uses 1
  declared : ∀ file, record.source = some file → node.filePath = file.text
  undeclared : record.source = none → node.filePath = "unknown/" ++ node.id
  /-- The children are the dependencies that are kept, in the order of their first references. -/
  children : node.children = record.dependencies.filter kept.contains
  children_distinct : node.children.Nodup
  children_kept : ∀ child ∈ node.children, child ∈ kept

/-- A ranking of the best names of a ledger within a budget. -/
structure Budgeted (ledger : Ledger) (maxNodes : Nat) (ranking : Ranking) : Prop where
  ids_distinct : (ranking.nodes.map Node.id).Nodup
  total : ranking.total = ledger.records.length
  shown : ranking.shown = min ranking.total maxNodes
  /-- Every node stands before all that come after it. -/
  ordered : ranking.nodes.Pairwise fun first second ↦
    (standing ledger first.id).Before (standing ledger second.id)
  /-- Every name that was cut comes after every one that was kept. -/
  cut : ∀ name ∈ ledger.names, name ∉ ranking.nodes.map Node.id →
    ∀ node ∈ ranking.nodes, (standing ledger node.id).Before (standing ledger name)
  described : ∀ node ∈ ranking.nodes, ∃ record, ledger.record? node.id = some record ∧
    Describes (ranking.nodes.map Node.id) record node

/-- The names in a ranking are the first ones in order. -/
theorem ids_ofLedger (ledger : Ledger) (maxNodes : Nat) :
    (ofLedger ledger maxNodes).nodes.map Node.id =
      ((ordered ledger).map Node.id).take maxNodes := by
  rw [← List.map_take]
  exact List.map_map

theorem shown_ofLedger (ledger : Ledger) (maxNodes : Nat) :
    (ofLedger ledger maxNodes).shown = min ledger.records.length maxNodes := by
  have hlength : (ordered ledger).length = ledger.records.length := by
    rw [ordered, List.length_mergeSort, List.length_map]
  have hshown : (ofLedger ledger maxNodes).shown = ((ordered ledger).take maxNodes).length :=
    List.length_map _
  rw [hshown, List.length_take, hlength, Nat.min_comm]

theorem describes_nodeOf {entry : String × Ledger.Record} (kept : List String)
    (hdistinct : entry.2.dependencies.Nodup) :
    Describes kept entry.2
      { nodeOf entry with children := (nodeOf entry).children.filter kept.contains } where
  kind := rfl
  usedCount := rfl
  declared := by
    intro file hsource
    simp only [nodeOf, hsource]
  undeclared := by
    intro hsource
    simp only [nodeOf, hsource, unknownPath]
  children := rfl
  children_distinct := hdistinct.filter _
  children_kept := fun child hchild ↦ List.contains_iff_mem.mp (List.mem_filter.mp hchild).2

/-- Every node of a ranking describes the record of its name. -/
theorem exists_describes {ledger : Ledger} (hledger : ledger.WellFormed) {maxNodes : Nat}
    {node : Node} (hnode : node ∈ (ofLedger ledger maxNodes).nodes) :
    ∃ record, ledger.record? node.id = some record ∧
      Describes ((ofLedger ledger maxNodes).nodes.map Node.id) record node := by
  have hkept : (ofLedger ledger maxNodes).nodes.map Node.id =
      ((ordered ledger).take maxNodes).map Node.id := List.map_map
  obtain ⟨ranked, hranked, rfl⟩ := List.mem_map.mp hnode
  have hordered : ranked ∈ ordered ledger := List.mem_of_mem_take hranked
  obtain ⟨entry, hentry, rfl⟩ := List.mem_map.mp (List.mem_mergeSort.mp hordered)
  have hdistinct : entry.2.dependencies.Nodup := by
    rw [← Ledger.recordOf_of_mem hledger.names_distinct hentry]
    exact hledger.dependencies_distinct entry.1
  rw [hkept]
  exact ⟨entry.2, Ledger.record?_of_mem hledger.names_distinct hentry,
    describes_nodeOf _ hdistinct⟩

theorem budgeted_ofLedger {ledger : Ledger} (hledger : ledger.WellFormed) (maxNodes : Nat) :
    Budgeted ledger maxNodes (ofLedger ledger maxNodes) := by
  have hpairwise : ((ordered ledger).map Node.id).Pairwise fun first second ↦
      (standing ledger first).Before (standing ledger second) :=
    List.pairwise_map.mpr (pairwise_ordered hledger.names_distinct)
  have hperm := ids_ordered_perm ledger
  refine
    { ids_distinct := ?_
      total := rfl
      shown := shown_ofLedger ledger maxNodes
      ordered := ?_
      cut := ?_
      described := fun node hnode ↦ exists_describes hledger hnode }
  · rw [ids_ofLedger]
    exact (hperm.nodup_iff.mpr hledger.names_distinct).sublist (List.take_sublist _ _)
  · have hkept := hpairwise.sublist (List.take_sublist maxNodes _)
    rwa [← ids_ofLedger, List.pairwise_map] at hkept
  · intro name hname hcut node hnode
    have hkept : node.id ∈ ((ordered ledger).map Node.id).take maxNodes := by
      rw [← ids_ofLedger]
      exact List.mem_map_of_mem hnode
    have hdropped : name ∈ ((ordered ledger).map Node.id).drop maxNodes := by
      rw [ids_ofLedger] at hcut
      have hall := hperm.mem_iff.mpr hname
      rw [← List.take_append_drop maxNodes ((ordered ledger).map Node.id), List.mem_append] at hall
      exact hall.resolve_left hcut
    rw [← List.take_append_drop maxNodes ((ordered ledger).map Node.id),
      List.pairwise_append] at hpairwise
    exact hpairwise.2.2 node.id hkept name hdropped

/-- After any sequence of operations, the ranking with any budget holds the best names of the ledger
and describes their records. -/
theorem budgeted_after_operations (operations : List Journal.Operation) (maxNodes : Nat) :
    Budgeted (Journal.ledgerAfter operations) maxNodes
      (ofLedger (Journal.ledgerAfter operations) maxNodes) :=
  budgeted_ofLedger (Ledger.wellFormed_empty.foldl_apply operations) maxNodes

/-! ### Smaller budgets -/

theorem ids_closeChildren (nodes : List Node) :
    (closeChildren nodes).map Node.id = nodes.map Node.id :=
  List.map_map

/-- Closing the first nodes of a list gives the same whether or not the whole list was closed
before: a child that is among the first nodes is not lost when the whole list is closed. -/
theorem closeChildren_take_closeChildren (nodes : List Node) (budget : Nat) :
    closeChildren ((closeChildren nodes).take budget) = closeChildren (nodes.take budget) := by
  have hids : ((closeChildren nodes).take budget).map Node.id =
      (nodes.take budget).map Node.id := by
    rw [List.map_take, ids_closeChildren, List.map_take]
  rw [closeChildren, hids, closeChildren, ← List.map_take, List.map_map, closeChildren]
  refine List.map_congr_left fun node _ ↦ ?_
  simp only [Function.comp_apply, List.filter_filter, Node.mk.injEq, true_and, and_true]
  refine List.filter_congr fun child _ ↦ ?_
  rw [Bool.and_eq_left_iff_imp, List.contains_iff_mem, List.contains_iff_mem]
  exact fun hfirst ↦ List.map_subset Node.id (List.take_subset budget nodes) hfirst

/-- A smaller budget only cuts. What is ranked with it are the first nodes of the ranking with the
larger one; they lose the children that are not among them and stay as they are otherwise. -/
theorem smaller_budget_only_cuts (ledger : Ledger) {small large : Nat} (hsmall : small ≤ large) :
    (ofLedger ledger small).nodes =
        ((ofLedger ledger large).nodes.take small).map (fun node ↦
          { node with
            children := node.children.filter fun child ↦
              child ∈ ((ofLedger ledger large).nodes.take small).map Node.id }) ∧
      (ofLedger ledger small).total = (ofLedger ledger large).total := by
  refine ⟨?_, rfl⟩
  have hfirst : ((ordered ledger).take large).take small = (ordered ledger).take small := by
    rw [List.take_take, Nat.min_eq_left hsmall]
  have hcut := closeChildren_take_closeChildren ((ordered ledger).take large) small
  rw [hfirst] at hcut
  rw [ofLedger, ← hcut, closeChildren, ofLedger]
  simp only [List.contains_eq_mem]

/-- Two components that are used equally often, and a hook. -/
def board : Ledger :=
  ([.declare "App" ⟨"/App.tsx"⟩, .depend "App" "Header", .use "Header", .depend "App" "useTheme",
    .use "useTheme"] : List Ledger.Booking).foldl Ledger.book {}

theorem smaller_budget_only_cuts_board :
    1 ≤ 2 ∧ (ofLedger board 2).nodes.map Node.children = [["Header"], []] ∧
      (ofLedger board 1).nodes =
        ((ofLedger board 2).nodes.take 1).map (fun node ↦
          { node with
            children := node.children.filter fun child ↦
              child ∈ ((ofLedger board 2).nodes.take 1).map Node.id }) ∧
      (ofLedger board 1).total = (ofLedger board 2).total := by
  have hordered : ordered board = _ := List.mergeSort_of_pairwise (by decide)
  refine ⟨by decide, ?_, smaller_budget_only_cuts board (by decide)⟩
  rw [ofLedger, hordered]
  decide

end Ranking

end ComponentGraph
