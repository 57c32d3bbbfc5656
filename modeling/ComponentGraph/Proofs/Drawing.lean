import ComponentGraph.Command.Report
import ComponentGraph.Proofs.Arguments
import ComponentGraph.Proofs.Ranking
import Mathlib.Data.List.Nodup

/-!
The drawing of a ranking leaves nothing to chance and agrees with the list of its nodes.

A graph is drawn name by name. A name gets its vertex when it is first mentioned, often as a child
and before its own node comes up, so the vertices follow the order of the mentions and not that of
the nodes. Chance would enter where a mentioned name has no node, or where a node is used zero
times. `Settled` rules out both: then the graph so far is determined by the names mentioned so far
(`picture`), a mention adds a name to them (`mention_picture`), and the generator is handed on as it
was. In the end all names of nodes have been mentioned and no others, so the vertices are those of
the nodes in another order (`draws_drawing`).

The nodes of a ranking are settled, because the ledger behind it is well-formed. As `graph` and
`analyze` read their arguments alike, they therefore print the same nodes and edges.
-/

set_option autoImplicit false
set_option relaxedAutoImplicit false

namespace ComponentGraph

open Ledger (addName addNames)

namespace Graph

/-! ### Settled nodes -/

/-- Nodes that leave nothing to chance. -/
structure Settled (nodes : List Node) : Prop where
  ids_distinct : (nodes.map Node.id).Nodup
  used : ∀ node ∈ nodes, 0 < node.usedCount
  closed : ∀ node ∈ nodes, ∀ child ∈ node.children, child ∈ nodes.map Node.id
  children_distinct : ∀ node ∈ nodes, node.children.Nodup

/-- The vertex that shows a node as it is. -/
def vertexOf (node : Node) : Vertex := ⟨node.id, node.filePath, node.usedCount, node.kind⟩

/-- The links from a node to its children, in order. -/
def linksOf (node : Node) : List Link := node.children.map (Link.mk node.id)

/-- A graph that shows nodes as they are: each once, in some order, and a link for each child. -/
structure Draws (nodes : List Node) (graph : Graph) : Prop where
  vertices : graph.vertices.Perm (nodes.map vertexOf)
  links : graph.links = nodes.flatMap linksOf
  links_distinct : graph.links.Nodup

/-! ### Pictures -/

/-- The vertex of a name, if a node has it. -/
def vertex? (nodes : List Node) (name : String) : Option Vertex :=
  (nodes.find? (fun node ↦ node.id == name)).map vertexOf

/-- The graph after some names have been mentioned and some links drawn. -/
def picture (nodes : List Node) (names : List String) (links : List Link) : Graph :=
  ⟨names.filterMap (vertex? nodes), links⟩

/-- All names that nodes mention, in order. -/
def mentions (nodes : List Node) : List String :=
  nodes.flatMap fun node ↦ node.id :: node.children

/-- The graph of nodes that leave nothing to chance. -/
def drawing (nodes : List Node) : Graph :=
  picture nodes (addNames [] (mentions nodes)) (nodes.flatMap linksOf)

section Picture

variable {nodes : List Node}

theorem id_of_vertex? {name : String} {vertex : Vertex}
    (hvertex : vertex? nodes name = some vertex) : vertex.id = name := by
  obtain ⟨node, hfound, rfl⟩ := Option.map_eq_some_iff.mp hvertex
  have hid := List.find?_some hfound
  rwa [beq_iff_eq] at hid

theorem exists_vertex? {name : String} (hname : name ∈ nodes.map Node.id) :
    ∃ vertex, vertex? nodes name = some vertex := by
  obtain ⟨node, hnode, rfl⟩ := List.mem_map.mp hname
  have hfound : (nodes.find? (fun other ↦ other.id == node.id)).isSome = true :=
    List.find?_isSome.mpr ⟨node, hnode, beq_self_eq_true node.id⟩
  obtain ⟨found, hfound⟩ := Option.isSome_iff_exists.mp hfound
  exact ⟨vertexOf found, by rw [vertex?, hfound, Option.map_some]⟩

theorem any_picture_iff {names : List String} {links : List Link} {name : String}
    (hname : name ∈ nodes.map Node.id) :
    (picture nodes names links).vertices.any (fun vertex ↦ vertex.id == name) = true ↔
      name ∈ names := by
  rw [List.any_eq_true]
  constructor
  · rintro ⟨vertex, hvertex, hid⟩
    obtain ⟨other, hother, hfound⟩ := List.mem_filterMap.mp hvertex
    rw [beq_iff_eq, id_of_vertex? hfound] at hid
    exact hid ▸ hother
  · intro hmentioned
    obtain ⟨vertex, hvertex⟩ := exists_vertex? hname
    exact ⟨vertex, List.mem_filterMap.mpr ⟨name, hmentioned, hvertex⟩,
      beq_iff_eq.mpr (id_of_vertex? hvertex)⟩

/-- The vertex of a settled node is not up to the generator. -/
theorem vertexFor_eq (hused : ∀ node ∈ nodes, 0 < node.usedCount) {name : String} {vertex : Vertex}
    (hvertex : vertex? nodes name = some vertex) (generator : Generator) :
    vertexFor nodes name generator = (vertex, generator) := by
  have hid := id_of_vertex? hvertex
  obtain ⟨node, hfound, rfl⟩ := Option.map_eq_some_iff.mp hvertex
  have hpositive := hused node (List.mem_of_find?_eq_some hfound)
  unfold vertexFor
  rw [hfound]
  dsimp only
  rw [sizeFor, if_pos hpositive, ← hid]
  rfl

/-- Mentioning the name of a node adds it to the names mentioned, and draws no number. -/
theorem mention_picture (hsettled : Settled nodes) (names : List String) (links : List Link)
    (generator : Generator) {name : String} (hname : name ∈ nodes.map Node.id) :
    mention nodes (picture nodes names links, generator) name =
      (picture nodes (addName names name) links, generator) := by
  unfold mention
  dsimp only
  by_cases hmentioned : name ∈ names
  · rw [if_pos ((any_picture_iff hname).mpr hmentioned), Ledger.addName_of_mem hmentioned]
  · obtain ⟨vertex, hvertex⟩ := exists_vertex? hname
    rw [if_neg (fun hany ↦ hmentioned ((any_picture_iff hname).mp hany)),
      vertexFor_eq hsettled.used hvertex, Ledger.addName_of_not_mem hmentioned]
    simp [picture, hvertex]

theorem children_picture (hsettled : Settled nodes) (source : String) (names : List String)
    (links : List Link) (generator : Generator) {children : List String}
    (hchildren : ∀ child ∈ children, child ∈ nodes.map Node.id) :
    children.foldl (fun state child ↦ connect source (mention nodes state child) child)
        (picture nodes names links, generator) =
      (picture nodes (addNames names children) (links ++ children.map (Link.mk source)),
        generator) := by
  induction children generalizing names links with
  | nil => simp [Ledger.addNames]
  | cons child rest ih =>
    obtain ⟨hchild, hrest⟩ := List.forall_mem_cons.mp hchildren
    have hlinks : links ++ (child :: rest).map (Link.mk source) =
        links ++ [⟨source, child⟩] ++ rest.map (Link.mk source) := by
      rw [List.map_cons, List.append_assoc, List.singleton_append]
    rw [List.foldl_cons, mention_picture hsettled names links generator hchild, hlinks]
    exact ih (addName names child) (links ++ [⟨source, child⟩]) hrest

theorem addNode_picture (hsettled : Settled nodes) (names : List String) (links : List Link)
    (generator : Generator) {node : Node} (hnode : node ∈ nodes) :
    addNode nodes (picture nodes names links, generator) node =
      (picture nodes (addNames names (node.id :: node.children)) (links ++ linksOf node),
        generator) := by
  have hid : node.id ∈ nodes.map Node.id := List.mem_map_of_mem hnode
  rw [addNode, mention_picture hsettled names links generator hid]
  exact children_picture hsettled node.id (addName names node.id) links generator
    (hsettled.closed node hnode)

theorem foldl_addNode_picture (hsettled : Settled nodes) (names : List String)
    (links : List Link) (generator : Generator) {added : List Node} (hadded : added ⊆ nodes) :
    added.foldl (addNode nodes) (picture nodes names links, generator) =
      (picture nodes (addNames names (mentions added)) (links ++ added.flatMap linksOf),
        generator) := by
  induction added generalizing names links with
  | nil => simp [mentions, Ledger.addNames]
  | cons node rest ih =>
    obtain ⟨hnode, hrest⟩ := List.cons_subset.mp hadded
    have hmentions : mentions (node :: rest) = (node.id :: node.children) ++ mentions rest := rfl
    rw [List.foldl_cons, addNode_picture hsettled names links generator hnode, ih _ _ hrest,
      hmentions, Ledger.addNames_append, List.flatMap_cons, List.append_assoc]

/-- The graph of settled nodes is the same for all generators, and the generator is left alone. -/
theorem ofNodes_eq (hsettled : Settled nodes) (generator : Generator) :
    ofNodes nodes generator = (drawing nodes, generator) :=
  foldl_addNode_picture hsettled [] [] generator (List.Subset.refl nodes)

/-! ### What is drawn -/

theorem mem_mentions_iff (hsettled : Settled nodes) (name : String) :
    name ∈ mentions nodes ↔ name ∈ nodes.map Node.id := by
  rw [mentions, List.mem_flatMap, List.mem_map]
  constructor
  · rintro ⟨node, hnode, hname⟩
    rcases List.mem_cons.mp hname with rfl | hchild
    · exact ⟨node, hnode, rfl⟩
    · exact List.mem_map.mp (hsettled.closed node hnode name hchild)
  · rintro ⟨node, hnode, rfl⟩
    exact ⟨node, hnode, List.mem_cons_self⟩

theorem vertex?_id (hsettled : Settled nodes) {node : Node} (hnode : node ∈ nodes) :
    vertex? nodes node.id = some (vertexOf node) := by
  obtain ⟨vertex, hvertex⟩ := exists_vertex? (List.mem_map_of_mem hnode)
  obtain ⟨found, hfound, rfl⟩ := Option.map_eq_some_iff.mp hvertex
  have hid : found.id = node.id := id_of_vertex? hvertex
  have hsame : found = node := List.inj_on_of_nodup_map hsettled.ids_distinct
    (List.mem_of_find?_eq_some hfound) hnode hid
  rw [hvertex, hsame]

theorem vertices_perm (hsettled : Settled nodes) :
    (drawing nodes).vertices.Perm (nodes.map vertexOf) := by
  have hnames : (addNames [] (mentions nodes)).Perm (nodes.map Node.id) := by
    rw [List.perm_ext_iff_of_nodup (Ledger.nodup_addNames .nil _) hsettled.ids_distinct]
    intro name
    rw [Ledger.mem_addNames, mem_mentions_iff hsettled]
    simp
  have hvertices : (nodes.map Node.id).filterMap (vertex? nodes) = nodes.map vertexOf := by
    rw [List.filterMap_map, List.filterMap_eq_map_iff_forall_eq_some]
    exact fun node hnode ↦ vertex?_id hsettled hnode
  rw [← hvertices]
  exact hnames.filterMap (vertex? nodes)

theorem links_nodup (hsettled : Settled nodes) : (nodes.flatMap linksOf).Nodup := by
  rw [List.nodup_flatMap]
  refine ⟨fun node hnode ↦ ?_, ?_⟩
  · exact (hsettled.children_distinct node hnode).map fun first second hlink ↦
      congrArg Link.target hlink
  · refine (List.pairwise_map.mp hsettled.ids_distinct).imp ?_
    intro first second hne link hfirst hsecond
    obtain ⟨_, _, rfl⟩ := List.mem_map.mp hfirst
    obtain ⟨_, _, hlink⟩ := List.mem_map.mp hsecond
    exact hne (congrArg Link.source hlink).symm

/-- Settled nodes are drawn as they are. -/
theorem draws_drawing (hsettled : Settled nodes) : Draws nodes (drawing nodes) where
  vertices := vertices_perm hsettled
  links := rfl
  links_distinct := links_nodup hsettled

end Picture

theorem settled_nil : Settled [] where
  ids_distinct := .nil
  used := fun _ hnode ↦ absurd hnode List.not_mem_nil
  closed := fun _ hnode ↦ absurd hnode List.not_mem_nil
  children_distinct := fun _ hnode ↦ absurd hnode List.not_mem_nil

/-- A ranking leaves nothing to chance: a name that is never used counts as used once, and children
that were cut are not mentioned. -/
theorem settled_of_budgeted {ledger : Ledger} {maxNodes : Nat} {ranking : Ranking}
    (hbudgeted : Ranking.Budgeted ledger maxNodes ranking) : Settled ranking.nodes where
  ids_distinct := hbudgeted.ids_distinct
  used := by
    intro node hnode
    obtain ⟨record, _, hdescribes⟩ := hbudgeted.described node hnode
    rw [hdescribes.usedCount]
    omega
  closed := by
    intro node hnode
    obtain ⟨record, _, hdescribes⟩ := hbudgeted.described node hnode
    exact hdescribes.children_kept
  children_distinct := by
    intro node hnode
    obtain ⟨record, _, hdescribes⟩ := hbudgeted.described node hnode
    exact hdescribes.children_distinct

end Graph

/-! ### Lists and drawings of a project -/

namespace Command

open Journal (ledgerAfter)

/-- The nodes of an analysis leave nothing to chance. -/
theorem settled_analyze (parse : Source.Parser) (tree : FileTree) (options : Options)
    (root : Path) :
    Graph.Settled (Project.analyze parse tree options root).nodes := by
  unfold Project.analyze Project.tryAnalyze
  cases Project.rootOf tree root with
  | error problem => exact Graph.settled_nil
  | ok path =>
    have hledger : (Project.ledgerOf parse tree options path).WellFormed :=
      Ledger.wellFormed_empty.apply (.analysis parse tree options (.project path))
    exact Graph.settled_of_budgeted (Ranking.budgeted_ofLedger hledger options.maxNodes)

/-- Two endings that print the same nodes and edges, the first as a list of nodes and the second as
a graph, which comes out the same for every generator. Nothing else differs in them, except for the
reason why arguments are refused. -/
inductive PrintAlike : Ending → Ending → Prop where
  | misused (first second : UsageError) : PrintAlike (.misused first) (.misused second)
  | failed (failure : Failure) : PrintAlike (.failed failure) (.failed failure)
  | finished {nodes : List Node} {graph : Graph} (hdraws : graph.Draws nodes)
      (hcertain : ∀ generator, Graph.ofNodes nodes generator = (graph, generator))
      (errors : String) (succeeded : Bool) :
      PrintAlike (.finished ⟨(Node.listToJson nodes).print ++ "\n", errors⟩ succeeded)
        (.finished ⟨graph.toJson.print ++ "\n", errors⟩ succeeded)

theorem outcome_settled {shared : Shared} {parse : Source.Parser} {tree : FileTree}
    {focus : Option String} {preset : Option Options} {outcome : Project.Outcome}
    (houtcome : shared.outcome parse tree focus preset = .ok outcome) :
    Graph.Settled outcome.nodes := by
  unfold Shared.outcome at houtcome
  split at houtcome
  · cases houtcome
  · cases houtcome
    exact settled_analyze _ _ _ _

/-- The two commands print alike. -/
theorem printAlike_execute (parse : Source.Parser) (tree : FileTree) (colours : Bool)
    (arguments : List String) :
    PrintAlike (execute parse tree colours ("analyze" :: "--format" :: "json" :: arguments)).1
      (execute parse tree colours ("graph" :: arguments)).1 := by
  unfold execute
  rw [parse?_of_mem_names (by decide), parse?_of_mem_names (by decide)]
  rcases ofName_graph_analyze arguments with
    ⟨shared, focus, hgraph, hanalyze⟩ | ⟨first, second, hgraph, hanalyze⟩
  · rw [hgraph, hanalyze]
    simp only [Except.map, run]
    cases houtcome : shared.outcome parse tree focus none with
    | error failure => exact .failed failure
    | ok outcome =>
      -- both commands come to the same outcome, so only the drawing is left to compare
      have hsettled := outcome_settled houtcome
      have hdrawing : drawingOf outcome = Graph.drawing outcome.nodes :=
        congrArg Prod.fst (Graph.ofNodes_eq hsettled ⟨0⟩)
      dsimp only [bind, Except.bind]
      rw [hdrawing]
      exact .finished (Graph.draws_drawing hsettled) (Graph.ofNodes_eq hsettled) _ _
  · rw [hgraph, hanalyze]
    exact .misused second first

/-- Chance never reaches the graph of a ranking. After any sequence of operations and with any
options, the nodes of the ranking are drawn alike with all generators and no number is drawn; the
graph shows exactly these nodes and links. Hence `graph` prints the same nodes and edges as
`analyze` does in its format for programs, in every tree and with all arguments. -/
theorem graph_without_chance :
    (∀ (operations : List Journal.Operation) (options : Options),
      let nodes := (Ranking.ofLedger (ledgerAfter operations) options.maxNodes).nodes
      (∀ first second, (Graph.ofNodes nodes first).1 = (Graph.ofNodes nodes second).1) ∧
        ∀ generator, (Graph.ofNodes nodes generator).2 = generator ∧
          (Graph.ofNodes nodes generator).1.Draws nodes) ∧
      ∀ (parse : Source.Parser) (tree : FileTree) (colours : Bool) (arguments : List String),
        PrintAlike (execute parse tree colours ("analyze" :: "--format" :: "json" :: arguments)).1
          (execute parse tree colours ("graph" :: arguments)).1 := by
  refine ⟨fun operations options ↦ ?_, printAlike_execute⟩
  intro nodes
  have hledger : (ledgerAfter operations).WellFormed :=
    Ledger.wellFormed_empty.foldl_apply operations
  have hsettled : Graph.Settled nodes :=
    Graph.settled_of_budgeted (Ranking.budgeted_ofLedger hledger options.maxNodes)
  refine ⟨fun first second ↦ ?_, fun generator ↦ ?_⟩
  · rw [Graph.ofNodes_eq hsettled, Graph.ofNodes_eq hsettled]
  · rw [Graph.ofNodes_eq hsettled]
    exact ⟨rfl, Graph.draws_drawing hsettled⟩

end Command

end ComponentGraph
