import ComponentGraph.Proofs.Drawing
import Mathlib.Data.List.Induction

/-!
What a graph shows of arbitrary nodes, whatever is drawn at random.

Nodes may repeat names, name themselves or names that no node has, and count no uses. A name gets
its vertex when it is first mentioned, whether as a node or as a child, and the vertex is made from
the first node of that name in either case. So the graph so far shows the names mentioned so far
(`Shows`), one mention after the other, and everything about a vertex except a size at random is
determined by its name (`Vertex.Depicts`). Two generators therefore give graphs that differ in
these sizes at most.

A size at random is drawn until a draw can be kept. The state of a generator passes through all
numbers of sixty-four bits, because its stride is odd, and it comes to one with a draw that is kept
before it is back (`draws_below`).
-/

set_option autoImplicit false
set_option relaxedAutoImplicit false

namespace ComponentGraph

/-! ### Draws -/

namespace Generator

/-- A number is drawn again and again until a draw can be kept; this is the result of the first one
that is. -/
inductive Draws (bound threshold : UInt64) : Generator → UInt64 × Generator → Prop where
  | keep {generator : Generator} (hkeep : ¬ generator.next.1 * bound < threshold) :
      Draws bound threshold generator
        (upperProduct generator.next.1 bound, generator.next.2)
  | again {generator : Generator} {result : UInt64 × Generator}
      (hagain : generator.next.1 * bound < threshold)
      (hlater : Draws bound threshold generator.next.2 result) :
      Draws bound threshold generator result

/-- The generator after so many draws. -/
def advance (generator : Generator) (count : Nat) : Generator :=
  ⟨generator.state + UInt64.ofNat count * stride⟩

theorem advance_zero (generator : Generator) : generator.advance 0 = generator := by
  simp [advance]

theorem advance_succ (generator : Generator) (count : Nat) :
    generator.advance (count + 1) = generator.next.2.advance count := by
  have hcount : UInt64.ofNat (count + 1) * stride = stride + UInt64.ofNat count * stride := by
    have hone : UInt64.ofNat 1 = 1 := rfl
    rw [UInt64.ofNat_add, UInt64.add_mul, UInt64.add_comm, hone, UInt64.one_mul]
  rw [advance, hcount, advance, ← UInt64.add_assoc]
  rfl

/-- The draw that is kept is found if there are enough draws to come to one. -/
theorem draws_belowFrom {bound threshold : UInt64} {generator : Generator} {count fuel : Nat}
    (hcount : count < fuel)
    (hkeep : ¬ (generator.advance count).next.1 * bound < threshold) :
    Draws bound threshold generator (belowFrom bound threshold fuel generator) := by
  induction fuel generalizing generator count with
  | zero => exact absurd hcount (Nat.not_lt_zero count)
  | succ fuel ih =>
    rw [belowFrom]
    dsimp only
    split
    · rename_i hagain
      refine .again hagain ?_
      cases count with
      | zero =>
        rw [advance_zero] at hkeep
        exact absurd hagain hkeep
      | succ count =>
        rw [advance_succ] at hkeep
        exact ih (Nat.lt_of_succ_lt_succ hcount) hkeep
    · rename_i hkept
      exact .keep hkept

/-- The number by which the stride is undone. -/
def inverseStride : UInt64 := 0x32e25c49d2beaf2d

/-- Every generator comes to every state. -/
theorem exists_advance_eq (generator target : Generator) :
    ∃ count < period, generator.advance count = target := by
  refine ⟨((target.state - generator.state) * inverseStride).toNat, UInt64.toNat_lt _, ?_⟩
  have hinverse : inverseStride * stride = 1 := by decide
  rw [advance, UInt64.ofNat_toNat, UInt64.mul_assoc, hinverse, UInt64.mul_one,
    UInt64.add_comm, UInt64.sub_add_cancel]

/-- A number below a bound is a draw that is kept. Assumes: a draw from some state is. -/
theorem draws_below {bound : UInt64} {target : Generator}
    (hkeep : ¬ target.next.1 * bound < (0 - bound) % bound) (generator : Generator) :
    Draws bound ((0 - bound) % bound) generator (generator.below bound) := by
  obtain ⟨count, hcount, hstate⟩ := exists_advance_eq generator target
  rw [below]
  refine draws_belowFrom hcount ?_
  rwa [hstate]

theorem Draws.lt {bound threshold : UInt64} {generator : Generator} {result : UInt64 × Generator}
    (hdraws : Draws bound threshold generator result) (hbound : 0 < bound.toNat) :
    result.1.toNat < bound.toNat := by
  induction hdraws with
  | @keep generator hkeep =>
    have hdraw : generator.next.1.toNat < period := UInt64.toNat_lt _
    have hsmall : generator.next.1.toNat * bound.toNat / period < bound.toNat := by
      rw [Nat.div_lt_iff_lt_mul (Nat.zero_lt_of_lt hdraw), Nat.mul_comm]
      exact Nat.mul_lt_mul_of_pos_left hdraw hbound
    rw [upperProduct, UInt64.toNat_ofNat_of_lt' (Nat.lt_trans hsmall bound.toNat_lt)]
    exact hsmall
  | again _ _ ih => exact ih

end Generator

namespace Graph

open Ledger (addName addNames)

theorem upTo_bounds (generator : Generator) :
    1 ≤ (generator.upTo largestRandomSize).1 ∧ (generator.upTo largestRandomSize).1 ≤ 20 := by
  have hkeep : ¬ (Generator.mk 0).next.1 * UInt64.ofNat largestRandomSize <
      (0 - UInt64.ofNat largestRandomSize) % UInt64.ofNat largestRandomSize := by
    decide +kernel
  have hbound : (UInt64.ofNat largestRandomSize).toNat = 20 := by decide
  have hnumber := (Generator.draws_below hkeep generator).lt (by rw [hbound]; decide)
  rw [hbound] at hnumber
  exact ⟨Nat.succ_le_succ (Nat.zero_le _), hnumber⟩

/-! ### Vertices -/

/-- The first node of a name. -/
def first? (nodes : List Node) (name : String) : Option Node :=
  nodes.find? fun node ↦ node.id == name

/-- A vertex that shows what there is to know about its name: the first node of that name, if there
is one, except that no uses are shown as a size at random. -/
structure Vertex.Depicts (nodes : List Node) (vertex : Vertex) : Prop where
  filePath : ∀ node, first? nodes vertex.id = some node → vertex.filePath = node.filePath
  kind : ∀ node, first? nodes vertex.id = some node → vertex.kind = node.kind
  usedCount : ∀ node, first? nodes vertex.id = some node → 0 < node.usedCount →
    vertex.usedCount = node.usedCount
  unknown : first? nodes vertex.id = none →
    vertex.filePath = "components/" ++ vertex.id ++ ".tsx" ∧ vertex.kind = .util
  /-- Without a node that counts uses the size is one at random. -/
  random : (∀ node, first? nodes vertex.id = some node → node.usedCount = 0) →
    1 ≤ vertex.usedCount ∧ vertex.usedCount ≤ 20

theorem sizeFor_of_pos {usedCount : Nat} (hused : 0 < usedCount) (generator : Generator) :
    sizeFor usedCount generator = (usedCount, generator) :=
  if_pos hused

theorem sizeFor_zero (generator : Generator) :
    sizeFor 0 generator = generator.upTo largestRandomSize :=
  if_neg (Nat.lt_irrefl 0)

theorem id_vertexFor (nodes : List Node) (name : String) (generator : Generator) :
    (vertexFor nodes name generator).1.id = name := by
  rw [vertexFor]
  split <;> rfl

/-- The vertex that is made for a name shows what there is to know about it. -/
theorem depicts_vertexFor (nodes : List Node) (name : String) (generator : Generator) :
    (vertexFor nodes name generator).1.Depicts nodes := by
  have hid := id_vertexFor nodes name generator
  cases hfirst : first? nodes name with
  | none =>
    have hvertex : (vertexFor nodes name generator).1 =
        ⟨name, "components/" ++ name ++ ".tsx", (sizeFor 0 generator).1, .util⟩ := by
      unfold vertexFor
      rw [show nodes.find? (fun node ↦ node.id == name) = none from hfirst]
    rw [hvertex]
    refine ⟨?_, ?_, ?_, ?_, ?_⟩
    · intro node hnode
      cases hfirst.symm.trans hnode
    · intro node hnode
      cases hfirst.symm.trans hnode
    · intro node hnode
      cases hfirst.symm.trans hnode
    · exact fun _ ↦ ⟨rfl, rfl⟩
    · intro _
      rw [sizeFor_zero]
      exact upTo_bounds generator
  | some found =>
    have hvertex : (vertexFor nodes name generator).1 =
        ⟨name, found.filePath, (sizeFor found.usedCount generator).1, found.kind⟩ := by
      unfold vertexFor
      rw [show nodes.find? (fun node ↦ node.id == name) = some found from hfirst]
    have hsame (node : Node) (hnode : first? nodes name = some node) : node = found :=
      Option.some.inj (hnode.symm.trans hfirst)
    rw [hvertex]
    refine ⟨?_, ?_, ?_, ?_, ?_⟩
    · intro node hnode
      rw [hsame node hnode]
    · intro node hnode
      rw [hsame node hnode]
    · intro node hnode hused
      rw [hsame node hnode] at hused ⊢
      rw [sizeFor_of_pos hused]
    · intro hnone
      cases hfirst.symm.trans hnone
    · intro hunused
      rw [hunused found hfirst, sizeFor_zero]
      exact upTo_bounds generator

/-! ### Mentioning names -/

/-- A graph that shows the names mentioned so far, in their order, and the links drawn so far. -/
structure Shows (nodes : List Node) (names : List String) (links : List Link) (graph : Graph) :
    Prop where
  ids : graph.vertices.map Vertex.id = names
  links : graph.links = links
  depicts : ∀ vertex ∈ graph.vertices, vertex.Depicts nodes

section Mentioning

variable {nodes : List Node} {names : List String} {links : List Link} {graph : Graph}
  {generator : Generator}

theorem shows_empty (nodes : List Node) : Shows nodes [] [] {} where
  ids := rfl
  links := rfl
  depicts := fun _ hvertex ↦ absurd hvertex List.not_mem_nil

theorem Shows.any_iff (hshows : Shows nodes names links graph) (name : String) :
    graph.vertices.any (fun vertex ↦ vertex.id == name) = true ↔ name ∈ names := by
  rw [← hshows.ids, List.any_eq_true, List.mem_map]
  simp only [beq_iff_eq]

/-- Mentioning a name adds it to the names mentioned. -/
theorem Shows.mention (hshows : Shows nodes names links graph) (name : String) :
    Shows nodes (addName names name) links (mention nodes (graph, generator) name).1 := by
  unfold Graph.mention
  dsimp only
  by_cases hmentioned : name ∈ names
  · rw [if_pos ((hshows.any_iff name).mpr hmentioned), Ledger.addName_of_mem hmentioned]
    exact hshows
  · rw [if_neg (fun hany ↦ hmentioned ((hshows.any_iff name).mp hany)),
      Ledger.addName_of_not_mem hmentioned]
    refine ⟨?_, hshows.links, ?_⟩
    · simp only [List.map_append, List.map_cons, List.map_nil, hshows.ids, id_vertexFor]
    · refine List.forall_mem_append.mpr ⟨hshows.depicts, ?_⟩
      exact List.forall_mem_singleton.mpr (depicts_vertexFor nodes name generator)

theorem Shows.connect {state : Graph × Generator} (hshows : Shows nodes names links state.1)
    (source target : String) :
    Shows nodes names (links ++ [⟨source, target⟩]) (connect source state target).1 where
  ids := hshows.ids
  links := by
    rw [Graph.connect, ← hshows.links]
  depicts := hshows.depicts

theorem Shows.foldl_children {state : Graph × Generator} (hshows : Shows nodes names links state.1)
    (source : String) (children : List String) :
    Shows nodes (addNames names children) (links ++ children.map (Link.mk source))
      (children.foldl (fun state child ↦
        Graph.connect source (Graph.mention nodes state child) child) state).1 := by
  induction children generalizing state names links with
  | nil => simpa [Ledger.addNames] using hshows
  | cons child rest ih =>
    have hlinks : links ++ (child :: rest).map (Link.mk source) =
        links ++ [⟨source, child⟩] ++ rest.map (Link.mk source) := by
      rw [List.map_cons, List.append_assoc, List.singleton_append]
    rw [hlinks]
    exact ih ((hshows.mention child).connect source child)

theorem Shows.addNode {state : Graph × Generator} (hshows : Shows nodes names links state.1)
    (node : Node) :
    Shows nodes (addNames names (node.id :: node.children)) (links ++ linksOf node)
      (addNode nodes state node).1 :=
  (hshows.mention node.id).foldl_children node.id node.children

theorem Shows.foldl_addNode {state : Graph × Generator} (hshows : Shows nodes names links state.1)
    (added : List Node) :
    Shows nodes (addNames names (mentions added)) (links ++ added.flatMap linksOf)
      (added.foldl (Graph.addNode nodes) state).1 := by
  induction added generalizing state names links with
  | nil => simpa [mentions, Ledger.addNames] using hshows
  | cons node rest ih =>
    have hmentions : mentions (node :: rest) = (node.id :: node.children) ++ mentions rest := rfl
    rw [List.foldl_cons, hmentions, Ledger.addNames_append, List.flatMap_cons, ← List.append_assoc]
    exact ih (hshows.addNode node)

end Mentioning

/-- The graph of nodes shows all names that they mention and all links between them. -/
theorem shows_ofNodes (nodes : List Node) (generator : Generator) :
    Shows nodes (addNames [] (mentions nodes)) (nodes.flatMap linksOf)
      (ofNodes nodes generator).1 := by
  have hstart : Shows nodes [] [] (({}, generator) : Graph × Generator).1 := shows_empty nodes
  exact hstart.foldl_addNode nodes

/-! ### The order of first mentions -/

/-- Names without repetitions stand in the order of their first mentions. -/
theorem pairwise_addNames (mentioned : List String) :
    (addNames [] mentioned).Pairwise fun first second ↦
      mentioned.idxOf first < mentioned.idxOf second := by
  induction mentioned using List.reverseRecOn with
  | nil => exact .nil
  | append_singleton front last ih =>
    have hfront (name : String) (hname : name ∈ addNames [] front) : name ∈ front :=
      ((Ledger.mem_addNames [] front name).mp hname).resolve_left List.not_mem_nil
    have hkept : (addNames [] front).Pairwise fun first second ↦
        (front ++ [last]).idxOf first < (front ++ [last]).idxOf second := by
      refine ih.imp_of_mem fun hfirst hsecond hbefore ↦ ?_
      rwa [List.idxOf_append_of_mem (hfront _ hfirst), List.idxOf_append_of_mem (hfront _ hsecond)]
    have hstep : addNames [] (front ++ [last]) = addName (addNames [] front) last := by
      rw [Ledger.addNames_append]
      rfl
    rw [hstep]
    by_cases hmentioned : last ∈ addNames [] front
    · rwa [Ledger.addName_of_mem hmentioned]
    · rw [Ledger.addName_of_not_mem hmentioned, List.pairwise_append]
      refine ⟨hkept, List.pairwise_singleton _ _, fun first hfirst second hsecond ↦ ?_⟩
      obtain rfl := List.mem_singleton.mp hsecond
      have hnew : second ∉ front := fun hmem ↦
        hmentioned ((Ledger.mem_addNames [] front second).mpr (Or.inr hmem))
      rw [List.idxOf_append_of_mem (hfront _ hfirst), List.idxOf_append_of_notMem hnew]
      exact Nat.lt_add_right _ (List.idxOf_lt_length_iff.mpr (hfront _ hfirst))

theorem mem_mentions {nodes : List Node} {name : String} :
    name ∈ mentions nodes ↔ ∃ node ∈ nodes, name = node.id ∨ name ∈ node.children := by
  simp only [mentions, List.mem_flatMap, List.mem_cons]

/-! ### Graphs of arbitrary nodes -/

/-- A graph that shows exactly what nodes mention. -/
structure Portrays (nodes : List Node) (graph : Graph) : Prop where
  ids_distinct : (graph.vertices.map Vertex.id).Nodup
  /-- There is a vertex for each name of a node or a child, and for no other name. -/
  ids : ∀ name, name ∈ graph.vertices.map Vertex.id ↔
    ∃ node ∈ nodes, name = node.id ∨ name ∈ node.children
  /-- The vertices stand in the order in which their names are first mentioned, where a node is
  mentioned before its children. -/
  ordered : (graph.vertices.map Vertex.id).Pairwise fun first second ↦
    (nodes.flatMap fun node ↦ node.id :: node.children).idxOf first <
      (nodes.flatMap fun node ↦ node.id :: node.children).idxOf second
  /-- There is a link for each child of each node, in order and with repetitions. -/
  links : graph.links =
    nodes.flatMap fun node ↦ node.children.map fun child ↦ ⟨node.id, child⟩
  ends : ∀ link ∈ graph.links, link.source ∈ graph.vertices.map Vertex.id ∧
    link.target ∈ graph.vertices.map Vertex.id
  depicts : ∀ vertex ∈ graph.vertices, vertex.Depicts nodes

/-- Vertices that differ in their sizes at most, and in these only if no uses are known. -/
structure SameButSize (nodes : List Node) (vertex vertex' : Vertex) : Prop where
  id : vertex'.id = vertex.id
  filePath : vertex'.filePath = vertex.filePath
  kind : vertex'.kind = vertex.kind
  usedCount : ∀ node, first? nodes vertex.id = some node → 0 < node.usedCount →
    vertex'.usedCount = vertex.usedCount

theorem Shows.portrays {nodes : List Node} {graph : Graph}
    (hshows : Shows nodes (addNames [] (mentions nodes)) (nodes.flatMap linksOf) graph) :
    Portrays nodes graph := by
  have hids (name : String) : name ∈ graph.vertices.map Vertex.id ↔
      ∃ node ∈ nodes, name = node.id ∨ name ∈ node.children := by
    rw [hshows.ids, Ledger.mem_addNames, ← mem_mentions]
    exact or_iff_right List.not_mem_nil
  refine ⟨?_, hids, ?_, hshows.links, ?_, hshows.depicts⟩
  · rw [hshows.ids]
    exact Ledger.nodup_addNames .nil _
  · rw [hshows.ids]
    exact pairwise_addNames (mentions nodes)
  · intro link hlink
    rw [hshows.links, List.mem_flatMap] at hlink
    obtain ⟨node, hnode, hchild⟩ := hlink
    obtain ⟨child, hmember, rfl⟩ := List.mem_map.mp hchild
    exact ⟨(hids node.id).mpr ⟨node, hnode, Or.inl rfl⟩,
      (hids child).mpr ⟨node, hnode, Or.inr hmember⟩⟩

/-- What is known about its name determines a vertex up to a size at random. -/
theorem sameButSize_of_depicts {nodes : List Node} {vertex vertex' : Vertex}
    (hdepicts : vertex.Depicts nodes) (hdepicts' : vertex'.Depicts nodes)
    (hid : vertex'.id = vertex.id) : SameButSize nodes vertex vertex' := by
  refine ⟨hid, ?_, ?_, ?_⟩
  · cases hfirst : first? nodes vertex.id with
    | none => rw [(hdepicts.unknown hfirst).1, (hdepicts'.unknown (hid ▸ hfirst)).1, hid]
    | some node => rw [hdepicts.filePath node hfirst, hdepicts'.filePath node (hid ▸ hfirst)]
  · cases hfirst : first? nodes vertex.id with
    | none => rw [(hdepicts.unknown hfirst).2, (hdepicts'.unknown (hid ▸ hfirst)).2]
    | some node => rw [hdepicts.kind node hfirst, hdepicts'.kind node (hid ▸ hfirst)]
  · intro node hfirst hused
    rw [hdepicts.usedCount node hfirst hused, hdepicts'.usedCount node (hid ▸ hfirst) hused]

theorem Shows.forall₂_sameButSize {nodes : List Node} {names : List String} {links : List Link}
    {graph graph' : Graph} (hshows : Shows nodes names links graph)
    (hshows' : Shows nodes names links graph') :
    List.Forall₂ (SameButSize nodes) graph.vertices graph'.vertices := by
  have hids : List.Forall₂ (fun vertex vertex' ↦ vertex'.id = vertex.id)
      graph.vertices graph'.vertices := by
    have hsame : List.Forall₂ Eq (graph'.vertices.map Vertex.id) (graph.vertices.map Vertex.id) :=
      List.forall₂_eq_eq_eq ▸ (hshows'.ids.trans hshows.ids.symm)
    rw [List.forall₂_map_left_iff, List.forall₂_map_right_iff] at hsame
    exact hsame.flip
  have hright := ((List.forall₂_and_left _ _).mpr ⟨hshows'.depicts, hids.flip⟩).flip
  have hboth := (List.forall₂_and_left _ _).mpr ⟨hshows.depicts, hright⟩
  exact hboth.imp fun vertex vertex' ⟨hdepicts, hdepicts', hid⟩ ↦
    sameButSize_of_depicts hdepicts hdepicts' hid

/-- The graph of any nodes, with any generator, shows exactly what the nodes mention, and two
generators give graphs that differ at most in the sizes of names whose uses are not known. -/
theorem graph_of_arbitrary_nodes (nodes : List Node) :
    (∀ generator, Portrays nodes (ofNodes nodes generator).1) ∧
      ∀ first second,
        List.Forall₂ (SameButSize nodes) (ofNodes nodes first).1.vertices
            (ofNodes nodes second).1.vertices ∧
          (ofNodes nodes first).1.links = (ofNodes nodes second).1.links := by
  refine ⟨fun generator ↦ (shows_ofNodes nodes generator).portrays, fun first second ↦ ⟨?_, ?_⟩⟩
  · exact (shows_ofNodes nodes first).forall₂_sameButSize (shows_ofNodes nodes second)
  · rw [(shows_ofNodes nodes first).links, (shows_ofNodes nodes second).links]

end Graph

end ComponentGraph
