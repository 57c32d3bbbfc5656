import ComponentGraph.Generator
import ComponentGraph.Node.Basic

/-!
The graph of a list of nodes, for drawing: its nodes and a link for every child of every node. A
child that is not among the nodes is made up rather than dropped. It gets a size at random, as does
a node that is used zero times; the nodes of a ranking are closed under children and used at least
once, so their graph has nothing random in it.
-/

set_option autoImplicit false
set_option relaxedAutoImplicit false

namespace ComponentGraph

namespace Graph

/-- A node to draw. -/
structure Vertex where
  id : String
  filePath : String
  usedCount : Nat
  kind : Name.Kind
  deriving Repr, DecidableEq

/-- A link from a node to one of its children. -/
structure Link where
  source : String
  target : String
  deriving Repr, DecidableEq

end Graph

/-- A graph to draw. -/
structure Graph where
  vertices : List Graph.Vertex := []
  links : List Graph.Link := []
  deriving Repr, DecidableEq

namespace Graph

/-- The largest size that is given at random. -/
def largestRandomSize : Nat := 20

/-- The size of a node that is used so many times. -/
def sizeFor (usedCount : Nat) (generator : Generator) : Nat × Generator :=
  if 0 < usedCount then (usedCount, generator) else generator.upTo largestRandomSize

/-- The vertex for a name: that of the first node with the name, or one made up. -/
def vertexFor (nodes : List Node) (name : String) (generator : Generator) : Vertex × Generator :=
  match nodes.find? (fun node ↦ node.id == name) with
  | some node =>
      let (size, later) := sizeFor node.usedCount generator
      (⟨name, node.filePath, size, node.kind⟩, later)
  | none =>
      let (size, later) := sizeFor 0 generator
      (⟨name, "components/" ++ name ++ ".tsx", size, .util⟩, later)

/-- A graph with a vertex for a name, which is added unless it is there. -/
def mention (nodes : List Node) (state : Graph × Generator) (name : String) : Graph × Generator :=
  let (graph, generator) := state
  if graph.vertices.any (fun vertex ↦ vertex.id == name) then state
  else
    let (vertex, later) := vertexFor nodes name generator
    ({ graph with vertices := graph.vertices ++ [vertex] }, later)

/-- A graph with one more link. -/
def connect (source : String) (state : Graph × Generator) (target : String) : Graph × Generator :=
  ({ state.1 with links := state.1.links ++ [⟨source, target⟩] }, state.2)

/-- Adds a node and its children. -/
def addNode (nodes : List Node) (state : Graph × Generator) (node : Node) : Graph × Generator :=
  node.children.foldl
    (fun state child ↦ connect node.id (mention nodes state child) child)
    (mention nodes state node.id)

/-- The graph of nodes, with what is left of the generator. -/
def ofNodes (nodes : List Node) (generator : Generator) : Graph × Generator :=
  nodes.foldl (addNode nodes) ({}, generator)

/-! ### As JSON -/

/-- A vertex as a JSON object. -/
def Vertex.toJson (vertex : Vertex) : Json :=
  .object [
    ("id", .text vertex.id),
    ("filePath", .text vertex.filePath),
    ("usedCount", .whole vertex.usedCount),
    ("type", .text vertex.kind.label)]

/-- A link as a JSON object. -/
def Link.toJson (link : Link) : Json :=
  .object [("source", .text link.source), ("target", .text link.target)]

/-- A graph as a JSON object. -/
def toJson (graph : Graph) : Json :=
  .object [
    ("nodes", .array (graph.vertices.map Vertex.toJson)),
    ("links", .array (graph.links.map Link.toJson))]

end Graph

end ComponentGraph
