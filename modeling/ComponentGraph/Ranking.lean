import ComponentGraph.Ledger
import ComponentGraph.Node.Basic
import ComponentGraph.Options.Basic

/-!
The ranking of what an analysis found. Every record becomes a node; nodes are ordered by category
and then by how often they are used, the most used first, and nodes that are equal in both keep the
order in which they were first met. Only as many as the options allow are kept, and of their
children only those that are kept too.
-/

set_option autoImplicit false
set_option relaxedAutoImplicit false

namespace ComponentGraph

/-- The nodes that are kept, and how many there were. -/
structure Ranking where
  nodes : List Node
  total : Nat
  deriving Repr, DecidableEq

namespace Ranking

/-- The number of nodes that are kept. -/
def shown (ranking : Ranking) : Nat := ranking.nodes.length

/-- The file shown for a name that no file declares. -/
def unknownPath (name : String) : String := "unknown/" ++ name

/-- The node of a record. A name that is never used counts as used once. -/
def nodeOf (entry : String × Ledger.Record) : Node where
  id := entry.1
  children := entry.2.dependencies
  filePath :=
    match entry.2.source with
    | some path => path.text
    | none => unknownPath entry.1
  kind := entry.2.kind
  usedCount := max entry.2.uses 1

/-- Whether a node may stand before another. -/
def mayPrecede (first second : Node) : Bool :=
  decide (first.kind.rank < second.kind.rank) ||
    (first.kind.rank == second.kind.rank && decide (second.usedCount ≤ first.usedCount))

/-- All nodes of a ledger in order. -/
def ordered (ledger : Ledger) : List Node :=
  (ledger.records.map nodeOf).mergeSort mayPrecede

/-- Nodes with only those children that are among them. -/
def closeChildren (nodes : List Node) : List Node :=
  nodes.map (fun node ↦
    { node with
      children := node.children.filter (fun child ↦ (nodes.map Node.id).contains child) })

/-- The ranking of a ledger with at most so many nodes. -/
def ofLedger (ledger : Ledger) (maxNodes : Nat) : Ranking :=
  ⟨closeChildren ((ordered ledger).take maxNodes), ledger.records.length⟩

end Ranking

end ComponentGraph
