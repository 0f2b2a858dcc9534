import TensorGraph.Graph

/-!
# What lies below a node

Operands come before the nodes that read them, so one sweep from the latest node
to the first finds everything below a set of nodes: when a node is passed, all
its users have been passed before it.

Attaching a provenance to a subgraph descends from its root through nodes that
have none. A node that has one keeps it and shields what lies only below it; the
root's own provenance does not stop the descent.
-/

namespace TensorGraph.Graph

variable {Metadata : Type}

/-- Sweeps over the nodes below the bound, collecting in front of `found` those that are pending
when they are passed. A collected node makes its operands pending as far as `enters` admits them. -/
def sweep (graph : Graph Metadata) (enters : NodeId → Bool) :
    Nat → List NodeId → List NodeId → List NodeId
  | 0, _, found => found
  | id + 1, pending, found =>
    if pending.contains id then
      let operands := (graph.operandsOf id).map Value.node
      graph.sweep enters id (operands.filter enters ++ pending.filter (· != id)) (id :: found)
    else
      graph.sweep enters id pending found

/-- The given nodes and all nodes below them, operands before their users. -/
def postOrder (graph : Graph Metadata) (roots : List Value) : List NodeId :=
  graph.sweep (fun _ => true) graph.size (roots.map Value.node) []

def provenance? (graph : Graph Metadata) (id : NodeId) : Option Metadata :=
  (graph.entryAt? id).bind fun entry => entry.annotations.provenance?

/-- Gives the node the provenance unless it has one. -/
def offerProvenance (graph : Graph Metadata) (provenance : Metadata) (id : NodeId) :
    Graph Metadata :=
  match graph.provenance? id with
  | some _ => graph
  | none => graph.annotate id fun annotations => annotations.setProvenance provenance

/-- Attaches the provenance below the root, one operand after the other, and then to the root. An
operand that has a provenance by then is passed over. The descent ends, for operands come before
the nodes that read them. -/
def attachProvenance (graph : Graph Metadata) (root : NodeId) (provenance : Metadata) :
    Graph Metadata :=
  let below := (graph.operandsOf root).foldl (fun annotated operand =>
    if _ : operand.node < root ∧ annotated.provenance? operand.node = none then
      annotated.attachProvenance operand.node provenance
    else annotated) graph
  below.offerProvenance provenance root
termination_by root
decreasing_by exact And.left ‹_ ∧ _›

/-- Attaches the provenance to the subgraph of a node and answers with the one the node then has. -/
def settleProvenance (graph : Graph Metadata) (root : NodeId) (provenance : Metadata) :
    Option Metadata × Graph Metadata :=
  let settled := graph.attachProvenance root provenance
  (settled.provenance? root, settled)

end TensorGraph.Graph
