import TensorGraph.Annotations
import TensorGraph.Operation

/-!
# Graphs

A graph is the list of all nodes in the order of their construction. A node is
named by its position and keeps it; only its annotations ever change. A sharding
is checked against the number of outputs.

The identity of a node is the digest of its subgraph, changed by its shardings
if any are attached. The identity of a computation folds those of its roots.

A node is recovered as a built-in operation when its kind is the expected one
and its operation has the expected form.
-/

namespace TensorGraph

/-- A node of a graph with its operation and its annotations. -/
structure Entry (Metadata : Type := Provenance) where
  node : Node
  operation : Operation
  annotations : Annotations Metadata := {}

structure Graph (Metadata : Type := Provenance) where
  entries : Array (Entry Metadata) := #[]

variable {Metadata : Type}

namespace Graph

/-- The number of nodes, which is also the identifier of the next one. -/
def size (graph : Graph Metadata) : Nat := graph.entries.size

def entryAt? (graph : Graph Metadata) (id : NodeId) : Option (Entry Metadata) := graph.entries[id]?

/-- The node with the given identifier. -/
def entryAt (graph : Graph Metadata) (id : NodeId) : Except Fault (Entry Metadata) :=
  match graph.entryAt? id with
  | some entry => .ok entry
  | none => .error (.violation (.unknownNode id))

/-- Appends a node. -/
def push (graph : Graph Metadata) (entry : Entry Metadata) : Graph Metadata :=
  ⟨graph.entries.push entry⟩

/-- Changes the annotations of a node. -/
def annotate (graph : Graph Metadata) (id : NodeId)
    (change : Annotations Metadata → Annotations Metadata) : Graph Metadata :=
  ⟨graph.entries.modify id fun entry => { entry with annotations := change entry.annotations }⟩

@[simp]
theorem size_push (graph : Graph Metadata) (entry : Entry Metadata) :
    (graph.push entry).size = graph.size + 1 := by
  simp [size, push]

theorem entryAt?_push (graph : Graph Metadata) (entry : Entry Metadata) (id : NodeId) :
    (graph.push entry).entryAt? id = if id = graph.size then some entry else graph.entryAt? id := by
  exact Array.getElem?_push

@[simp]
theorem size_annotate (graph : Graph Metadata) (id : NodeId)
    (change : Annotations Metadata → Annotations Metadata) :
    (graph.annotate id change).size = graph.size := by
  simp [size, annotate]

theorem entryAt?_annotate (graph : Graph Metadata) (id other : NodeId)
    (change : Annotations Metadata → Annotations Metadata) :
    (graph.annotate id change).entryAt? other =
      if id = other then
        (graph.entryAt? other).map fun entry =>
          { entry with annotations := change entry.annotations }
      else graph.entryAt? other := by
  simp [entryAt?, annotate, Array.getElem?_modify]

theorem entryAt?_eq_none_iff (graph : Graph Metadata) (id : NodeId) :
    graph.entryAt? id = none ↔ graph.size ≤ id := by
  simp [entryAt?, size]

/-- The operands of a node, none if the node does not exist. -/
def operandsOf (graph : Graph Metadata) (id : NodeId) : List Value :=
  match graph.entryAt? id with
  | some entry => entry.node.operands
  | none => []

/-- The output of a node as a value. -/
def value (graph : Graph Metadata) (id : NodeId) (index : Nat) : Except Fault Value := do
  let node := (← graph.entryAt id).node
  if index < node.outputs then return ⟨id, index⟩
  else throw (.violation (.outputRange node.kind node.outputs index))

/-- The shape of a value. -/
def shapeOf (graph : Graph Metadata) (value : Value) : Except Fault Shape := do
  (← graph.entryAt value.node).node.shapeAt value.index

/-- Attaches a sharding to an output of a node. -/
def setSharding (graph : Graph Metadata) (id : NodeId) (sharding : Sharding) (index : Nat) :
    Except Fault (Graph Metadata) := do
  let node := (← graph.entryAt id).node
  if index < node.outputs then
    return graph.annotate id fun annotations =>
      annotations.setSharding node.ownDigest node.outputs index sharding
  else
    throw (.violation (.shardingRange node.kind node.outputs index))

/-- Detaches the shardings of a node. -/
def clearShardings (graph : Graph Metadata) (id : NodeId) : Graph Metadata :=
  graph.annotate id .clearShardings

/-- The sharding of an output. Any index is answered as long as none is attached. -/
def sharding? (graph : Graph Metadata) (id : NodeId) (index : Nat) :
    Except Fault (Option Sharding) := do
  let shardings := (← graph.entryAt id).annotations.shardings
  if shardings.isEmpty then return none
  else match shardings[index]? with
    | some sharding? => return sharding?
    | none => throw (.violation (.listRange shardings.length index))

/-- Marks dimensions of a node as dynamic. -/
def markDynamic (graph : Graph Metadata) (id : NodeId) (dims : List Nat) : Graph Metadata :=
  graph.annotate id fun annotations => dims.foldl Annotations.markDynamic annotations

/-- Gives a node a provenance in place of an earlier one. -/
def setProvenance (graph : Graph Metadata) (id : NodeId) (provenance : Metadata) :
    Graph Metadata :=
  graph.annotate id fun annotations => annotations.setProvenance provenance

end Graph

namespace Entry

/-- The stored digest of the shardings. -/
def shardingDigest (entry : Entry Metadata) : Digest := entry.annotations.shardingDigest

/-- The digest of the subgraph, combined with that of the shardings unless it is zero. -/
def identity (entry : Entry Metadata) : Digest :=
  if entry.shardingDigest ≠ 0 then entry.node.subgraphDigest.combine entry.shardingDigest
  else entry.node.subgraphDigest

end Entry

namespace Graph

/-- Identifies a value whatever the shardings. -/
def subgraphDigestOf (graph : Graph Metadata) (value : Value) : Except Fault Digest := do
  return (← graph.entryAt value.node).node.subgraphDigest.combine (.ofIndex value.index)

/-- Identifies a value with the shardings of its node. -/
def identityOf (graph : Graph Metadata) (value : Value) : Except Fault Digest := do
  return (← graph.entryAt value.node).identity.combine (.ofIndex value.index)

/-- Folds the operands of a node into its own digest. -/
def operandsDigest (graph : Graph Metadata) (ownDigest : Digest) (operands : List Value) :
    Except Fault Digest :=
  return ownDigest.combineAll (← operands.mapM graph.subgraphDigestOf)

/-- The identity of the computation of the roots. -/
def digest (graph : Graph Metadata) (roots : List Value) : Except Fault Digest :=
  return Digest.seed.combineAll (← roots.mapM graph.identityOf)

/-- The operation of a node that has the given kind and form. -/
def cast? (graph : Graph Metadata) (id : NodeId) (kind : OpKind) (form : OperationForm) :
    Option Operation := do
  let entry ← graph.entryAt? id
  guard (entry.node.kind == kind && entry.operation.form? == some form)
  return entry.operation

/-- As `cast?`, for callers that know the form from the kind: a node of the kind with another form
is a violation. -/
def castKnown (graph : Graph Metadata) (id : NodeId) (kind : OpKind) (form : OperationForm) :
    Except Fault (Option Operation) := do
  let entry ← graph.entryAt id
  if entry.node.kind == kind then
    if entry.operation.form? == some form then return some entry.operation
    else throw (.violation (.otherOperation kind form id))
  else return none

/-- The built-in operation of a node, recovered by the kind that belongs to its form. -/
def builtIn? (graph : Graph Metadata) (id : NodeId) : Option Operation :=
  OperationForm.all.findSome? fun form => graph.cast? id form.kind form

end Graph

end TensorGraph
