import TensorGraph.Sharding

/-!
# Annotations

What may be attached to a node after its construction: a sharding per output,
dynamic dimensions, and the provenance of the node. Only the shardings take part
in the node's identity. Their digest is stored beside them, so whatever changes
the shardings has to store it anew.
-/

namespace TensorGraph

/-- The custom operation a subgraph was traced from. -/
structure Provenance where
  name : String
  depth : Nat
  deriving DecidableEq

/-- The annotations of a node. Nothing looks into the metadata that tell its provenance. -/
structure Annotations (Metadata : Type := Provenance) where
  /-- Empty as long as no sharding is attached, and otherwise one entry per output. -/
  shardings : List (Option Sharding) := []
  /-- The digest of the shardings, zero as long as none is attached. -/
  shardingDigest : Digest := 0
  /-- The marked dimensions in increasing order. -/
  dynamicDims : List Nat := []
  provenance? : Option Metadata := none

namespace Annotations

variable {Metadata : Type}

/-- Folds the shardings from output `index` on into `state`, each after the number of its output. -/
def foldShardings (state : Digest) (index : Nat) : List (Option Sharding) → Digest
  | [] => state
  | sharding? :: shardings =>
    let numbered := state.combine (Datum.unsigned32 index).digest
    let folded := match sharding? with
      | some sharding => sharding.foldDigest numbered
      | none => numbered
    foldShardings folded (index + 1) shardings

/-- Attaches a sharding to one of the given number of outputs. The digest of all shardings starts
from the digest of the node itself. -/
def setSharding (annotations : Annotations Metadata) (ownDigest : Digest) (outputs index : Nat)
    (sharding : Sharding) : Annotations Metadata :=
  let attached :=
    if annotations.shardings.isEmpty then List.replicate outputs none else annotations.shardings
  let shardings := attached.set index (some sharding)
  { annotations with shardings, shardingDigest := foldShardings ownDigest 0 shardings }

/-- Detaches all shardings. -/
def clearShardings (annotations : Annotations Metadata) : Annotations Metadata :=
  { annotations with shardings := [], shardingDigest := 0 }

/-- Inserts a number into an increasing list that may hold it already. -/
def insertSorted (dim : Nat) : List Nat → List Nat
  | [] => [dim]
  | head :: tail =>
    if dim < head then dim :: head :: tail
    else if dim = head then head :: tail
    else head :: insertSorted dim tail

theorem mem_insertSorted (dim other : Nat) (dims : List Nat) :
    other ∈ insertSorted dim dims ↔ other = dim ∨ other ∈ dims := by
  induction dims with
  | nil => simp [insertSorted]
  | cons head tail step =>
    unfold insertSorted
    split
    · simp
    · split
      next same => simp [same]
      next => simp [step, or_left_comm]

/-- Marks a dimension as dynamic. -/
def markDynamic (annotations : Annotations Metadata) (dim : Nat) : Annotations Metadata :=
  { annotations with dynamicDims := insertSorted dim annotations.dynamicDims }

def setProvenance (annotations : Annotations Metadata) (provenance : Metadata) :
    Annotations Metadata :=
  { annotations with provenance? := some provenance }

end Annotations

end TensorGraph
