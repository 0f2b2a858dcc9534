import TensorGraph.Graph
import TensorGraph.ShapeCache

/-!
# Construction of nodes

A workspace is a graph under construction together with the shape cache. A node
is made from a request that gives its shape or a computation of it; computed
shapes go through the cache under the digest of the node. A request that does not
succeed adds no node.
-/

namespace TensorGraph

structure Workspace where
  graph : Graph := {}
  cache : ShapeCache

/-- The workspace without nodes, with an empty cache for so many shapes. -/
def Workspace.ofCapacity (reservable capacity : Nat) : Except Fault Workspace := do
  return { cache := ← ShapeCache.ofCapacity reservable capacity }

/-- Where the shape of a new node comes from. -/
inductive ShapeSource where
  | given (shape : Shape)
  | computed (compute : Unit → Except Fault Shape)

def ShapeSource.given? : ShapeSource → Option Shape
  | .given shape => some shape
  | .computed _ => none

/-- What a new node is made from. -/
structure Request where
  kind : OpKind
  operands : List Value := []
  /-- The number of outputs. -/
  outputs : Nat := 1
  seed : Digest
  source : ShapeSource
  operation : Operation

/-- A constructed node, and whether its shape was computed for it. -/
structure Construction where
  id : NodeId
  evaluated : Bool

/-- A computation that constructs nodes. -/
abbrev BuildM := ExceptT Fault (StateM Workspace)

namespace Request

/-- The digest of the new node without its operands. -/
def ownDigest (request : Request) : Digest :=
  Node.digestOf request.kind request.seed request.source.given?

/-- A single output has an array or a tuple of one entry, several outputs a tuple of as many. -/
def outputsFit (outputs : Nat) (shape : Shape) : Bool :=
  if outputs = 1 then !shape.isTuple || shape.arity == 1 else shape.arity == outputs

/-- The shape of the new node, from the request or through the cache. -/
def resolveShape (request : Request) (digest : Digest) : BuildM (Shape × Bool) := fun workspace =>
  match request.source with
  | .given shape => (.ok (shape, false), workspace)
  | .computed compute =>
    let resolution := workspace.cache.resolve digest compute
    let outcome := match resolution.outcome with
      | .ok shape => .ok (shape, resolution.evaluated)
      | .error fault => .error (fault.within (.inShape request.kind))
    (outcome, { workspace with cache := resolution.cache })

/-- Appends the node if its outputs fit the shape. -/
def accept (request : Request) (subgraphDigest : Digest) (shape : Shape) : BuildM NodeId :=
  fun workspace =>
    if request.outputs = 0 then
      (.error (.violation (.noOutputs request.kind)), workspace)
    else if outputsFit request.outputs shape then
      let node : Node :=
        { kind := request.kind
          seed := request.seed
          operands := request.operands
          outputs := request.outputs
          shape
          shapeGiven := request.source.given?.isSome
          subgraphDigest }
      (.ok workspace.graph.size,
        { workspace with graph := workspace.graph.push ⟨node, request.operation, {}⟩ })
    else
      (.error (.violation (.outputsMismatch request.kind request.outputs shape)), workspace)

/-- Constructs the requested node. -/
def construct (request : Request) : BuildM Construction := do
  let workspace ← get
  let digest ← ofExcept (workspace.graph.operandsDigest request.ownDigest request.operands)
  let (shape, evaluated) ← request.resolveShape digest
  let id ← request.accept digest shape
  return { id, evaluated }

end Request

/-- Forgets all computed shapes. -/
def Workspace.clearCache (workspace : Workspace) : Workspace :=
  { workspace with cache := workspace.cache.clear }

end TensorGraph
