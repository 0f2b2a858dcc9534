import TensorGraph.OpKind
import TensorGraph.Trace

/-!
# Nodes and faults

The fixed part of a node: its kind, operands and outputs, and the digests that
identify it. A node reads outputs of nodes constructed before it. A shape that was
computed follows from kind, seed and operands and does not count for the identity.

A request fails in one of two ways. A violation breaks a rule that callers have
to keep, such as an index in range. A failure is an ordinary refusal; it collects
the contexts it passes through. Both name nodes by their identifiers, so that a
graph is needed to put them into words.
-/

namespace TensorGraph

/-- The position of a node in the order of construction. -/
abbrev NodeId := Nat

/-- One output of a node. -/
structure Value where
  node : NodeId
  index : Nat
  deriving DecidableEq

/-- A rule that the caller has broken. -/
inductive Violation where
  | cacheCapacity
  | unknownNode (node : NodeId)
  | outputRange (kind : OpKind) (outputs index : Nat)
  | shardingRange (kind : OpKind) (outputs index : Nat)
  | listRange (length index : Nat)
  | noOutputs (kind : OpKind)
  | outputsMismatch (kind : OpKind) (outputs : Nat) (shape : Shape)
  | operandCount (kind : OpKind) (expected given : Nat)
  | operandsOfSource (kind : OpKind)
  | otherOperation (kind : OpKind) (expected : OperationForm) (node : NodeId)

/-- An ordinary refusal with its context. -/
inductive Failure where
  | reported (text : String)
  | unknownHandle (refusal : Trace.UnknownHandle)
  | valueNotLowered (value : Value)
  | operandNotLowered (operand : Value) (user : NodeId)
  | handleCount (node : NodeId) (produced : Nat)
  | handleMissing (node : NodeId) (index : Nat)
  | noLowering (node : NodeId)
  | noCloning (node : NodeId)
  | inShape (kind : OpKind) (cause : Failure)
  | inLowering (node : NodeId) (cause : Failure)

/-- Why a request did not succeed. -/
inductive Fault where
  | violation (violation : Violation)
  | failure (failure : Failure)

/-- Adds a context to a failure; a violation passes as it is. -/
def Fault.within (context : Failure → Failure) : Fault → Fault
  | .violation cause => .violation cause
  | .failure cause => .failure (context cause)

/-- What is fixed about a node when it is constructed. -/
structure Node where
  kind : OpKind
  /-- The digest of the parameters of the operation. -/
  seed : Digest
  operands : List Value
  /-- The number of outputs. -/
  outputs : Nat
  /-- The full shape, a tuple for a node with several outputs. -/
  shape : Shape
  /-- The shape was given, and not computed from the operands. -/
  shapeGiven : Bool
  /-- Identifies the node with everything below it, whatever the annotations. -/
  subgraphDigest : Digest

namespace Node

/-- The digest of kind and seed, and of the text of the shape if one was given. -/
def digestOf (kind : OpKind) (seed : Digest) (given? : Option Shape) : Digest :=
  match given? with
  | some shape => kind.digest.combine ((Digest.ofText shape.text).combine seed)
  | none => kind.digest.combine seed

/-- Identifies the node whatever its operands. -/
def ownDigest (node : Node) : Digest :=
  digestOf node.kind node.seed (if node.shapeGiven then some node.shape else none)

/-- The shape of the output at `index`. -/
def shapeAt (node : Node) (index : Nat) : Except Fault Shape :=
  if index < node.outputs then
    match node.shape with
    | .array .. => .ok node.shape
    | .tuple elements =>
      match elements[index]? with
      | some shape => .ok shape
      | none => .error (.violation (.listRange elements.length index))
  else
    .error (.violation (.outputRange node.kind node.outputs index))

/-- The operand at `index`. -/
def operand (node : Node) (index : Nat) : Except Fault Value :=
  match node.operands[index]? with
  | some operand => .ok operand
  | none => .error (.violation (.listRange node.operands.length index))

end Node

end TensorGraph
