import TensorGraph.Emission

/-!
# Operations

What a node does: a named input, a fresh ordering token, a reduction across
replicas, or an operation defined elsewhere. A reduction takes either a single
operand, or several operands and an ordering token that is threaded through it.

The lowering of an operation that is defined elsewhere may be given by a recipe:
which instructions it emits, in a fixed order, which operands it forwards, and
whether it fails or keeps its handles to itself.
-/

namespace TensorGraph

/-- The lowering of an operation that is not built in: emits the node with the given identifier. -/
abbrev Emitter := NodeId → Node → EmitM (List Handle)

inductive Operation where
  | deviceData (name : String)
  | token
  | allReduce (reduction : Reduction)
  | orderedAllReduce (reduction : Reduction) (pinned : Bool)
  /-- An operation that is not built in; without an emitter it can be neither lowered nor cloned. -/
  | custom (emitter? : Option Emitter)

namespace Operation

/-- The built-in form of the operation. -/
def form? : Operation → Option OperationForm
  | .deviceData _ => some .deviceData
  | .token => some .token
  | .allReduce _ => some .allReduce
  | .orderedAllReduce .. => some .allReduce
  | .custom _ => none

/-- Emits the node and records its outputs. An ordered reduction has the token as its last
operand. -/
def emit (operation : Operation) (id : NodeId) (node : Node) : EmitM (List Handle) :=
  match operation with
  | .deviceData name => do
    let handle ← EmitM.parameter node.shape name
    EmitM.returnHandles id [handle]
  | .token => do
    let handle ← EmitM.createToken
    EmitM.returnHandles id [handle]
  | .allReduce reduction => do
    let operand ← ofExcept (node.operand 0)
    let input ← EmitM.handleOf operand
    let handle ← EmitM.allReduce reduction input
    EmitM.returnHandles id [handle]
  | .orderedAllReduce reduction pinned => do
    let inputs ← node.operands.dropLast.mapM EmitM.handleOf
    let operand ← ofExcept (node.operand (node.operands.length - 1))
    let token ← EmitM.handleOf operand
    let handles ← EmitM.allReduceOrdered reduction inputs token pinned
    EmitM.returnHandles id handles
  | .custom none => throw (.failure (.noLowering id))
  | .custom (some emitter) => emitter id node

end Operation

/-- A lowering described by data. -/
structure Recipe where
  /-- The number of fresh tokens. -/
  tokens : Nat := 0
  /-- The name of a parameter of the node's shape. -/
  parameterName? : Option String := none
  /-- The operands whose handles are passed on. -/
  forwarded : List Nat := []
  /-- A handle to sum over all replicas. -/
  reduced? : Option Handle := none
  /-- The text of a failure after everything was emitted. -/
  failure? : Option String := none
  /-- The handles are recorded as the outputs of the node. -/
  registers : Bool := true

namespace Recipe

/-- A plain sum over all replicas. -/
def plainSum : Reduction := ⟨.sum, .one, []⟩

/-- Tokens first, then the parameter, the forwarded operands and the sum; the handles are returned
in this order. -/
def lower (recipe : Recipe) (id : NodeId) (node : Node) : EmitM (List Handle) := do
  let tokens ← (List.replicate recipe.tokens ()).mapM fun _ => EmitM.createToken
  let parameters ← recipe.parameterName?.toList.mapM (EmitM.parameter node.shape)
  let forwarded ← recipe.forwarded.mapM fun index => do
    let operand ← ofExcept (node.operand index)
    EmitM.handleOf operand
  let sums ← recipe.reduced?.toList.mapM (EmitM.allReduce plainSum)
  let handles := tokens ++ parameters ++ forwarded ++ sums
  match recipe.failure?, recipe.registers with
  | some text, _ => throw (.failure (.reported text))
  | none, true => EmitM.returnHandles id handles
  | none, false => return handles

end Recipe

end TensorGraph
