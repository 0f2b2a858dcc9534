import TensorGraph.Workspace

/-!
# Nodes of the built-in operations

The requests that make nodes of the built-in operations, and clones of nodes
that read other operands. A shape rule describes by data how the shape of any other
node follows from its operands.
-/

namespace TensorGraph

namespace Request

/-- A named input of the given shape. -/
def deviceData (name : String) (shape : Shape) : Request where
  kind := .deviceData
  seed := .ofData [.text name]
  source := .given shape
  operation := .deviceData name

/-- A fresh ordering token. -/
def token : Request where
  kind := .createToken
  seed := .seed
  source := .given .token
  operation := .token

/-- The reduction of a single operand of the given shape. -/
def allReduce (reduction : Reduction) (operand : Value) (shape : Shape) : Request where
  kind := .crossReplicaSum
  operands := [operand]
  seed := .ofData reduction.data
  source := .given shape
  operation := .allReduce reduction

/-- The tuple of the shapes of the values. -/
def shapesOf (graph : Graph) (values : List Value) : Except Fault Shape :=
  return .tuple (← values.mapM graph.shapeOf)

/-- The reduction of all operands, ordered after the token: one output per operand and the new
token. -/
def orderedAllReduce (graph : Graph) (reduction : Reduction) (operands : List Value)
    (token : Value) (pinned : Bool) : Request where
  kind := .crossReplicaSum
  operands := operands ++ [token]
  outputs := operands.length + 1
  seed := .ofData (reduction.data ++ [.flag pinned])
  source := .computed fun _ => shapesOf graph (operands ++ [token])
  operation := .orderedAllReduce reduction pinned

end Request

namespace BuildM

def deviceData (name : String) (shape : Shape) : BuildM NodeId := do
  return (← (Request.deviceData name shape).construct).id

def token : BuildM NodeId := do
  return (← Request.token.construct).id

/-- The new node has the shape of its operand. -/
def allReduce (reduction : Reduction) (operand : Value) : BuildM NodeId := do
  let shape ← ofExcept ((← get).graph.shapeOf operand)
  return (← (Request.allReduce reduction operand shape).construct).id

def orderedAllReduce (reduction : Reduction) (operands : List Value) (token : Value)
    (pinned : Bool) : BuildM NodeId := do
  let graph := (← get).graph
  return (← (Request.orderedAllReduce graph reduction operands token pinned).construct).id

/-- A chain of reductions, each over the only output of the previous one; the last node of it. -/
def allReduceChain (operand : Value) : List Reduction → BuildM NodeId
  | [] => return operand.node
  | reduction :: reductions => do
    let id ← allReduce reduction operand
    allReduceChain ⟨id, 0⟩ reductions

/-- Refuses operands for an operation that has none. -/
def withoutOperands {α : Type} (kind : OpKind) (operands : List Value) (make : BuildM α) :
    BuildM α :=
  if operands.isEmpty then make else throw (.violation (.operandsOfSource kind))

/-- Refuses another number of operands than the node has. -/
def withOperandCount {α : Type} (node : Node) (operands : List Value) (make : BuildM α) :
    BuildM α :=
  if operands.length = node.operands.length then make
  else throw (.violation (.operandCount node.kind node.operands.length operands.length))

/-- A new node of the same operation with the same parameters that reads other operands. -/
def clone (id : NodeId) (operands : List Value) : BuildM NodeId := do
  let entry ← ofExcept ((← get).graph.entryAt id)
  let node := entry.node
  match entry.operation with
  | .deviceData name => withoutOperands node.kind operands (deviceData name node.shape)
  | .token => withoutOperands node.kind operands token
  | .allReduce reduction =>
    withOperandCount node operands do
      match operands with
      | operand :: _ => allReduce reduction operand
      | [] => throw (.violation (.listRange 0 0))
  | .orderedAllReduce reduction pinned =>
    withOperandCount node operands do
      match operands.getLast? with
      | some token => orderedAllReduce reduction operands.dropLast token pinned
      | none => throw (.violation (.listRange 0 0))
  | .custom none => throw (.failure (.noCloning id))
  | .custom (some _) =>
    return (← Request.construct
      { kind := node.kind
        operands
        outputs := node.outputs
        seed := node.seed
        source := .given node.shape
        operation := entry.operation }).id

end BuildM

/-- A computation of a shape, described by data. -/
inductive ShapeRule where
  | fails (text : String)
  | ofOperand (index : Nat)
  | fixed (shape : Shape)
  | tupleOfOperands

/-- The shape that the rule gives for the operands. -/
def ShapeRule.compute (graph : Graph) (operands : List Value) : ShapeRule → Except Fault Shape
  | .fails text => .error (.failure (.reported text))
  | .ofOperand index =>
    match operands[index]? with
    | some operand => graph.shapeOf operand
    | none => .error (.violation (.listRange operands.length index))
  | .fixed shape => .ok shape
  | .tupleOfOperands => Request.shapesOf graph operands

end TensorGraph
