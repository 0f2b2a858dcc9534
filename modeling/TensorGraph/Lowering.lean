import TensorGraph.Graph.Descent

/-!
# Lowering

Lowering emits the nodes of a graph into a trace, one node at a time with
operands before their users. A node is emitted once: when it is asked for again,
its recorded handles are returned. A fault stops the request and keeps what was
emitted and recorded before it.
-/

namespace TensorGraph

/-- The emission and the nodes lowered into it. -/
structure Lowering where
  emission : Emission := {}
  lowered : List NodeId := []

/-- A computation that lowers. -/
abbrev LowerM := ExceptT Fault (StateM Lowering)

namespace Lowering

def isLowered (lowering : Lowering) (id : NodeId) : Bool := lowering.lowered.contains id

/-- Runs an emitting computation. -/
def runEmission {α : Type} (emitting : EmitM α) : LowerM α := fun lowering =>
  let (result, emission) := emitting lowering.emission
  (result, { lowering with emission })

/-- Counts the node as lowered. -/
def complete (id : NodeId) : LowerM Unit :=
  modify fun lowering => { lowering with lowered := id :: lowering.lowered }

/-- The handle recorded for an output of a lowered node. -/
def recorded (id : NodeId) (index : Nat) : LowerM Handle := do
  match (← get).emission.handle? ⟨id, index⟩ with
  | some handle => return handle
  | none => throw (.failure (.handleMissing id index))

/-- The handle of a value. -/
def handleOf (value : Value) : LowerM Handle := runEmission (EmitM.handleOf value)

/-- Binds a value to a handle, whether or not the handle was emitted. -/
def assign (value : Value) (handle : Handle) (lowering : Lowering) : Lowering :=
  { lowering with emission := lowering.emission.assign value handle }

/-- Refuses a node with an operand that has no handle yet. -/
def checkOperands (id : NodeId) (node : Node) : LowerM Unit := do
  let emission := (← get).emission
  match node.operands.find? fun operand => (emission.handle? operand).isNone with
  | some operand => throw (.failure (.operandNotLowered operand id))
  | none => return ()

/-- Emits a node without any of the checks around it. -/
def emitNode (graph : Graph) (id : NodeId) : LowerM (List Handle) := do
  let entry ← ofExcept (graph.entryAt id)
  runEmission (entry.operation.emit id entry.node)

/-- Lowers a node whose operands have handles. It counts as lowered once its operation returned
one handle per output. -/
def lowerNode (graph : Graph) (id : NodeId) : LowerM (List Handle) := do
  let node := (← ofExcept (graph.entryAt id)).node
  if (← get).isLowered id then
    (List.range node.outputs).mapM (recorded id)
  else
    checkOperands id node
    let handles ← ExceptT.adapt (Fault.within (.inLowering id)) (emitNode graph id)
    if handles.length = node.outputs then
      complete id
      return handles
    else
      throw (.failure (.handleCount id handles.length))

/-- Lowers the nodes in the given order up to the first fault. -/
def lowerAll (graph : Graph) : List NodeId → LowerM Unit
  | [] => return ()
  | id :: ids => do
    let _ ← lowerNode graph id
    lowerAll graph ids

/-- Lowers everything below the roots and returns the handles of the roots. -/
def lowerValues (graph : Graph) (roots : List Value) : LowerM (List Handle) := do
  lowerAll graph (graph.postOrder roots)
  roots.mapM handleOf

end Lowering

end TensorGraph
