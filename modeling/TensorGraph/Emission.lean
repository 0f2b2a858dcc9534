import TensorGraph.Node

/-!
# Emission

What an operation sees while it is lowered: the trace it emits into and the
handles recorded for outputs so far. Whatever was emitted or recorded before a
fault stays.
-/

namespace TensorGraph

/-- The trace and the recorded handles, the latest first. -/
structure Emission where
  trace : Trace := {}
  handles : List (Value × Handle) := []

namespace Emission

/-- The handle recorded last for the value. -/
def handle? (emission : Emission) (value : Value) : Option Handle := emission.handles.lookup value

/-- Records a handle, in place of an earlier one. -/
def assign (emission : Emission) (value : Value) (handle : Handle) : Emission :=
  { emission with handles := (value, handle) :: emission.handles }

@[simp]
theorem handle?_assign_self (emission : Emission) (value : Value) (handle : Handle) :
    (emission.assign value handle).handle? value = some handle := by
  simp [handle?, assign]

theorem handle?_assign_of_ne (emission : Emission) {value other : Value} (handle : Handle)
    (differ : other ≠ value) :
    (emission.assign value handle).handle? other = emission.handle? other := by
  simp [handle?, assign, List.lookup_cons, beq_eq_false_iff_ne.mpr differ]

@[simp]
theorem trace_assign (emission : Emission) (value : Value) (handle : Handle) :
    (emission.assign value handle).trace = emission.trace := rfl

/-- Records the handles for the outputs of the node from `index` on. -/
def assignFrom (emission : Emission) (node : NodeId) (index : Nat) : List Handle → Emission
  | [] => emission
  | handle :: handles => (emission.assign ⟨node, index⟩ handle).assignFrom node (index + 1) handles

end Emission

/-- A computation that emits. -/
abbrev EmitM := ExceptT Fault (StateM Emission)

namespace EmitM

/-- Replaces the trace by the one an emitting function returns. -/
def emit {α : Type} (step : Trace → α × Trace) : EmitM α := fun emission =>
  let (result, trace) := step emission.trace
  (.ok result, { emission with trace })

/-- As `emit`, for a function that may refuse a handle and then changes nothing. -/
def tryEmit {α : Type} (step : Trace → Except Trace.UnknownHandle (α × Trace)) : EmitM α :=
  fun emission =>
    match step emission.trace with
    | .ok (result, trace) => (.ok result, { emission with trace })
    | .error refusal => (.error (.failure (.unknownHandle refusal)), emission)

def parameter (shape : Shape) (name : String) : EmitM Handle :=
  emit fun trace => trace.parameter shape name

def createToken : EmitM Handle := emit Trace.createToken

def allReduce (reduction : Reduction) (input : Handle) : EmitM Handle :=
  tryEmit fun trace => trace.allReduce reduction input

def allReduceOrdered (reduction : Reduction) (inputs : List Handle) (token : Handle)
    (pinned : Bool) : EmitM (List Handle) :=
  tryEmit fun trace => trace.allReduceOrdered reduction inputs token pinned

/-- The handle of a value that was lowered before. -/
def handleOf (value : Value) : EmitM Handle := fun emission =>
  match emission.handle? value with
  | some handle => (.ok handle, emission)
  | none => (.error (.failure (.valueNotLowered value)), emission)

/-- Records the handles as the outputs of the node, from the first output on, and returns them. -/
def returnHandles (node : NodeId) (handles : List Handle) : EmitM (List Handle) := fun emission =>
  (.ok handles, emission.assignFrom node 0 handles)

end EmitM

end TensorGraph
