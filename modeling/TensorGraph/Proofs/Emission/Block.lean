import TensorGraph.Operation
import TensorGraph.Proofs.Effects
import TensorGraph.Proofs.Emission.Handles
import TensorGraph.Proofs.ListRelations

/-! # The instructions of a node

A built-in operation emits a fixed block of instructions: one for most
operations, and for an ordered reduction the collective followed by a projection
for each of its results. With the operands at hand an emission appends exactly
this block and records its handles.
-/

namespace TensorGraph

open Effects ListRelations

namespace Opcode

def isParameter : Opcode → Bool
  | .parameter .. => true
  | _ => false

end Opcode

namespace Trace

/-- Appends instructions and counts the parameters among them. -/
def append (trace : Trace) (block : List Instruction) : Trace where
  instructions := trace.instructions ++ block.toArray
  parameters := trace.parameters + block.countP fun instruction => instruction.opcode.isParameter

/-- The projections of a tuple, numbered from `index`. -/
def projections (source : Handle) (index : Nat) (shapes : List Shape) : List Instruction :=
  (shapes.zipIdx index).map fun (shape, position) => ⟨.tupleElement position, [source], shape⟩

@[simp]
theorem size_append (trace : Trace) (block : List Instruction) :
    (trace.append block).size = trace.size + block.length := by
  simp [size, append]

theorem append_append (trace : Trace) (first second : List Instruction) :
    (trace.append first).append second = trace.append (first ++ second) := by
  simp [append, Nat.add_assoc]

theorem push_eq_append (trace : Trace) (instruction : Instruction)
    (hopcode : instruction.opcode.isParameter = false) :
    trace.push instruction = (⟨trace.size⟩, trace.append [instruction]) := by
  simp [push, append, hopcode]

theorem pushElements_eq (trace : Trace) (source : Handle) (index : Nat) (shapes : List Shape) :
    trace.pushElements source index shapes =
      ((List.range' trace.size shapes.length).map Handle.mk,
        trace.append (projections source index shapes)) := by
  induction shapes generalizing trace index with
  | nil => simp [pushElements, append, projections]
  | cons shape shapes ih =>
      rw [pushElements, push_eq_append _ _ rfl]
      simp only [ih, size_append, List.length_singleton, append_append]
      simp [projections, List.range'_succ]

end Trace

namespace Operation

/-- The instructions of a node from position `start` on, with the number of the next parameter and
the handles and shapes of the operands. -/
def block (operation : Operation) (node : Node) (start number : Nat) (inputs : List Handle)
    (shapes : List Shape) : List Instruction :=
  match operation with
  | .deviceData name => [⟨.parameter number name, [], node.shape⟩]
  | .token => [⟨.afterAll, [], .token⟩]
  | .allReduce reduction => shapes.map fun shape => ⟨.allReduce reduction false, inputs, shape⟩
  | .orderedAllReduce reduction pinned =>
    ⟨.allReduce reduction pinned, inputs, .tuple shapes⟩ ::
      Trace.projections ⟨start⟩ 0 shapes
  | .custom _ => []

/-- The handles of the outputs of a node whose block starts at `start`. -/
def results (operation : Operation) (start outputs : Nat) : List Handle :=
  match operation with
  | .orderedAllReduce .. => (List.range' (start + 1) outputs).map Handle.mk
  | _ => [⟨start⟩]

/-- The node has the operands and outputs that the built-in operation has. -/
def Fits (operation : Operation) (node : Node) : Prop :=
  match operation with
  | .deviceData _ | .token => node.operands = [] ∧ node.outputs = 1
  | .allReduce _ => (∃ operand, node.operands = [operand]) ∧ node.outputs = 1
  | .orderedAllReduce .. =>
    ∃ data token, node.operands = data ++ [token] ∧ node.outputs = data.length + 1
  | .custom _ => False

theorem length_results {operation : Operation} {node : Node} (hfits : operation.Fits node)
    (start : Nat) : (operation.results start node.outputs).length = node.outputs := by
  cases operation with
  | deviceData name => simpa [results] using hfits.2.symm
  | token => simpa [results] using hfits.2.symm
  | allReduce reduction => simpa [results] using hfits.2.symm
  | orderedAllReduce reduction pinned => simp [results]
  | custom emitter? => exact hfits.elim

/-- The number of outputs follows from the operation and the number of operands. -/
theorem Fits.outputs_eq {operation : Operation} {node node' : Node} (hfits : operation.Fits node)
    (hfits' : operation.Fits node') (hlength : node.operands.length = node'.operands.length) :
    node.outputs = node'.outputs := by
  cases operation with
  | deviceData name => exact hfits.2.trans hfits'.2.symm
  | token => exact hfits.2.trans hfits'.2.symm
  | allReduce reduction => exact hfits.2.trans hfits'.2.symm
  | orderedAllReduce reduction pinned =>
      obtain ⟨data, token, hoperands, houtputs⟩ := hfits
      obtain ⟨data', token', hoperands', houtputs'⟩ := hfits'
      rw [hoperands, hoperands'] at hlength
      simp only [List.length_append, List.length_singleton] at hlength
      rw [houtputs, houtputs', hlength]
  | custom emitter? => exact hfits.elim

theorem Fits.outputs_pos {operation : Operation} {node : Node} (hfits : operation.Fits node) :
    0 < node.outputs := by
  cases operation with
  | deviceData name => exact hfits.2 ▸ Nat.one_pos
  | token => exact hfits.2 ▸ Nat.one_pos
  | allReduce reduction => exact hfits.2 ▸ Nat.one_pos
  | orderedAllReduce reduction pinned =>
      obtain ⟨data, token, _, houtputs⟩ := hfits
      exact houtputs ▸ Nat.succ_pos _
  | custom emitter? => exact hfits.elim

/-- Of the node only the shape enters its block. -/
theorem block_congr (operation : Operation) {node node' : Node} (hshape : node.shape = node'.shape)
    (start number : Nat) (inputs : List Handle) (shapes : List Shape) :
    operation.block node start number inputs shapes =
      operation.block node' start number inputs shapes := by
  cases operation with
  | deviceData name => rw [block, block, hshape]
  | _ => rfl

/-- The first instruction of a block reads the operands of the node. -/
theorem block_head {operation : Operation} {node : Node} (hfits : operation.Fits node)
    (start number : Nat) {inputs : List Handle} {shapes : List Shape}
    (hinputs : inputs.length = node.operands.length)
    (hshapes : shapes.length = node.operands.length) :
    ∃ instruction, (operation.block node start number inputs shapes)[0]? = some instruction ∧
      instruction.operands = inputs := by
  cases operation with
  | deviceData name =>
      rw [hfits.1] at hinputs
      exact ⟨_, rfl, (List.length_eq_zero_iff.mp hinputs).symm⟩
  | token =>
      rw [hfits.1] at hinputs
      exact ⟨_, rfl, (List.length_eq_zero_iff.mp hinputs).symm⟩
  | allReduce reduction =>
      obtain ⟨⟨operand, hoperands⟩, _⟩ := hfits
      rw [hoperands] at hshapes
      obtain ⟨shape, rfl⟩ := List.length_eq_one_iff.mp hshapes
      exact ⟨_, rfl, rfl⟩
  | orderedAllReduce reduction pinned => exact ⟨_, rfl, rfl⟩
  | custom emitter? => exact hfits.elim

/-- The outputs of an ordered reduction are the positions after the collective. -/
theorem getElem?_results_ordered (reduction : Reduction) (pinned : Bool)
    (start outputs index : Nat) (handle : Handle) :
    (results (.orderedAllReduce reduction pinned) start outputs)[index]? = some handle ↔
      index < outputs ∧ handle = ⟨start + 1 + index⟩ := by
  rw [results, List.getElem?_map]
  by_cases hindex : index < outputs
  · rw [List.getElem?_range' hindex]
    simp [hindex, eq_comm]
  · rw [List.getElem?_eq_none (by simpa using hindex)]
    simp [hindex]

/-- One handle of a node tells where its block starts. -/
theorem start_eq_of_results {operation : Operation} {start start' outputs outputs' index : Nat}
    {handle : Handle} (hleft : (operation.results start outputs)[index]? = some handle)
    (hright : (operation.results start' outputs')[index]? = some handle) : start = start' := by
  cases operation with
  | orderedAllReduce reduction pinned =>
      obtain ⟨_, heq⟩ := (getElem?_results_ordered _ _ _ _ _ _).mp hleft
      obtain ⟨_, heq'⟩ := (getElem?_results_ordered _ _ _ _ _ _).mp hright
      have hposition := congrArg Handle.position (heq.symm.trans heq')
      simp only at hposition
      omega
  | _ =>
      obtain rfl := List.mem_singleton.mp (List.mem_of_getElem? hleft)
      have heq := List.mem_singleton.mp (List.mem_of_getElem? hright)
      exact congrArg Handle.position heq

end Operation

namespace Emission

/-- The operands have these handles, and the handles stand for values of these shapes. -/
structure Supplies (emission : Emission) (operands : List Value) (inputs : List Handle)
    (shapes : List Shape) : Prop where
  handles : List.Forall₂ (fun operand input => emission.handle? operand = some input)
    operands inputs
  shapes : List.Forall₂ (fun input shape => emission.trace.shape input = .ok shape) inputs shapes

/-- Appends the block of a node and records the handles of its outputs. -/
def place (emission : Emission) (id : NodeId) (operation : Operation) (node : Node)
    (inputs : List Handle) (shapes : List Shape) : Emission :=
  { emission with
    trace := emission.trace.append
      (operation.block node emission.trace.size emission.trace.parameters inputs shapes)
    : Emission }.assignFrom id 0 (operation.results emission.trace.size node.outputs)

end Emission

namespace EmitM

theorem handleOf_run {emission : Emission} {operand : Value} {input : Handle}
    (hinput : emission.handle? operand = some input) :
    handleOf operand emission = (.ok input, emission) := by
  rw [handleOf, hinput]

theorem tryEmit_run {α : Type} {step : Trace → Except Trace.UnknownHandle (α × Trace)}
    {emission : Emission} {result : α} {trace : Trace}
    (hstep : step emission.trace = .ok (result, trace)) :
    tryEmit step emission = (.ok result, { emission with trace }) := by
  rw [tryEmit, hstep]

theorem tryEmit_refused {α : Type} {step : Trace → Except Trace.UnknownHandle (α × Trace)}
    {emission : Emission} {refusal : Trace.UnknownHandle}
    (hstep : step emission.trace = .error refusal) :
    tryEmit step emission = (.error (.failure (.unknownHandle refusal)), emission) := by
  rw [tryEmit, hstep]

end EmitM

namespace Trace

theorem allReduce_eq {trace : Trace} {input : Handle} {shape : Shape} (reduction : Reduction)
    (hshape : trace.shape input = .ok shape) :
    trace.allReduce reduction input =
      .ok (⟨trace.size⟩, trace.append [⟨.allReduce reduction false, [input], shape⟩]) := by
  rw [allReduce, hshape]
  exact congrArg Except.ok (push_eq_append trace _ rfl)

theorem allReduceOrdered_eq {trace : Trace} {inputs : List Handle} {token : Handle}
    {shapes : List Shape} (reduction : Reduction) (pinned : Bool)
    (hshapes : (inputs ++ [token]).mapM trace.shape = .ok shapes) :
    trace.allReduceOrdered reduction inputs token pinned =
      .ok ((List.range' (trace.size + 1) shapes.length).map Handle.mk,
        trace.append (⟨.allReduce reduction pinned, inputs ++ [token], .tuple shapes⟩ ::
          projections ⟨trace.size⟩ 0 shapes)) := by
  simp only [allReduceOrdered, hshapes, bind, Except.bind]
  rw [push_eq_append _ _ rfl]
  simp only [pushElements_eq, size_append, List.length_singleton, append_append,
    List.singleton_append]
  rfl

theorem allReduce_refused {trace : Trace} {input : Handle} {refusal : UnknownHandle}
    (reduction : Reduction) (hshape : trace.shape input = .error refusal) :
    trace.allReduce reduction input = .error refusal := by
  rw [allReduce, hshape]
  rfl

theorem allReduceOrdered_refused {trace : Trace} {inputs : List Handle} {token : Handle}
    {refusal : UnknownHandle} (reduction : Reduction) (pinned : Bool)
    (hshapes : (inputs ++ [token]).mapM trace.shape = .error refusal) :
    trace.allReduceOrdered reduction inputs token pinned = .error refusal := by
  rw [allReduceOrdered, hshapes]
  rfl

end Trace

namespace Operation

/-- A reduction looks its operand up and goes on with the handle. -/
theorem emit_allReduce_eq {node : Node} {operand : Value} (hoperands : node.operands = [operand])
    {emission : Emission} {input : Handle} (hinput : emission.handle? operand = some input)
    (reduction : Reduction) (id : NodeId) :
    emit (.allReduce reduction) id node emission = (do
      let handle ← EmitM.allReduce reduction input
      EmitM.returnHandles id [handle] : EmitM (List Handle)) emission := by
  have hoperand : node.operand 0 = .ok operand := by simp [Node.operand, hoperands]
  rw [emit, hoperand, run_bind_ok (run_ofExcept _ _), run_bind_ok (EmitM.handleOf_run hinput)]

/-- An ordered reduction looks all operands up before it goes on; the last one is the token. -/
theorem emit_orderedAllReduce_eq {node : Node} {data : List Value} {token : Value}
    (hoperands : node.operands = data ++ [token]) {emission : Emission}
    {dataInputs : List Handle} {input : Handle}
    (hdata : List.Forall₂ (fun operand input => emission.handle? operand = some input)
      data dataInputs) (hinput : emission.handle? token = some input)
    (reduction : Reduction) (pinned : Bool) (id : NodeId) :
    emit (.orderedAllReduce reduction pinned) id node emission = (do
      let handles ← EmitM.allReduceOrdered reduction dataInputs input pinned
      EmitM.returnHandles id handles : EmitM (List Handle)) emission := by
  have hdataRun : node.operands.dropLast.mapM EmitM.handleOf emission =
      (.ok dataInputs, emission) := by
    rw [hoperands, List.dropLast_concat]
    exact run_mapM_of_forall₂ (hdata.imp fun _ _ => EmitM.handleOf_run)
  have htoken : node.operand (node.operands.length - 1) = .ok token := by
    simp [Node.operand, hoperands]
  rw [emit, run_bind_ok hdataRun, htoken, run_bind_ok (run_ofExcept _ _),
    run_bind_ok (EmitM.handleOf_run hinput)]

/-- With its operands at hand a built-in operation appends its block and records the handles of
its outputs. -/
theorem emit_run {operation : Operation} {node : Node} (hfits : operation.Fits node)
    (id : NodeId) {emission : Emission} {inputs : List Handle} {shapes : List Shape}
    (hsupplies : emission.Supplies node.operands inputs shapes) :
    operation.emit id node emission =
      (.ok (operation.results emission.trace.size node.outputs),
        emission.place id operation node inputs shapes) := by
  obtain ⟨hhandles, hshapes⟩ := hsupplies
  cases operation with
  | deviceData name => rfl
  | token => rfl
  | allReduce reduction =>
      obtain ⟨⟨operand, hoperands⟩, _⟩ := hfits
      rw [hoperands] at hhandles
      obtain ⟨input, _, hinput, hnil, rfl⟩ := List.forall₂_cons_left_iff.mp hhandles
      obtain rfl := List.forall₂_nil_left_iff.mp hnil
      obtain ⟨shape, _, hshape, hnil, rfl⟩ := List.forall₂_cons_left_iff.mp hshapes
      obtain rfl := List.forall₂_nil_left_iff.mp hnil
      rw [emit_allReduce_eq hoperands hinput, EmitM.allReduce,
        run_bind_ok (EmitM.tryEmit_run (Trace.allReduce_eq reduction hshape))]
      rfl
  | orderedAllReduce reduction pinned =>
      obtain ⟨data, token, hoperands, houtputs⟩ := hfits
      rw [hoperands] at hhandles
      obtain ⟨dataInputs, input, hdata, hinput, rfl⟩ :=
        (forall₂_concat_iff data token inputs).mp hhandles
      have hlength : shapes.length = node.outputs := by
        rw [← hshapes.length_eq, List.length_append, ← hdata.length_eq, houtputs]
        rfl
      -- the collective reads the data and then the token, in the order of the operands
      have hreduced := Trace.allReduceOrdered_eq reduction pinned
        ((mapM_eq_ok_iff _ _ _).mpr hshapes)
      rw [emit_orderedAllReduce_eq hoperands hdata hinput, EmitM.allReduceOrdered,
        run_bind_ok (EmitM.tryEmit_run hreduced), hlength]
      rfl
  | custom emitter? => exact hfits.elim

end Operation

end TensorGraph
