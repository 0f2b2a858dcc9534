import TensorGraph.Operation
import TensorGraph.Proofs.Effects
import TensorGraph.Proofs.Emission.Handles

/-! # What operations record

An operation that is defined elsewhere may record any handle for any value. Most
record handles at the end, as the outputs of their own node; so do all built-in
operations.
-/

namespace TensorGraph

open Effects

namespace EmitM

/-- The computation records handles for outputs of the node only, and if it succeeds these are the
handles that it returns. -/
structure Returns (id : NodeId) (step : EmitM (List Handle)) : Prop where
  returned : ∀ emission handles after, step emission = (.ok handles, after) →
    ∀ value, after.handle? value = (emission.assignFrom id 0 handles).handle? value
  own : ∀ emission fault after, step emission = (.error fault, after) →
    ∀ value, value.node ≠ id → after.handle? value = emission.handle? value

/-- The computation records the handles that it returns as the outputs of the node, and if it
fails it records nothing. -/
structure Registers (id : NodeId) (step : EmitM (List Handle)) : Prop where
  returned : ∀ emission handles after, step emission = (.ok handles, after) →
    ∀ value, after.handle? value = (emission.assignFrom id 0 handles).handle? value
  nothing : ∀ emission fault after, step emission = (.error fault, after) →
    ∀ value, after.handle? value = emission.handle? value

/-- The computation records nothing. -/
def Quiet {α : Type} (step : EmitM α) : Prop :=
  ∀ emission value, (step emission).2.handle? value = emission.handle? value

theorem Registers.returns {id : NodeId} {step : EmitM (List Handle)}
    (hregisters : step.Registers id) : step.Returns id where
  returned := hregisters.returned
  own := fun emission fault after hstep value _ =>
    hregisters.nothing emission fault after hstep value

/-- Nothing changes for other nodes. -/
theorem Returns.handle?_of_node_ne {id : NodeId} {step : EmitM (List Handle)}
    (hreturns : step.Returns id) {emission after : Emission} {result : Except Fault (List Handle)}
    (hstep : step emission = (result, after)) {value : Value} (hnode : value.node ≠ id) :
    after.handle? value = emission.handle? value := by
  cases result with
  | error fault => exact hreturns.own emission fault after hstep value hnode
  | ok handles =>
      rw [hreturns.returned emission handles after hstep value]
      exact Emission.handle?_assignFrom_of_node_ne emission hnode 0 handles

section Quiet

variable {α β : Type}

theorem quiet_pure (value : α) : Quiet (pure value) := fun _ _ => rfl

theorem quiet_ofExcept (result : Except Fault α) : Quiet (ofExcept result) := by
  intro emission value
  rw [run_ofExcept]

theorem quiet_emit (step : Trace → α × Trace) : Quiet (emit step) := fun _ _ => rfl

theorem quiet_tryEmit (step : Trace → Except Trace.UnknownHandle (α × Trace)) :
    Quiet (tryEmit step) := by
  intro emission value
  unfold tryEmit
  split <;> rfl

theorem quiet_handleOf (value : Value) : Quiet (handleOf value) := by
  intro emission other
  unfold handleOf
  split <;> rfl

theorem Quiet.bind {first : EmitM α} {next : α → EmitM β} (hfirst : first.Quiet)
    (hnext : ∀ value, (next value).Quiet) : Quiet (first >>= next) := by
  intro emission value
  exact run_bind_preserves (fun after => after.handle? value = emission.handle? value)
    (fun after hafter => (hfirst after value).trans hafter)
    (fun result after hafter => (hnext result after value).trans hafter) emission rfl

theorem quiet_mapM {step : α → EmitM β} (hstep : ∀ item, (step item).Quiet) (items : List α) :
    Quiet (items.mapM step) := by
  induction items with
  | nil => exact quiet_pure []
  | cons item items ih =>
      rw [List.mapM_cons]
      exact (hstep item).bind fun _ => ih.bind fun _ => quiet_pure _

end Quiet

theorem registers_throw (id : NodeId) (fault : Fault) : Registers id (throw fault) where
  returned := by
    intro emission handles after hstep
    cases hstep
  nothing := by
    intro emission other after hstep
    cases hstep
    exact fun _ => rfl

theorem registers_returnHandles (id : NodeId) (handles : List Handle) :
    Registers id (returnHandles id handles) where
  returned := by
    intro emission returned after hstep
    cases hstep
    exact fun _ => rfl
  nothing := by
    intro emission fault after hstep
    cases hstep

/-- What is recorded at the end does not depend on quiet steps before it. -/
theorem Quiet.registers {α : Type} {id : NodeId} {first : EmitM α} {next : α → EmitM (List Handle)}
    (hfirst : first.Quiet) (hnext : ∀ value, (next value).Registers id) :
    Registers id (first >>= next) where
  returned := by
    intro emission handles after hstep value
    have hquiet := hfirst emission
    rcases hrun : first emission with ⟨fault | result, middle⟩ <;> rw [hrun] at hquiet
    · rw [run_bind_error hrun] at hstep
      cases hstep
    · rw [run_bind_ok hrun] at hstep
      rw [(hnext result).returned middle handles after hstep value]
      exact Emission.handle?_assignFrom_congr hquiet id 0 handles value
  nothing := by
    intro emission fault after hstep value
    have hquiet := hfirst emission
    rcases hrun : first emission with ⟨other | result, middle⟩ <;> rw [hrun] at hquiet
    · rw [run_bind_error hrun] at hstep
      cases hstep
      exact hquiet value
    · rw [run_bind_ok hrun] at hstep
      rw [(hnext result).nothing middle fault after hstep value]
      exact hquiet value

end EmitM

namespace Operation

/-- A built-in operation registers what it returns. -/
theorem registers_of_form {operation : Operation} (hform : operation.form?.isSome) (id : NodeId)
    (node : Node) : (operation.emit id node).Registers id := by
  cases operation with
  | deviceData name =>
      exact (EmitM.quiet_emit _).registers fun _ => EmitM.registers_returnHandles id _
  | token => exact (EmitM.quiet_emit _).registers fun _ => EmitM.registers_returnHandles id _
  | allReduce reduction =>
      refine (EmitM.quiet_ofExcept _).registers fun operand => ?_
      refine (EmitM.quiet_handleOf operand).registers fun input => ?_
      exact (EmitM.quiet_tryEmit _).registers fun _ => EmitM.registers_returnHandles id _
  | orderedAllReduce reduction pinned =>
      refine (EmitM.quiet_mapM EmitM.quiet_handleOf _).registers fun inputs => ?_
      refine (EmitM.quiet_ofExcept _).registers fun operand => ?_
      refine (EmitM.quiet_handleOf operand).registers fun token => ?_
      exact (EmitM.quiet_tryEmit _).registers fun _ => EmitM.registers_returnHandles id _
  | custom emitter? => cases hform

/-- A recipe that does not keep its handles to itself registers what it returns. -/
theorem registers_recipe {recipe : Recipe} (hregisters : recipe.registers = true) (id : NodeId)
    (node : Node) : ((custom (some recipe.lower)).emit id node).Registers id := by
  refine (EmitM.quiet_mapM (fun _ => EmitM.quiet_emit _) _).registers fun tokens => ?_
  refine (EmitM.quiet_mapM (fun _ => EmitM.quiet_emit _) _).registers fun parameters => ?_
  refine (EmitM.quiet_mapM (fun index => ?_) _).registers fun forwarded => ?_
  · exact (EmitM.quiet_ofExcept _).bind EmitM.quiet_handleOf
  · refine (EmitM.quiet_mapM (fun _ => EmitM.quiet_tryEmit _) _).registers fun sums => ?_
    rw [hregisters]
    cases recipe.failure? with
    | some text => exact EmitM.registers_throw id _
    | none => exact EmitM.registers_returnHandles id _

end Operation

end TensorGraph
