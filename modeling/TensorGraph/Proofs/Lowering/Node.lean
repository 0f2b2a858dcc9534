import TensorGraph.Lowering
import TensorGraph.Proofs.Effects
import TensorGraph.Proofs.Emission.Handles
import TensorGraph.Proofs.Graph.Order

/-! # What lowering a node can do

A node that was lowered before answers from what is recorded. Any other node has
its operands checked and is emitted, and counts as lowered if its operation
returned one handle per output.
-/

namespace TensorGraph.Lowering

open Effects

theorem isLowered_iff (lowering : Lowering) (id : NodeId) :
    lowering.isLowered id = true ↔ id ∈ lowering.lowered :=
  List.contains_iff_mem

theorem handleOf_of_some {lowering : Lowering} {value : Value} {handle : Handle}
    (hhandle : lowering.emission.handle? value = some handle) :
    handleOf value lowering = (.ok handle, lowering) := by
  simp only [handleOf, runEmission, EmitM.handleOf, hhandle]

theorem handleOf_of_none {lowering : Lowering} {value : Value}
    (hhandle : lowering.emission.handle? value = none) :
    handleOf value lowering = (.error (.failure (.valueNotLowered value)), lowering) := by
  simp only [handleOf, runEmission, EmitM.handleOf, hhandle]

theorem handleOf_eq_ok_iff (lowering after : Lowering) (value : Value) (handle : Handle) :
    handleOf value lowering = (.ok handle, after) ↔
      lowering.emission.handle? value = some handle ∧ after = lowering := by
  constructor
  · intro hresult
    cases hhandle : lowering.emission.handle? value with
    | none =>
        rw [handleOf_of_none hhandle] at hresult
        cases hresult
    | some found =>
        rw [handleOf_of_some hhandle] at hresult
        cases hresult
        exact ⟨rfl, rfl⟩
  · rintro ⟨hhandle, rfl⟩
    exact handleOf_of_some hhandle

theorem handleOf_state (lowering : Lowering) (value : Value) :
    (handleOf value lowering).2 = lowering := by
  cases hhandle : lowering.emission.handle? value with
  | none => rw [handleOf_of_none hhandle]
  | some handle => rw [handleOf_of_some hhandle]

theorem recorded_of_some {lowering : Lowering} {id : NodeId} {index : Nat} {handle : Handle}
    (hhandle : lowering.emission.handle? ⟨id, index⟩ = some handle) :
    recorded id index lowering = (.ok handle, lowering) := by
  rw [recorded, run_bind_ok (run_get lowering), hhandle]
  rfl

theorem recorded_of_none {lowering : Lowering} {id : NodeId} {index : Nat}
    (hhandle : lowering.emission.handle? ⟨id, index⟩ = none) :
    recorded id index lowering = (.error (.failure (.handleMissing id index)), lowering) := by
  rw [recorded, run_bind_ok (run_get lowering), hhandle]
  rfl

theorem recorded_state (lowering : Lowering) (id : NodeId) (index : Nat) :
    (recorded id index lowering).2 = lowering := by
  cases hhandle : lowering.emission.handle? ⟨id, index⟩ with
  | none => rw [recorded_of_none hhandle]
  | some handle => rw [recorded_of_some hhandle]

/-- Asking for all recorded handles leaves the state alone. -/
theorem mapM_recorded_run (lowering : Lowering) (id : NodeId) (indices : List Nat) :
    indices.mapM (recorded id) lowering = ((indices.mapM (recorded id) lowering).1, lowering) :=
  Prod.ext rfl (run_mapM_state (recorded_state lowering id) indices)

/-- The first operand without a handle is refused. -/
theorem checkOperands_of_missing {lowering : Lowering} {node : Node} {operand : Value}
    (hfind : node.operands.find? (fun operand =>
      (lowering.emission.handle? operand).isNone) = some operand) (id : NodeId) :
    checkOperands id node lowering =
      (.error (.failure (.operandNotLowered operand id)), lowering) := by
  rw [checkOperands, run_bind_ok (run_get lowering), hfind]
  rfl

theorem checkOperands_of_present {lowering : Lowering} {node : Node}
    (hoperands : ∀ operand ∈ node.operands, lowering.emission.handle? operand ≠ none)
    (id : NodeId) : checkOperands id node lowering = (.ok (), lowering) := by
  have hfind : node.operands.find? (fun operand =>
      (lowering.emission.handle? operand).isNone) = none := by
    rw [List.find?_eq_none]
    intro operand hmem hnone
    exact hoperands operand hmem (Option.isNone_iff_eq_none.mp hnone)
  rw [checkOperands, run_bind_ok (run_get lowering), hfind]
  rfl

section Run

variable {graph : Graph} {id : NodeId} {entry : Entry} {lowering : Lowering}

theorem entryAt_of_some (hentry : graph.entryAt? id = some entry) :
    graph.entryAt id = .ok entry := by
  rw [Graph.entryAt, hentry]

theorem emitNode_run (hentry : graph.entryAt? id = some entry) :
    emitNode graph id lowering =
      ((entry.operation.emit id entry.node lowering.emission).1,
        { lowering with
          emission := (entry.operation.emit id entry.node lowering.emission).2 }) := by
  rw [emitNode, entryAt_of_some hentry, run_bind_ok (run_ofExcept _ _)]
  rfl

theorem lowerNode_of_mem (hentry : graph.entryAt? id = some entry)
    (hlowered : id ∈ lowering.lowered) :
    lowerNode graph id lowering =
      (((List.range entry.node.outputs).mapM (recorded id) lowering).1, lowering) := by
  rw [lowerNode, entryAt_of_some hentry, run_bind_ok (run_ofExcept _ _),
    run_bind_ok (run_get lowering), if_pos ((lowering.isLowered_iff id).mpr hlowered)]
  exact mapM_recorded_run lowering id _

/-- A node that was lowered answers exactly if all its outputs have handles, with these. -/
theorem lowerNode_eq_ok_iff_of_mem (hentry : graph.entryAt? id = some entry)
    (hlowered : id ∈ lowering.lowered) (handles : List Handle) :
    lowerNode graph id lowering = (.ok handles, lowering) ↔
      lowering.emission.Records id entry.node.outputs handles := by
  have hrecorded : ∀ index handle, (recorded id index lowering).1 = .ok handle ↔
      lowering.emission.handle? ⟨id, index⟩ = some handle := by
    intro index handle
    cases hhandle : lowering.emission.handle? ⟨id, index⟩ with
    | none => simp [recorded_of_none hhandle]
    | some found => simp [recorded_of_some hhandle]
  rw [lowerNode_of_mem hentry hlowered, Prod.mk.injEq, and_iff_left rfl,
    run_mapM_eq_ok_iff (recorded_state lowering id), Emission.Records]
  simp only [hrecorded]

theorem lowerNode_of_not_mem (hentry : graph.entryAt? id = some entry)
    (hlowered : id ∉ lowering.lowered) :
    lowerNode graph id lowering = (do
      checkOperands id entry.node
      let handles ← ExceptT.adapt (Fault.within (.inLowering id)) (emitNode graph id)
      if handles.length = entry.node.outputs then
        complete id
        return handles
      else
        throw (.failure (.handleCount id handles.length)) : LowerM (List Handle)) lowering := by
  have hunlowered : ¬ lowering.isLowered id = true := fun h =>
    hlowered ((lowering.isLowered_iff id).mp h)
  rw [lowerNode, entryAt_of_some hentry, run_bind_ok (run_ofExcept _ _),
    run_bind_ok (run_get lowering), if_neg hunlowered]

/-- A new node with an operand that has no handle is refused. -/
theorem lowerNode_of_missing (hentry : graph.entryAt? id = some entry)
    (hlowered : id ∉ lowering.lowered) {operand : Value} (hoperand : operand ∈ entry.node.operands)
    (hnone : lowering.emission.handle? operand = none) :
    ∃ missing ∈ entry.node.operands, lowerNode graph id lowering =
      (.error (.failure (.operandNotLowered missing id)), lowering) := by
  cases hfind : entry.node.operands.find? fun operand =>
      (lowering.emission.handle? operand).isNone with
  | none =>
      have hpresent := List.find?_eq_none.mp hfind operand hoperand
      exact absurd (Option.isNone_iff_eq_none.mpr hnone) hpresent
  | some missing =>
      refine ⟨missing, List.mem_of_find?_eq_some hfind, ?_⟩
      rw [lowerNode_of_not_mem hentry hlowered]
      exact run_bind_error (checkOperands_of_missing hfind id) _

/-- A new node whose operation returns one handle per output is lowered. -/
theorem lowerNode_of_emit (hentry : graph.entryAt? id = some entry)
    (hlowered : id ∉ lowering.lowered)
    (hoperands : ∀ operand ∈ entry.node.operands, lowering.emission.handle? operand ≠ none)
    {handles : List Handle} {emission : Emission}
    (hemit : entry.operation.emit id entry.node lowering.emission = (.ok handles, emission))
    (hcount : handles.length = entry.node.outputs) :
    lowerNode graph id lowering =
      (.ok handles, { emission, lowered := id :: lowering.lowered }) := by
  rw [lowerNode_of_not_mem hentry hlowered,
    run_bind_ok (checkOperands_of_present hoperands id),
    run_bind_ok (by rw [run_adapt, emitNode_run hentry, hemit]; rfl), if_pos hcount]
  rfl

/-- A new node whose operation fails is not lowered. -/
theorem lowerNode_of_emit_error (hentry : graph.entryAt? id = some entry)
    (hlowered : id ∉ lowering.lowered)
    (hoperands : ∀ operand ∈ entry.node.operands, lowering.emission.handle? operand ≠ none)
    {fault : Fault} {emission : Emission}
    (hemit : entry.operation.emit id entry.node lowering.emission = (.error fault, emission)) :
    lowerNode graph id lowering =
      (.error (fault.within (.inLowering id)), { lowering with emission }) := by
  rw [lowerNode_of_not_mem hentry hlowered,
    run_bind_ok (checkOperands_of_present hoperands id)]
  exact run_bind_error (by rw [run_adapt, emitNode_run hentry, hemit]; rfl) _

end Run

end TensorGraph.Lowering
