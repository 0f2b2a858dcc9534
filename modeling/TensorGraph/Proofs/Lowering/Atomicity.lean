import TensorGraph.Proofs.Lowering.Placement

/-! # Lowering a built-in node is all or nothing

Outputs may be bound from outside to handles that were never emitted, or only some
outputs of a node, so nothing can be assumed of the state in which a node is
lowered. Still a built-in node is refused before anything is written: its operands
are looked up first, then the trace checks their handles, and only then it grows.
-/

namespace TensorGraph

open Effects ListRelations

namespace Operation

variable {operation : Operation} {node : Node} {emission : Emission} {inputs : List Handle}

/-- A handle that the trace does not know is refused before anything is emitted. -/
theorem emit_refused (hfits : operation.Fits node) (id : NodeId)
    (hhandles : List.Forall₂ (fun operand input => emission.handle? operand = some input)
      node.operands inputs) {refusal : Trace.UnknownHandle}
    (hshapes : inputs.mapM emission.trace.shape = .error refusal) :
    operation.emit id node emission = (.error (.failure (.unknownHandle refusal)), emission) := by
  cases operation with
  | deviceData name =>
      rw [hfits.1] at hhandles
      obtain rfl := List.forall₂_nil_left_iff.mp hhandles
      cases hshapes
  | token =>
      rw [hfits.1] at hhandles
      obtain rfl := List.forall₂_nil_left_iff.mp hhandles
      cases hshapes
  | allReduce reduction =>
      obtain ⟨⟨operand, hoperands⟩, _⟩ := hfits
      rw [hoperands] at hhandles
      obtain ⟨input, _, hinput, hnil, rfl⟩ := List.forall₂_cons_left_iff.mp hhandles
      obtain rfl := List.forall₂_nil_left_iff.mp hnil
      have hshape := mapM_singleton_eq_error hshapes
      rw [emit_allReduce_eq hoperands hinput]
      exact run_bind_error (EmitM.tryEmit_refused (Trace.allReduce_refused reduction hshape)) _
  | orderedAllReduce reduction pinned =>
      obtain ⟨data, token, hoperands, _⟩ := hfits
      rw [hoperands] at hhandles
      obtain ⟨dataInputs, input, hdata, hinput, rfl⟩ :=
        (forall₂_concat_iff data token inputs).mp hhandles
      rw [emit_orderedAllReduce_eq hoperands hdata hinput]
      exact run_bind_error (EmitM.tryEmit_refused
        (Trace.allReduceOrdered_refused reduction pinned hshapes)) _
  | custom emitter? => exact hfits.elim

end Operation

namespace Emission

variable {emission : Emission} {operands : List Value} {inputs : List Handle}

/-- Handles either all stand for values of some shapes, or one that does not is refused. -/
theorem supplies_or_refused
    (hhandles : List.Forall₂ (fun operand input => emission.handle? operand = some input)
      operands inputs) :
    (∃ shapes, emission.Supplies operands inputs shapes) ∨
      ∃ refusal, inputs.mapM emission.trace.shape = .error refusal := by
  cases hshapes : inputs.mapM emission.trace.shape with
  | error refusal => exact Or.inr ⟨refusal, rfl⟩
  | ok shapes => exact Or.inl ⟨shapes, hhandles, (mapM_eq_ok_iff _ _ _).mp hshapes⟩

theorem Supplies.handle?_ne_none {shapes : List Shape}
    (hsupplies : emission.Supplies operands inputs shapes) :
    ∀ operand ∈ operands, emission.handle? operand ≠ none := by
  intro operand hmem
  obtain ⟨position, hposition⟩ := List.getElem?_of_mem hmem
  obtain ⟨input, _, hinput⟩ := forall₂_getElem? hsupplies.handles hposition
  simp [hinput]

/-- Placing a node binds no outputs but its own. -/
theorem handle?_place_of_outputs_le {operation : Operation} {node : Node}
    (hfits : operation.Fits node) (id : NodeId) (shapes : List Shape) {index : Nat}
    (hindex : node.outputs ≤ index) :
    (emission.place id operation node inputs shapes).handle? ⟨id, index⟩ =
      emission.handle? ⟨id, index⟩ := by
  have hself := handle?_assignFrom_self
    { emission with
      trace := emission.trace.append
        (operation.block node emission.trace.size emission.trace.parameters inputs shapes) }
    id 0 index (operation.results emission.trace.size node.outputs)
  rw [List.getElem?_eq_none (by rw [Operation.length_results hfits]; exact hindex), Nat.zero_add,
    Option.none_or] at hself
  exact hself

end Emission

namespace Lowering

/-- The later state has one more node: the trace has grown by the instructions of the node over
handles of its operands, its outputs and no other values are bound to the given handles, and it
counts as lowered. -/
structure Gains (later earlier : Lowering) (id : NodeId) (entry : Entry) (handles : List Handle) :
    Prop where
  trace : ∃ inputs shapes,
    earlier.emission.Supplies entry.node.operands inputs shapes ∧
      later.emission.trace = earlier.emission.trace.append
        (entry.operation.block entry.node earlier.emission.trace.size
          earlier.emission.trace.parameters inputs shapes)
  outputs : later.emission.Records id entry.node.outputs handles
  others : ∀ value, value.node ≠ id ∨ entry.node.outputs ≤ value.index →
    later.emission.handle? value = earlier.emission.handle? value
  lowered : later.lowered = id :: earlier.lowered

section Node

variable {graph : Graph} {id : NodeId} {entry : Entry} {lowering : Lowering}

theorem gains_place (hfits : entry.operation.Fits entry.node) {inputs : List Handle}
    {shapes : List Shape}
    (hsupplies : lowering.emission.Supplies entry.node.operands inputs shapes) :
    Gains
      { emission := lowering.emission.place id entry.operation entry.node inputs shapes
        lowered := id :: lowering.lowered } lowering id entry
      (entry.operation.results lowering.emission.trace.size entry.node.outputs) where
  trace := ⟨inputs, shapes, hsupplies, Emission.trace_place⟩
  outputs := Emission.records_place hfits
  others := by
    rintro ⟨producer, index⟩ hvalue
    by_cases hnode : producer = id
    · subst hnode
      apply Emission.handle?_place_of_outputs_le hfits
      exact hvalue.resolve_left fun hne => hne rfl
    · exact Emission.handle?_place_of_ne hnode
  lowered := rfl

/-- A new built-in node is lowered if its operands have handles that the trace knows. -/
theorem lowerNode_of_supplies (hentry : graph.entryAt? id = some entry)
    (hfits : entry.operation.Fits entry.node) (hnew : id ∉ lowering.lowered) {inputs : List Handle}
    {shapes : List Shape}
    (hsupplies : lowering.emission.Supplies entry.node.operands inputs shapes) :
    ∃ handles after, lowerNode graph id lowering = (.ok handles, after) ∧
      after.Gains lowering id entry handles := by
  refine ⟨_, _, ?_, gains_place hfits hsupplies⟩
  exact lowerNode_of_emit hentry hnew hsupplies.handle?_ne_none
    (Operation.emit_run hfits id hsupplies) (Operation.length_results hfits _)

/-- Otherwise it is refused without a change: by the driver if an operand has no handle, and by the
trace if it does not know a handle. -/
theorem lowerNode_of_unsupplied (hentry : graph.entryAt? id = some entry)
    (hfits : entry.operation.Fits entry.node) (hnew : id ∉ lowering.lowered)
    (hunsupplied : ¬ ∃ inputs shapes,
      lowering.emission.Supplies entry.node.operands inputs shapes) :
    ∃ fault, lowerNode graph id lowering = (.error fault, lowering) := by
  by_cases hoperands : ∀ operand ∈ entry.node.operands, lowering.emission.handle? operand ≠ none
  · obtain ⟨inputs, hhandles⟩ := exists_forall₂ fun operand hmem =>
      Option.ne_none_iff_exists'.mp (hoperands operand hmem)
    rcases Emission.supplies_or_refused hhandles with hsupplies | ⟨refusal, hshapes⟩
    · exact absurd ⟨inputs, hsupplies⟩ hunsupplied
    · exact ⟨_, lowerNode_of_emit_error hentry hnew hoperands
        (Operation.emit_refused hfits id hhandles hshapes)⟩
  · simp only [not_forall, not_not] at hoperands
    obtain ⟨operand, hmem, hnone⟩ := hoperands
    obtain ⟨missing, _, hrefused⟩ := lowerNode_of_missing hentry hnew hmem hnone
    exact ⟨_, hrefused⟩

/-- In any state, however inconsistent, lowering a built-in node is atomic. A fault leaves the whole
state as it was, and so does a node that was lowered before. A new node is lowered exactly if its
operands have handles that the trace knows, and then the state gains this node and nothing else. -/
theorem lowerNode_atomic (hentry : graph.entryAt? id = some entry) {request : Request}
    (hrequest : request.IsBuiltIn) (hmade : entry.MadeFrom request) (lowering : Lowering) :
    (∀ fault after, lowerNode graph id lowering = (.error fault, after) → after = lowering) ∧
      (id ∈ lowering.lowered → (lowerNode graph id lowering).2 = lowering) ∧
      (id ∉ lowering.lowered →
        (∀ handles after, lowerNode graph id lowering = (.ok handles, after) →
          after.Gains lowering id entry handles) ∧
        ((∃ handles after, lowerNode graph id lowering = (.ok handles, after)) ↔
          ∃ inputs shapes, lowering.emission.Supplies entry.node.operands inputs shapes)) := by
  have hfits := hmade.fits hrequest
  by_cases hlowered : id ∈ lowering.lowered
  · have hsame : (lowerNode graph id lowering).2 = lowering := by
      rw [lowerNode_of_mem hentry hlowered]
    refine ⟨fun fault after hfault => ?_, fun _ => hsame, fun hnew => absurd hlowered hnew⟩
    rw [← hsame, hfault]
  · by_cases hsupplied : ∃ inputs shapes,
        lowering.emission.Supplies entry.node.operands inputs shapes
    · obtain ⟨inputs, shapes, hsupplies⟩ := hsupplied
      obtain ⟨handles, later, hrun, hgains⟩ :=
        lowerNode_of_supplies hentry hfits hlowered hsupplies
      rw [hrun]
      refine ⟨?_, fun hmem => absurd hmem hlowered, fun _ => ⟨?_, ?_⟩⟩
      · rintro _ _ ⟨⟩
      · rintro _ _ ⟨⟩
        exact hgains
      · exact iff_of_true ⟨handles, later, rfl⟩ ⟨inputs, shapes, hsupplies⟩
    · obtain ⟨fault, hrun⟩ := lowerNode_of_unsupplied hentry hfits hlowered hsupplied
      rw [hrun]
      refine ⟨?_, fun hmem => absurd hmem hlowered, fun _ => ⟨?_, ?_⟩⟩
      · rintro _ _ ⟨⟩
        rfl
      · rintro _ _ ⟨⟩
      · apply iff_of_false _ hsupplied
        rintro ⟨_, _, ⟨⟩⟩

/-- An operand is bound to a handle that was never emitted, and one output of the reduction is bound
before it is lowered. The reduction is refused until the operand is lowered itself. -/
theorem lowerNode_atomic_dangling :
    let input := ((BuiltInNode.deviceData "x" (.scalar .float32)).build { cache := ⟨1, []⟩ }).2
    let ordering := (BuiltInNode.token.build input).2
    let workspace := ((BuiltInNode.orderedAllReduce ⟨.sum, .one, []⟩ [⟨0, 0⟩] ⟨1, 0⟩ true).build
      ordering).2
    let dangling := assign ⟨2, 1⟩ ⟨0⟩ (assign ⟨0, 0⟩ ⟨7⟩ (lowerNode workspace.graph 1 {}).2)
    let repaired := (lowerNode workspace.graph 0 dangling).2
    (∃ fault, lowerNode workspace.graph 2 dangling = (.error fault, dangling)) ∧
      ∃ entry after, workspace.graph.entryAt? 2 = some entry ∧
        lowerNode workspace.graph 2 repaired = (.ok [⟨3⟩, ⟨4⟩], after) ∧
        after.Gains repaired 2 entry [⟨3⟩, ⟨4⟩] := by
  intro input ordering workspace dangling repaired
  have hworkspace : workspace.BuiltIn :=
    ((Workspace.BuiltIn.step (.empty _) (.build _ (by decide))).step
      (.build _ (by decide))).step (.build _ (by decide))
  have hsize : 2 < workspace.graph.size := by decide +kernel
  obtain ⟨entry, hentry⟩ := Graph.exists_entryAt? hsize
  obtain ⟨request, hrequest, hmade⟩ := hworkspace.graph.made 2 entry hentry
  have hrefused : (lowerNode workspace.graph 2 dangling).1.toOption = none := by decide +kernel
  have hlowered : (lowerNode workspace.graph 2 repaired).1.toOption = some [⟨3⟩, ⟨4⟩] := by
    decide +kernel
  have hnew : 2 ∉ repaired.lowered := by decide +kernel
  constructor
  · obtain ⟨hsame, _⟩ := lowerNode_atomic hentry hrequest hmade dangling
    rcases hrun : lowerNode workspace.graph 2 dangling with ⟨fault | handles, after⟩
    · rw [hsame fault after hrun]
      exact ⟨fault, rfl⟩
    · rw [hrun] at hrefused
      cases hrefused
  · obtain ⟨_, _, hgains⟩ := lowerNode_atomic hentry hrequest hmade repaired
    rcases hrun : lowerNode workspace.graph 2 repaired with ⟨fault | handles, after⟩
    · rw [hrun] at hlowered
      cases hlowered
    · rw [hrun] at hlowered
      obtain rfl := Option.some.inj hlowered
      exact ⟨entry, after, hentry, rfl, (hgains hnew).1 _ after hrun⟩

end Node

end Lowering

end TensorGraph
