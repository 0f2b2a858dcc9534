import TensorGraph.Proofs.Emission.Block

/-! # Growing emissions

Emitting appends to the trace and records handles of new nodes. What the trace
holds and what was recorded before stays, and with it the place of every node.
-/

namespace TensorGraph

open Effects ListRelations

namespace Trace

/-- The block stands in the trace from the given position on. -/
def Holds (trace : Trace) (start : Nat) (block : List Instruction) : Prop :=
  ∀ (offset : Nat) (instruction : Instruction), block[offset]? = some instruction →
    trace.instructions[start + offset]? = some instruction

/-- The instructions of the earlier trace are still there. -/
def Extends (later earlier : Trace) : Prop :=
  ∀ (position : Nat) (instruction : Instruction),
    earlier.instructions[position]? = some instruction →
      later.instructions[position]? = some instruction

theorem extends_append (trace : Trace) (block : List Instruction) :
    (trace.append block).Extends trace := by
  intro position instruction hinstruction
  obtain ⟨hposition, _⟩ := Array.getElem?_eq_some_iff.mp hinstruction
  rw [append, Array.getElem?_append_left hposition]
  exact hinstruction

theorem holds_append (trace : Trace) (block : List Instruction) :
    (trace.append block).Holds trace.size block := by
  intro offset instruction hinstruction
  simp only [append, size]
  rw [Array.getElem?_append_right (Nat.le_add_right _ _), Nat.add_sub_cancel_left,
    List.getElem?_toArray]
  exact hinstruction

theorem shape_eq_ok_iff (trace : Trace) (handle : Handle) (shape : Shape) :
    trace.shape handle = .ok shape ↔
      ∃ instruction, trace.instructions[handle.position]? = some instruction ∧
        instruction.shape = shape := by
  unfold Trace.shape Trace.instruction
  cases trace.instructions[handle.position]? with
  | none => simp [Functor.map, Except.map]
  | some instruction => simp [Functor.map, Except.map]

theorem lt_size_of_shape {trace : Trace} {handle : Handle} {shape : Shape}
    (hshape : trace.shape handle = .ok shape) : handle.position < trace.size := by
  obtain ⟨instruction, hinstruction, _⟩ := (trace.shape_eq_ok_iff handle shape).mp hshape
  exact (Array.getElem?_eq_some_iff.mp hinstruction).1

theorem exists_shape {trace : Trace} {handle : Handle} (hlt : handle.position < trace.size) :
    ∃ shape, trace.shape handle = .ok shape :=
  ⟨_, (trace.shape_eq_ok_iff handle _).mpr ⟨_, Array.getElem?_eq_getElem hlt, rfl⟩⟩

namespace Extends

theorem refl (trace : Trace) : trace.Extends trace := fun _ _ hinstruction => hinstruction

theorem size_le {later earlier : Trace} (hextends : later.Extends earlier) :
    earlier.size ≤ later.size := by
  apply Nat.le_of_not_lt
  intro hlt
  have hknown := hextends later.size _ (Array.getElem?_eq_getElem hlt)
  exact Nat.lt_irrefl _ (Array.getElem?_eq_some_iff.mp hknown).1

theorem trans {first second third : Trace} (hlater : third.Extends second)
    (hearlier : second.Extends first) : third.Extends first :=
  fun position _ hinstruction => hlater position _ (hearlier position _ hinstruction)

theorem holds {later earlier : Trace} (hextends : later.Extends earlier) {start : Nat}
    {block : List Instruction} (hholds : earlier.Holds start block) : later.Holds start block :=
  fun offset instruction hinstruction => hextends _ _ (hholds offset instruction hinstruction)

theorem shape {later earlier : Trace} (hextends : later.Extends earlier) {handle : Handle}
    {shape : Shape} (hshape : earlier.shape handle = .ok shape) :
    later.shape handle = .ok shape := by
  obtain ⟨instruction, hinstruction, heq⟩ := (earlier.shape_eq_ok_iff handle shape).mp hshape
  exact (later.shape_eq_ok_iff handle shape).mpr ⟨instruction, hextends _ _ hinstruction, heq⟩

end Extends

end Trace

namespace Emission

/-- Nothing that was emitted or recorded is lost. -/
structure Extends (later earlier : Emission) : Prop where
  trace : later.trace.Extends earlier.trace
  handles : ∀ value handle, earlier.handle? value = some handle →
    later.handle? value = some handle

/-- Every recorded handle was emitted. -/
def Emitted (emission : Emission) : Prop :=
  ∀ value handle, emission.handle? value = some handle → handle.position < emission.trace.size

/-- The node is in the trace: its block stands at `start`, over handles of its operands emitted
before, and its outputs have the handles of the block. -/
structure Placed (emission : Emission) (id : NodeId) (operation : Operation) (node : Node)
    (start number : Nat) (inputs : List Handle) (shapes : List Shape) : Prop where
  supplies : emission.Supplies node.operands inputs shapes
  before : ∀ input ∈ inputs, input.position < start
  block : emission.trace.Holds start (operation.block node start number inputs shapes)
  records : emission.Records id node.outputs (operation.results start node.outputs)

namespace Extends

theorem refl (emission : Emission) : emission.Extends emission :=
  ⟨fun _ _ h => h, fun _ _ h => h⟩

theorem trans {first second third : Emission} (hlater : third.Extends second)
    (hearlier : second.Extends first) : third.Extends first :=
  ⟨hlater.trace.trans hearlier.trace,
    fun value _ hhandle => hlater.handles value _ (hearlier.handles value _ hhandle)⟩

theorem supplies {later earlier : Emission} (hextends : later.Extends earlier)
    {operands : List Value} {inputs : List Handle} {shapes : List Shape}
    (hsupplies : earlier.Supplies operands inputs shapes) :
    later.Supplies operands inputs shapes :=
  ⟨hsupplies.handles.imp fun _ _ => hextends.handles _ _,
    hsupplies.shapes.imp fun _ _ => hextends.trace.shape⟩

theorem records {later earlier : Emission} (hextends : later.Extends earlier) {id : NodeId}
    {outputs : Nat} {handles : List Handle} (hrecords : earlier.Records id outputs handles) :
    later.Records id outputs handles :=
  List.Forall₂.imp (fun _ _ => hextends.handles _ _) hrecords

theorem placed {later earlier : Emission} (hextends : later.Extends earlier) {id : NodeId}
    {operation : Operation} {node : Node} {start number : Nat} {inputs : List Handle}
    {shapes : List Shape}
    (hplaced : earlier.Placed id operation node start number inputs shapes) :
    later.Placed id operation node start number inputs shapes where
  supplies := hextends.supplies hplaced.supplies
  before := hplaced.before
  block := hextends.trace.holds hplaced.block
  records := hextends.records hplaced.records

end Extends

/-- Operands with handles in the trace can be supplied. -/
theorem exists_supplies {emission : Emission} (hemitted : emission.Emitted)
    {operands : List Value}
    (hoperands : ∀ operand ∈ operands, emission.handle? operand ≠ none) :
    ∃ inputs shapes, emission.Supplies operands inputs shapes := by
  obtain ⟨inputs, hhandles⟩ := exists_forall₂ fun operand hmem =>
    Option.ne_none_iff_exists'.mp (hoperands operand hmem)
  have hknown : ∀ input ∈ inputs, input.position < emission.trace.size := by
    intro input hmem
    obtain ⟨position, hposition⟩ := List.getElem?_of_mem hmem
    obtain ⟨operand, _, hoperand⟩ := forall₂_getElem? hhandles.flip hposition
    exact hemitted operand input hoperand
  obtain ⟨shapes, hshapes⟩ :=
    exists_forall₂ fun input hmem => Trace.exists_shape (hknown input hmem)
  exact ⟨inputs, shapes, hhandles, hshapes⟩

theorem Supplies.lt_size {emission : Emission} {operands : List Value} {inputs : List Handle}
    {shapes : List Shape} (hsupplies : emission.Supplies operands inputs shapes) :
    ∀ input ∈ inputs, input.position < emission.trace.size := by
  intro input hmem
  obtain ⟨position, hposition⟩ := List.getElem?_of_mem hmem
  obtain ⟨shape, _, hshape⟩ := forall₂_getElem? hsupplies.shapes hposition
  exact Trace.lt_size_of_shape hshape

end Emission

namespace Operation

/-- The handles of the outputs name instructions of the block. -/
theorem mem_results {operation : Operation} {node : Node} (hfits : operation.Fits node)
    {shapes : List Shape} (hshapes : shapes.length = node.operands.length)
    (start number : Nat) (inputs : List Handle) {handle : Handle}
    (hhandle : handle ∈ operation.results start node.outputs) :
    start ≤ handle.position ∧
      handle.position < start + (operation.block node start number inputs shapes).length := by
  cases operation with
  | deviceData name =>
      obtain rfl := List.mem_singleton.mp hhandle
      exact ⟨Nat.le_refl _, Nat.lt_succ_self _⟩
  | token =>
      obtain rfl := List.mem_singleton.mp hhandle
      exact ⟨Nat.le_refl _, Nat.lt_succ_self _⟩
  | allReduce reduction =>
      obtain rfl := List.mem_singleton.mp hhandle
      obtain ⟨⟨operand, hoperands⟩, _⟩ := hfits
      have hblock : (block (.allReduce reduction) node start number inputs shapes).length = 1 := by
        rw [block, List.length_map, hshapes, hoperands]
        rfl
      rw [hblock]
      exact ⟨Nat.le_refl _, Nat.lt_succ_self _⟩
  | orderedAllReduce reduction pinned =>
      obtain ⟨data, token, hoperands, houtputs⟩ := hfits
      obtain ⟨position, hposition, rfl⟩ := List.mem_map.mp hhandle
      have hlength : shapes.length = node.outputs := by
        rw [hshapes, hoperands, houtputs, List.length_append, List.length_singleton]
      have hrange := List.mem_range'_1.mp hposition
      simp only [block, Trace.projections, List.length_cons, List.length_map, List.length_zipIdx,
        hlength]
      omega
  | custom emitter? => exact hfits.elim

end Operation

section Place

variable {emission : Emission} {id : NodeId} {operation : Operation} {node : Node}
  {inputs : List Handle} {shapes : List Shape}

namespace Emission

theorem trace_place :
    (emission.place id operation node inputs shapes).trace = emission.trace.append
      (operation.block node emission.trace.size emission.trace.parameters inputs shapes) :=
  trace_assignFrom _ _ _ _

theorem handle?_place_of_ne {value : Value} (hnode : value.node ≠ id) :
    (emission.place id operation node inputs shapes).handle? value = emission.handle? value :=
  handle?_assignFrom_of_node_ne _ hnode _ _

/-- A node without handles gets exactly those of its block. -/
theorem handle?_place_self (hfresh : ∀ value handle, emission.handle? value = some handle →
    value.node ≠ id) (index : Nat) :
    (emission.place id operation node inputs shapes).handle? ⟨id, index⟩ =
      (operation.results emission.trace.size node.outputs)[index]? := by
  have hnone : emission.handle? ⟨id, index⟩ = none := by
    cases hhandle : emission.handle? ⟨id, index⟩ with
    | none => rfl
    | some handle => exact absurd rfl (hfresh _ handle hhandle)
  have hself := handle?_assignFrom_self
    { emission with
      trace := emission.trace.append
        (operation.block node emission.trace.size emission.trace.parameters inputs shapes) }
    id 0 index (operation.results emission.trace.size node.outputs)
  rw [Nat.zero_add] at hself
  refine hself.trans ?_
  have hsame : ({ emission with
      trace := emission.trace.append (operation.block node emission.trace.size
        emission.trace.parameters inputs shapes) } : Emission).handle? ⟨id, index⟩ = none := hnone
  rw [hsame, Option.or_none]

/-- A node without handles can be placed without a loss. -/
theorem extends_place (hfresh : ∀ value handle, emission.handle? value = some handle →
    value.node ≠ id) : (emission.place id operation node inputs shapes).Extends emission where
  trace := by
    rw [trace_place]
    exact Trace.extends_append _ _
  handles := by
    intro value handle hhandle
    rw [handle?_place_of_ne (hfresh value handle hhandle)]
    exact hhandle

theorem records_place (hfits : operation.Fits node) :
    (emission.place id operation node inputs shapes).Records id node.outputs
      (operation.results emission.trace.size node.outputs) := by
  have hrecords := records_assignFrom
    { emission with
      trace := emission.trace.append
        (operation.block node emission.trace.size emission.trace.parameters inputs shapes) }
    id (operation.results emission.trace.size node.outputs)
  rw [Operation.length_results hfits] at hrecords
  exact hrecords

theorem placed_place (hfits : operation.Fits node)
    (hsupplies : emission.Supplies node.operands inputs shapes)
    (hfresh : ∀ value handle, emission.handle? value = some handle → value.node ≠ id) :
    (emission.place id operation node inputs shapes).Placed id operation node
      emission.trace.size emission.trace.parameters inputs shapes where
  supplies := (extends_place hfresh).supplies hsupplies
  before := hsupplies.lt_size
  block := by
    rw [trace_place]
    exact Trace.holds_append _ _
  records := records_place hfits

/-- All handles stay in the trace. -/
theorem emitted_place (hfits : operation.Fits node)
    (hsupplies : emission.Supplies node.operands inputs shapes) (hemitted : emission.Emitted)
    (hfresh : ∀ value handle, emission.handle? value = some handle → value.node ≠ id) :
    (emission.place id operation node inputs shapes).Emitted := by
  intro value handle hhandle
  rw [trace_place, Trace.size_append]
  by_cases hnode : value.node = id
  · obtain ⟨producer, index⟩ := value
    obtain rfl : producer = id := hnode
    rw [handle?_place_self hfresh] at hhandle
    have hshapes : shapes.length = node.operands.length := by
      rw [← hsupplies.shapes.length_eq, hsupplies.handles.length_eq]
    exact (Operation.mem_results hfits hshapes _ _ _ (List.mem_of_getElem? hhandle)).2
  · rw [handle?_place_of_ne hnode] at hhandle
    exact Nat.lt_add_right _ (hemitted value handle hhandle)

end Emission

end Place

end TensorGraph
