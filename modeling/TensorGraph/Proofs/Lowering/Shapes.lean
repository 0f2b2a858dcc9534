import TensorGraph.Proofs.Lowering.Meaning
import TensorGraph.Proofs.Workspace.Shapes

/-! # Shapes of nodes and of instructions

A trace derives the shape of an instruction from its operands on its own. Below
inputs that are arrays, it comes to the shape that the graph has for the value:
both derive it from the same operands, of which the graph may remember the result.
-/

namespace TensorGraph

open Effects ListRelations

/-- If the operands of a placed node have the shapes in the graph that they have in the trace, its
outputs have the same shapes in both. -/
theorem Emission.Placed.shape_eq {emission : Emission} {id : NodeId} {operation : Operation}
    {node : Node} {start number : Nat} {inputs : List Handle} {shapes : List Shape}
    (hplaced : emission.Placed id operation node start number inputs shapes)
    (hfits : operation.Fits node) (hgives : operation.Gives shapes node.shape)
    (hinput : ∀ name, operation = .deviceData name → node.shape.isTuple = false)
    (harrays : ∀ shape ∈ shapes, shape.isTuple = false) {index : Nat} {handle : Handle}
    (hhandle : (operation.results start node.outputs)[index]? = some handle) :
    ∃ shape, node.shapeAt index = .ok shape ∧ emission.trace.shape handle = .ok shape := by
  have hblock := hplaced.block
  have hmem := List.mem_of_getElem? hhandle
  have hindex : index < node.outputs :=
    Operation.length_results hfits start ▸ (List.getElem?_eq_some_iff.mp hhandle).1
  cases operation with
  | deviceData name =>
      obtain rfl := List.mem_singleton.mp hmem
      exact ⟨node.shape, Node.shapeAt_of_not_isTuple hindex (hinput name rfl),
        (Trace.shape_eq_ok_iff _ _ _).mpr ⟨_, hblock 0 _ rfl, rfl⟩⟩
  | token =>
      obtain rfl := List.mem_singleton.mp hmem
      have harray : node.shape.isTuple = false := congrArg Shape.isTuple hgives
      exact ⟨node.shape, Node.shapeAt_of_not_isTuple hindex harray,
        (Trace.shape_eq_ok_iff _ _ _).mpr ⟨_, hblock 0 _ rfl, hgives.symm⟩⟩
  | allReduce reduction =>
      obtain rfl := List.mem_singleton.mp hmem
      obtain rfl : shapes = [node.shape] := hgives
      have harray := harrays node.shape List.mem_cons_self
      exact ⟨node.shape, Node.shapeAt_of_not_isTuple hindex harray,
        (Trace.shape_eq_ok_iff _ _ _).mpr ⟨_, hblock 0 _ rfl, rfl⟩⟩
  | orderedAllReduce reduction pinned =>
      obtain ⟨data, token, hoperands, houtputs⟩ := hfits
      obtain ⟨_, rfl⟩ := (Operation.getElem?_results_ordered _ _ _ _ _ _).mp hhandle
      have hlength : shapes.length = node.outputs := by
        rw [← hplaced.supplies.shapes.length_eq, ← hplaced.supplies.handles.length_eq, hoperands,
          houtputs, List.length_append, List.length_singleton]
      have helement := List.getElem?_eq_getElem (hlength ▸ hindex)
      -- the projections stand behind the collective, so theirs is the next position
      have hprojection := hblock (index + 1) _
        (Trace.getElem?_projections ⟨start⟩ shapes helement)
      rw [Nat.add_comm index 1, ← Nat.add_assoc] at hprojection
      exact ⟨_, Node.shapeAt_of_tuple hindex hgives helement,
        (Trace.shape_eq_ok_iff _ _ _).mpr ⟨_, hprojection, rfl⟩⟩
  | custom emitter? => exact hfits.elim

namespace Lowering

/-- A recorded handle has the shape of its value. The induction is on the node of the value, as its
operands are outputs of earlier nodes. -/
theorem Consistent.shape_eq {graph : Graph} {lowering : Lowering}
    (hconsistent : Consistent graph lowering) (hgraph : graph.BuiltIn) (hshaped : graph.Shaped)
    (hplain : graph.PlainInputs) {value : Value} {handle : Handle} (hvalue : graph.HasValue value)
    (hhandle : lowering.emission.handle? value = some handle) :
    ∃ shape, graph.shapeOf value = .ok shape ∧
      lowering.emission.trace.shape handle = .ok shape := by
  obtain ⟨id, index⟩ := value
  induction id using Nat.strongRecOn generalizing index handle with
  | ind id ih =>
      obtain ⟨entry, hentry, start, number, inputs, shapes, hplaced⟩ :=
        hconsistent.placed id (hconsistent.lowered _ handle hhandle)
      obtain ⟨derived, hderived, hgives⟩ := hshaped.derived id entry hentry
      -- both sides have derived the node from the same shapes of its operands
      obtain rfl : derived = shapes := by
        refine forall₂_unique hderived hplaced.supplies.shapes ?_
        refine List.forall₂_iff_get.mpr ⟨hplaced.supplies.handles.length_eq, ?_⟩
        intro position hposition hposition' shape shape' hshape hshape'
        have hmem := List.get_mem entry.node.operands ⟨position, hposition⟩
        obtain ⟨found, hfound, htrace⟩ := ih _ (hgraph.wellFormed.ordered id entry hentry _ hmem)
          _ (hgraph.reads id entry hentry _ hmem)
          (hplaced.supplies.handles.get hposition hposition')
        obtain rfl := Except.ok.inj (hshape.symm.trans hfound)
        exact Except.ok.inj (htrace.symm.trans hshape')
      have harrays : ∀ shape ∈ derived, shape.isTuple = false := by
        intro shape hmem
        obtain ⟨position, hposition, rfl⟩ := List.getElem_of_mem hmem
        exact hshaped.not_isTuple_of_shapeOf hgraph.wellFormed.ordered hplain
          (hderived.get (hderived.length_eq ▸ hposition) hposition)
      rw [hplaced.records.handle?_eq (hvalue.index_lt hentry)] at hhandle
      obtain ⟨shape, hat, htrace⟩ := hplaced.shape_eq (hgraph.fits hentry) hgives
        (hplain id entry hentry) harrays hhandle
      exact ⟨shape, Graph.shapeOf_eq_shapeAt hentry hat, htrace⟩

/-- Programs that construct inputs of array shapes, tokens and reductions never fail. A reduction
has an output of the shape of each operand; and wherever such nodes are lowered, the handle of an
output has the shape that the graph has for it. -/
theorem shapes_agree (capacity : Nat) (steps : List BuildStep) {records : List CallRecord}
    {workspace : Workspace}
    (hrun : Workspace.run steps { cache := { capacity } } = (records, workspace))
    (hcalls : ∀ record ∈ records, record.call.Reduces record.before)
    (hagree : Agreeing (demands records)) :
    (∀ record ∈ records, ∃ shapes, record.call.Promises record.before shapes ∧
        record.Constructs shapes) ∧
      ∀ lowering, BuiltInSession workspace lowering →
        ∀ value, value.node ∈ lowering.lowered → workspace.graph.HasValue value →
          ∃ handle shape, Lowering.handleOf value lowering = (.ok handle, lowering) ∧
            lowering.emission.trace.shape handle = .ok shape ∧
            workspace.graph.shapeOf value = .ok shape := by
  obtain ⟨hrecords, hgraph, _⟩ := Workspace.run_eq_of_agreeing capacity {} steps hrun hagree
  obtain rfl : records = (Graph.run steps {}).1 := hrecords
  have hempty : Graph.PlainInputs {} := by intro id entry hentry; simp [Graph.entryAt?] at hentry
  obtain ⟨hconstructs, haccounted, hplain⟩ :=
    (Graph.Accounted.empty []).run_reduces hempty steps hcalls
  rw [← hgraph] at haccounted hplain
  refine ⟨hconstructs, fun lowering hsession value hlowered hvalue => ?_⟩
  obtain ⟨handle, hhandle⟩ :=
    hsession.consistent.handle?_of_mem haccounted.builtIn hvalue hlowered
  obtain ⟨shape, hshape, htrace⟩ := hsession.consistent.shape_eq haccounted.builtIn
    haccounted.shaped hplain hvalue hhandle
  exact ⟨handle, shape, handleOf_of_some hhandle, htrace, hshape⟩

/-- A parameter and a token, an ordered reduction of both, one of its token alone, and a reduction
of its data. -/
def reductions : List BuildStep :=
  [.construct fun _ => .build (.deviceData "x" (.array .float32 [2])),
    .construct fun _ => .build .token,
    .construct fun _ => .build (.orderedAllReduce ⟨.sum, .one, []⟩ [⟨0, 0⟩] ⟨1, 0⟩ true),
    .construct fun _ => .build (.orderedAllReduce ⟨.sum, .one, []⟩ [] ⟨2, 1⟩ true),
    .construct fun _ => .build (.allReduce ⟨.sum, .one, []⟩ ⟨2, 0⟩)]

theorem shapes_agree_reductions :
    let outcome := Workspace.run reductions { cache := ⟨1, []⟩ }
    let lowering := (lowerValues outcome.2.graph [⟨4, 0⟩, ⟨3, 0⟩] {}).2
    (∀ record ∈ outcome.1, record.call.Reduces record.before) ∧
      Agreeing (demands outcome.1) ∧ BuiltInSession outcome.2 lowering ∧
      lowering.lowered = [4, 3, 2, 1, 0] ∧ outcome.2.graph.HasValue ⟨3, 0⟩ ∧
      (∀ record ∈ outcome.1, ∃ shapes, record.call.Promises record.before shapes ∧
        record.Constructs shapes) ∧
      ∃ handle shape, Lowering.handleOf ⟨3, 0⟩ lowering = (.ok handle, lowering) ∧
        lowering.emission.trace.shape handle = .ok shape ∧
        outcome.2.graph.shapeOf ⟨3, 0⟩ = .ok shape := by
  intro outcome lowering
  have hcalls : ∀ record ∈ outcome.1, record.call.Reduces record.before := by
    intro record hmem
    rcases List.mem_cons.mp hmem with rfl | hmem
    · exact .deviceData _ _ _
    rcases List.mem_cons.mp hmem with rfl | hmem
    · exact .token
    rcases List.mem_cons.mp hmem with rfl | hmem
    · refine .orderedAllReduce _ _ ?_ ⟨_, rfl, by decide⟩
      intro operand hoperand
      obtain rfl := List.mem_singleton.mp hoperand
      exact ⟨_, rfl, by decide⟩
    rcases List.mem_cons.mp hmem with rfl | hmem
    · exact .orderedAllReduce _ _ (by simp) ⟨_, rfl, by decide⟩
    · obtain rfl := List.mem_singleton.mp hmem
      exact .allReduce _ ⟨_, rfl, by decide⟩
  have hagree : Agreeing (demands outcome.1) := by decide +kernel
  have hbuiltIn : outcome.2.BuiltIn := Workspace.builtIn_run (.empty _) reductions hcalls
  have hsession : BuiltInSession outcome.2 lowering := .lower _ (.start hbuiltIn)
  have hlowered : lowering.lowered = [4, 3, 2, 1, 0] := by decide +kernel
  have hvalue : outcome.2.graph.HasValue ⟨3, 0⟩ := ⟨_, rfl, by decide⟩
  obtain ⟨hconstructs, hshapes⟩ := shapes_agree 1 reductions rfl hcalls hagree
  refine ⟨hcalls, hagree, hsession, hlowered, hvalue, hconstructs, ?_⟩
  exact hshapes lowering hsession ⟨3, 0⟩ (by rw [hlowered]; decide) hvalue

end Lowering

end TensorGraph
