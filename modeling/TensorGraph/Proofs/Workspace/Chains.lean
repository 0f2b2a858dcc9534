import TensorGraph.Proofs.Workspace.Outputs
import Mathlib.Logic.Function.Iterate

/-! # Chains of reductions

A reduction of a single operand takes the shape of the operand for the full shape of its node. If
that is a tuple of one entry, the only output has the shape of the entry. So a chain of reductions
keeps the shape of an array, and removes one tuple with each reduction otherwise.
-/

namespace TensorGraph

open Effects

namespace Shape

/-- The shape of the only output of a node with this shape. -/
def unwrapped : Shape → Shape
  | .tuple [element] => element
  | shape => shape

variable {shape : Shape}

theorem ForOutputs.outputShapes_eq (hshape : shape.ForOutputs 1) :
    shape.outputShapes = [shape.unwrapped] := by
  have hlength := hshape.length_outputShapes
  cases hshape' : shape with
  | array elementType dims => rfl
  | tuple elements =>
      rw [hshape'] at hlength
      obtain ⟨element, rfl⟩ := List.length_eq_one_iff.mp hlength
      rfl

theorem sizeOf_unwrapped_le (shape : Shape) : sizeOf shape.unwrapped ≤ sizeOf shape := by
  unfold unwrapped
  split
  · simp only [tuple.sizeOf_spec, List.cons.sizeOf_spec]
    omega
  · exact Nat.le_refl _

theorem sizeOf_iterate_unwrapped_le (shape : Shape) (count : Nat) :
    sizeOf (unwrapped^[count] shape) ≤ sizeOf shape := by
  induction count generalizing shape with
  | zero => exact Nat.le_refl _
  | succ count ih =>
      rw [Function.iterate_succ_apply]
      exact Nat.le_trans (ih shape.unwrapped) shape.sizeOf_unwrapped_le

/-- Among the shapes of a single output only those of arrays are kept. -/
theorem iterate_unwrapped_eq_iff (hshape : shape.ForOutputs 1) (count : Nat) :
    unwrapped^[count + 1] shape = shape ↔ shape.isTuple = false := by
  have hlength := hshape.length_outputShapes
  cases shape with
  | array elementType dims => exact iff_of_true (Function.iterate_fixed rfl _) rfl
  | tuple elements =>
      obtain ⟨element, rfl⟩ := List.length_eq_one_iff.mp hlength
      refine iff_of_false (fun hsame => ?_) (by simp [isTuple])
      -- what is left is at most as large as the entry
      have hsmaller := sizeOf_iterate_unwrapped_le element count
      rw [Function.iterate_succ_apply, unwrapped] at hsame
      rw [hsame, tuple.sizeOf_spec, List.cons.sizeOf_spec] at hsmaller
      omega

end Shape

namespace Workspace

variable {workspace after : Workspace} {operand : Value} {shape : Shape} {id : NodeId}

/-- A reduction makes a node exactly if its operand has the shape of a single output. -/
theorem exists_allReduce_iff (hshape : workspace.graph.shapeOf operand = .ok shape)
    (reduction : Reduction) :
    ∃ digest, ∀ id after,
      BuildM.allReduce reduction operand workspace = (.ok id, after) ↔
        shape.ForOutputs 1 ∧ id = workspace.graph.size ∧
          after = ⟨workspace.graph.push
            ⟨(Request.allReduce reduction operand shape).node shape digest,
              .allReduce reduction, {}⟩, workspace.cache⟩ := by
  obtain ⟨digest, hdigest⟩ := Graph.exists_operandsDigest
    (List.forall_mem_singleton.mpr (Graph.hasValue_of_shapeOf hshape).node_lt)
    (Request.allReduce reduction operand shape).ownDigest
  refine ⟨digest, fun id after => ?_⟩
  have hrun : BuildM.allReduce reduction operand workspace =
      (NodeCall.make (.allReduce reduction operand shape)).run workspace := by
    rw [allReduce_eq_make, hshape, NodeCall.run_eq_make]
    rfl
  rw [hrun, Request.run_eq_ok_iff hdigest]
  constructor
  · rintro ⟨found, later, hresolves, hsingle, rfl, rfl⟩
    obtain ⟨hfound, rfl⟩ := hresolves.of_given rfl
    obtain rfl := Except.ok.inj hfound
    exact ⟨hsingle, rfl, rfl⟩
  · rintro ⟨hsingle, rfl, rfl⟩
    exact ⟨shape, workspace.cache, .given rfl, hsingle, rfl, rfl⟩

/-- The output of a reduction has the shape of the operand, without a tuple around it. -/
theorem shapeOf_allReduce (hshape : workspace.graph.shapeOf operand = .ok shape)
    {reduction : Reduction}
    (hrun : BuildM.allReduce reduction operand workspace = (.ok id, after)) :
    shape.ForOutputs 1 ∧ after.graph.shapeOf ⟨id, 0⟩ = .ok shape.unwrapped := by
  obtain ⟨digest, hreduces⟩ := exists_allReduce_iff hshape reduction
  obtain ⟨hsingle, rfl, rfl⟩ := (hreduces id after).mp hrun
  have hnode : ((Request.allReduce reduction operand shape).node shape digest).Regular :=
    (Shape.forOutputs_iff shape 1).mp hsingle
  have houtput := hnode.hasOutputs.shapeAt 0 shape.unwrapped
    (congrArg (fun shapes => shapes[0]?) hsingle.outputShapes_eq)
  refine ⟨hsingle, ?_⟩
  apply Graph.shapeOf_push_size
  exact houtput

/-- A chain is a reduction of its operand, followed by a chain over the output. -/
theorem allReduceChain_cons_eq_ok_iff {reduction : Reduction} {reductions : List Reduction} :
    BuildM.allReduceChain operand (reduction :: reductions) workspace = (.ok id, after) ↔
      ∃ first middle, BuildM.allReduce reduction operand workspace = (.ok first, middle) ∧
        BuildM.allReduceChain ⟨first, 0⟩ reductions middle = (.ok id, after) := by
  rw [BuildM.allReduceChain, run_bind_eq_ok_iff]

/-- A chain of reductions is constructed exactly if each of its operands has the shape of a single
output. -/
theorem exists_allReduceChain_iff (hshape : workspace.graph.shapeOf operand = .ok shape)
    (reductions : List Reduction) :
    (∃ id after, BuildM.allReduceChain operand reductions workspace = (.ok id, after)) ↔
      ∀ count < reductions.length, (Shape.unwrapped^[count] shape).ForOutputs 1 := by
  induction reductions generalizing workspace operand shape with
  | nil => exact iff_of_true ⟨_, _, rfl⟩ (fun count hcount => absurd hcount count.not_lt_zero)
  | cons reduction reductions ih =>
      constructor
      · rintro ⟨id, after, hrun⟩ count hcount
        obtain ⟨first, middle, hfirst, hrest⟩ := allReduceChain_cons_eq_ok_iff.mp hrun
        obtain ⟨hsingle, hmiddle⟩ := shapeOf_allReduce hshape hfirst
        cases count with
        | zero => exact hsingle
        | succ count =>
            exact (ih hmiddle).mp ⟨id, after, hrest⟩ count (Nat.lt_of_succ_lt_succ hcount)
      · intro hall
        obtain ⟨digest, hreduces⟩ := exists_allReduce_iff hshape reduction
        have hfirst := (hreduces _ _).mpr ⟨hall 0 (Nat.succ_pos reductions.length), rfl, rfl⟩
        obtain ⟨-, hmiddle⟩ := shapeOf_allReduce hshape hfirst
        obtain ⟨id, after, hrest⟩ :=
          (ih hmiddle).mpr fun count hcount => hall (count + 1) (Nat.succ_lt_succ hcount)
        exact ⟨id, after, allReduceChain_cons_eq_ok_iff.mpr ⟨_, _, hfirst, hrest⟩⟩

/-- Each reduction of a chain over an output removes one tuple from its shape. -/
theorem shapeOf_allReduceChain {first : NodeId}
    (hshape : workspace.graph.shapeOf ⟨first, 0⟩ = .ok shape) {reductions : List Reduction}
    (hrun : BuildM.allReduceChain ⟨first, 0⟩ reductions workspace = (.ok id, after)) :
    after.graph.shapeOf ⟨id, 0⟩ = .ok (Shape.unwrapped^[reductions.length] shape) := by
  induction reductions generalizing workspace first shape with
  | nil =>
      cases hrun
      exact hshape
  | cons reduction reductions ih =>
      obtain ⟨next, middle, hfirst, hrest⟩ := allReduceChain_cons_eq_ok_iff.mp hrun
      exact ih (shapeOf_allReduce hshape hfirst).2 hrest

/-- A chain of reductions of an operand is constructed exactly if every reduction has an operand
with the shape of a single output. Its output has the shape of the operand without as many tuples
around it, which is the shape of the operand exactly if that is an array. -/
theorem allReduceChain_shape (hshape : workspace.graph.shapeOf operand = .ok shape)
    (reduction : Reduction) :
    (∀ id after, BuildM.allReduceChain operand [reduction] workspace = (.ok id, after) ↔
        BuildM.allReduce reduction operand workspace = (.ok id, after)) ∧
      ∀ reductions : List Reduction,
        ((∃ id after, BuildM.allReduceChain operand (reduction :: reductions) workspace =
            (.ok id, after)) ↔
          ∀ count ≤ reductions.length, (Shape.unwrapped^[count] shape).ForOutputs 1) ∧
        ∀ id after, BuildM.allReduceChain operand (reduction :: reductions) workspace =
            (.ok id, after) →
          after.graph.shapeOf ⟨id, 0⟩ = .ok (Shape.unwrapped^[reductions.length + 1] shape) ∧
          (after.graph.shapeOf ⟨id, 0⟩ = .ok shape ↔ shape.isTuple = false) := by
  refine ⟨fun id after => ?_, fun reductions => ⟨?_, fun id after hrun => ?_⟩⟩
  · rw [allReduceChain_cons_eq_ok_iff]
    constructor
    · rintro ⟨first, middle, hfirst, hrest⟩
      cases hrest
      exact hfirst
    · exact fun hfirst => ⟨id, after, hfirst, rfl⟩
  · rw [exists_allReduceChain_iff hshape, List.length_cons]
    exact forall_congr' fun count => imp_congr_left Nat.lt_succ_iff
  · obtain ⟨first, middle, hfirst, hrest⟩ := allReduceChain_cons_eq_ok_iff.mp hrun
    obtain ⟨hsingle, hmiddle⟩ := shapeOf_allReduce hshape hfirst
    have hlast := shapeOf_allReduceChain hmiddle hrest
    rw [← Function.iterate_succ_apply] at hlast
    refine ⟨hlast, ?_⟩
    rw [hlast, Except.ok.injEq]
    exact Shape.iterate_unwrapped_eq_iff hsingle reductions.length

/-- A sum and a maximum of an array with two tuples around it. -/
theorem allReduceChain_shape_nested :
    let array : Shape := .array .float32 [2]
    let nested : Shape := .tuple [.tuple [array]]
    let sum : Reduction := ⟨.sum, .one, []⟩
    let maximum : Reduction := ⟨.maximum, .one, []⟩
    let workspace := ((BuiltInNode.deviceData "x" (.tuple [nested])).build { cache := ⟨1, []⟩ }).2
    workspace.graph.shapeOf ⟨0, 0⟩ = .ok nested ∧
      ∃ id after, BuildM.allReduceChain ⟨0, 0⟩ [sum, maximum] workspace = (.ok id, after) ∧
        after.graph.shapeOf ⟨id, 0⟩ = .ok array ∧ after.graph.shapeOf ⟨id, 0⟩ ≠ .ok nested := by
  intro array nested sum maximum workspace
  have hshape : workspace.graph.shapeOf ⟨0, 0⟩ = .ok nested := rfl
  obtain ⟨hchain, hlast⟩ := (allReduceChain_shape hshape sum).2 [maximum]
  have hoperands : ∀ count ≤ 1, (Shape.unwrapped^[count] nested).ForOutputs 1 := by
    intro count hcount
    obtain rfl | rfl : count = 0 ∨ count = 1 := by omega
    · exact .tuple (List.cons_ne_nil _ _)
    · exact .tuple (List.cons_ne_nil _ _)
  obtain ⟨id, after, hrun⟩ := hchain.mpr hoperands
  obtain ⟨hafter, hkept⟩ := hlast id after hrun
  exact ⟨hshape, id, after, hrun, hafter, fun hsame => by cases hkept.mp hsame⟩

/-- The reduction of a tuple of one entry succeeds, and its output has the shape of the entry. -/
theorem allReduce_removes_tuple :
    let array : Shape := .array .float32 [2]
    let workspace :=
      ((BuiltInNode.deviceData "x" (.tuple [.tuple [array]])).build { cache := ⟨1, []⟩ }).2
    let result := BuildM.allReduce ⟨.sum, .one, []⟩ ⟨0, 0⟩ workspace
    workspace.graph.shapeOf ⟨0, 0⟩ = .ok (.tuple [array]) ∧ result.1 = .ok 1 ∧
      result.2.graph.shapeOf ⟨1, 0⟩ = .ok array ∧ array ≠ .tuple [array] :=
  ⟨rfl, rfl, rfl, by decide⟩

end Workspace

end TensorGraph
