import TensorGraph.Proofs.Lowering.Observation

/-! # Replacing the operations of lowered nodes

A lowering reads the nodes of its graph, and calls the operations of those that
are not lowered yet. So the operation of a lowered node may be replaced by any
other, and no lowering of a node or of values notices.
-/

namespace TensorGraph

open Effects

namespace Graph

/-- The graphs have the same nodes, and those outside the given ones do the same. -/
structure AgreesApart (graph other : Graph) (apart : NodeId → Prop) : Prop where
  node : ∀ id, (other.entryAt? id).map Entry.node = (graph.entryAt? id).map Entry.node
  operation : ∀ id, ¬ apart id →
    (other.entryAt? id).map Entry.operation = (graph.entryAt? id).map Entry.operation

namespace AgreesApart

variable {graph other : Graph} {apart : NodeId → Prop}

theorem mono (hagrees : graph.AgreesApart other apart) {wider : NodeId → Prop}
    (hwider : ∀ id, apart id → wider id) : graph.AgreesApart other wider where
  node := hagrees.node
  operation := fun id hid => hagrees.operation id fun h => hid (hwider id h)

/-- The other graph has the node too, with whatever operation. -/
theorem exists_entry (hagrees : graph.AgreesApart other apart) {id : NodeId} {entry : Entry}
    (hentry : graph.entryAt? id = some entry) :
    ∃ found, other.entryAt? id = some found ∧ found.node = entry.node := by
  have hnode := hagrees.node id
  rw [hentry] at hnode
  exact Option.map_eq_some_iff.mp hnode

theorem entryAt?_eq_none (hagrees : graph.AgreesApart other apart) {id : NodeId}
    (hnone : graph.entryAt? id = none) : other.entryAt? id = none := by
  have hnode := hagrees.node id
  rw [hnone] at hnode
  exact Option.map_eq_none_iff.mp hnode

theorem operandsOf_eq (hagrees : graph.AgreesApart other apart) (id : NodeId) :
    other.operandsOf id = graph.operandsOf id := by
  cases hentry : graph.entryAt? id with
  | none => rw [operandsOf, operandsOf, hentry, hagrees.entryAt?_eq_none hentry]
  | some entry =>
      obtain ⟨found, hfound, hnode⟩ := hagrees.exists_entry hentry
      simp only [operandsOf, hentry, hfound, hnode]

theorem size_eq (hagrees : graph.AgreesApart other apart) : other.size = graph.size := by
  have hnone : ∀ id, other.size ≤ id ↔ graph.size ≤ id := by
    intro id
    rw [← entryAt?_eq_none_iff, ← entryAt?_eq_none_iff, ← Option.map_eq_none_iff,
      hagrees.node, Option.map_eq_none_iff]
  exact Nat.le_antisymm ((hnone _).mpr (Nat.le_refl _)) ((hnone _).mp (Nat.le_refl _))

/-- What lies below the roots is found in the nodes alone. -/
theorem postOrder_eq (hagrees : graph.AgreesApart other apart) (roots : List Value) :
    other.postOrder roots = graph.postOrder roots := by
  have hsweep : ∀ enters bound pending found,
      other.sweep enters bound pending found = graph.sweep enters bound pending found := by
    intro enters bound
    induction bound with
    | zero => exact fun _ _ => rfl
    | succ id ih =>
        intro pending found
        simp only [sweep, hagrees.operandsOf_eq, ih]
  rw [postOrder, postOrder, hagrees.size_eq, hsweep]

end AgreesApart

end Graph

namespace Lowering

variable {graph other : Graph} {lowering : Lowering}

/-- Lowered nodes stay lowered. -/
theorem lowered_subset_lowerNode (graph : Graph) (id : NodeId) (lowering : Lowering) :
    lowering.lowered ⊆ (lowerNode graph id lowering).2.lowered := by
  have hrun := Observed.nodeRun_lowerNode graph id { lowering }
  rw [Observed.forgets_lowerNode graph id { lowering }]
  generalize Observed.lowerNode graph id { lowering } = outcome at hrun ⊢
  cases hrun with
  | completed => exact List.subset_cons_self _ _
  | _ => exact List.Subset.refl _

/-- The operation of a node is consulted only if the node is not lowered. -/
theorem lowerNode_eq_of_agreesApart (hagrees : graph.AgreesApart other (· ∈ lowering.lowered))
    (id : NodeId) : lowerNode other id lowering = lowerNode graph id lowering := by
  cases hentry : graph.entryAt? id with
  | none =>
      have hsame : other.entryAt id = graph.entryAt id := by
        rw [Graph.entryAt, Graph.entryAt, hentry, hagrees.entryAt?_eq_none hentry]
      rw [lowerNode, lowerNode, hsame, Graph.entryAt, hentry, run_bind_error (run_ofExcept _ _),
        run_bind_error (run_ofExcept _ _)]
  | some entry =>
      obtain ⟨found, hfound, hnode⟩ := hagrees.exists_entry hentry
      by_cases hlowered : id ∈ lowering.lowered
      · rw [lowerNode_of_mem hfound hlowered, lowerNode_of_mem hentry hlowered, hnode]
      · have hoperation := hagrees.operation id hlowered
        rw [hfound, hentry] at hoperation
        have hemit : emitNode other id = emitNode graph id := by
          funext before
          rw [emitNode_run hfound, emitNode_run hentry, hnode, Option.some.inj hoperation]
        rw [lowerNode_of_not_mem hfound hlowered, lowerNode_of_not_mem hentry hlowered, hnode,
          hemit]

theorem lowerAll_eq_of_agreesApart (ids : List NodeId)
    (hagrees : graph.AgreesApart other (· ∈ lowering.lowered)) :
    lowerAll other ids lowering = lowerAll graph ids lowering := by
  induction ids generalizing lowering with
  | nil => rfl
  | cons id ids ih =>
      have hnode := lowerNode_eq_of_agreesApart hagrees id
      have hkept := lowered_subset_lowerNode graph id lowering
      rcases hrun : lowerNode graph id lowering with ⟨fault | handles, after⟩
      · rw [lowerAll, lowerAll, run_bind_error hrun, run_bind_error (hnode.trans hrun)]
      · rw [hrun] at hkept
        rw [lowerAll, lowerAll, run_bind_ok hrun, run_bind_ok (hnode.trans hrun)]
        exact ih (hagrees.mono fun _ hmem => hkept hmem)

/-- No lowering of values notices which operations the lowered nodes have. -/
theorem lowerValues_eq_of_agreesApart (hagrees : graph.AgreesApart other (· ∈ lowering.lowered))
    (roots : List Value) : lowerValues other roots lowering = lowerValues graph roots lowering := by
  rw [lowerValues, lowerValues, hagrees.postOrder_eq]
  have hall := lowerAll_eq_of_agreesApart (graph.postOrder roots) hagrees
  rcases hrun : lowerAll graph (graph.postOrder roots) lowering with ⟨fault | ⟨⟩, after⟩
  · rw [run_bind_error hrun, run_bind_error (hall.trans hrun)]
  · rw [run_bind_ok hrun, run_bind_ok (hall.trans hrun)]

end Lowering

end TensorGraph
