import TensorGraph.Proofs.Lowering.Equivalence
import TensorGraph.Proofs.Lowering.Shapes
import TensorGraph.Proofs.Workspace.Cloning

/-! # Clones lower to the same program

The clones of a graph have its structure and were constructed in its order, so
they lower to the program of the originals: only the identifiers differ.
-/

namespace TensorGraph

open Effects ListRelations

namespace Graph.Copied

variable {graph : Graph} {copies : List (NodeId × NodeId)} {roots : List Value}

theorem hasValue (hcopied : graph.Copied copies) {value : Value} (hvalue : graph.HasValue value)
    (hmem : value.node ∈ copies.map Prod.fst) : graph.HasValue (value.copied copies) := by
  obtain ⟨entry, hentry, hcopy, _⟩ := hcopied.entries _ (Value.mem_copies hmem)
  have hindex : value.index < entry.node.outputs := hvalue.index_lt hentry
  exact ⟨_, hcopy, hindex⟩

/-- A value has the structure of its copy. The induction is on the node of the value, as its
operands are outputs of earlier nodes. -/
theorem sameValue (hcopied : graph.Copied copies) (hordered : graph.Ordered) {value : Value}
    (hmem : value.node ∈ copies.map Prod.fst) :
    graph.SameValue graph value (value.copied copies) := by
  obtain ⟨id, index⟩ := value
  induction id using Nat.strongRecOn generalizing index with
  | ind id ih =>
      obtain ⟨entry, hentry, hcopy, hoperands⟩ := hcopied.entries _ (Value.mem_copies hmem)
      refine .intro index hentry hcopy rfl rfl (List.length_map _).symm ?_
      intro operand operand' hpair
      obtain ⟨hoperand, rfl⟩ := mem_zip_map.mp hpair
      exact ih _ (hordered id entry hentry operand hoperand) _ (hoperands operand hoperand)

/-- Only a node and its clone are counterparts below roots and their copies. -/
theorem mem_of_counterparts (hcopied : graph.Copied copies)
    (hroots : ∀ root ∈ roots, root.node ∈ copies.map Prod.fst) {id other : NodeId}
    (hcounterparts :
      graph.Counterparts graph roots (roots.map (Value.copied copies)) id other) :
    (id, other) ∈ copies := by
  induction hcounterparts with
  | root hpair =>
      obtain ⟨hroot, rfl⟩ := mem_zip_map.mp hpair
      exact Value.mem_copies (hroots _ hroot)
  | operand _ hentry hentry' hpair ih =>
      obtain ⟨found, hfound, hcopy, hoperands⟩ := hcopied.entries _ ih
      obtain rfl := Option.some.inj (hfound.symm.trans hentry)
      obtain rfl := Option.some.inj (hcopy.symm.trans hentry')
      obtain ⟨hoperand, rfl⟩ := mem_zip_map.mp hpair
      exact Value.mem_copies (hoperands _ hoperand)

/-- The copies of roots have the structure of the roots, and were constructed in step with them. -/
theorem sameRoots (hcopied : graph.Copied copies) (hgraph : graph.BuiltIn)
    (hvalues : ∀ root ∈ roots, graph.HasValue root)
    (hroots : ∀ root ∈ roots, root.node ∈ copies.map Prod.fst) :
    graph.SameRoots graph roots (roots.map (Value.copied copies)) where
  builtIn := hgraph
  builtIn' := hgraph
  values := hvalues
  values' := by
    intro copy hmem
    obtain ⟨root, hroot, rfl⟩ := List.mem_map.mp hmem
    exact hcopied.hasValue (hvalues root hroot) (hroots root hroot)
  same := List.forall₂_map_right_iff.mpr (List.forall₂_same.mpr fun root hroot =>
    hcopied.sameValue hgraph.wellFormed.ordered (hroots root hroot))

theorem inStep (hcopied : graph.Copied copies)
    (hroots : ∀ root ∈ roots, root.node ∈ copies.map Prod.fst) :
    graph.InStep graph roots (roots.map (Value.copied copies)) :=
  fun _ _ _ _ hfirst hsecond => hcopied.inOrder _ (hcopied.mem_of_counterparts hroots hfirst) _
    (hcopied.mem_of_counterparts hroots hsecond)

end Graph.Copied

namespace Lowering

/-- Lowerings from scratch of roots and of their copies give the same handles and program. -/
theorem lowerValues_copied {graph : Graph} {copies : List (NodeId × NodeId)} {roots : List Value}
    (hcopied : graph.Copied copies) (hgraph : graph.BuiltIn)
    (hvalues : ∀ root ∈ roots, graph.HasValue root)
    (hroots : ∀ root ∈ roots, root.node ∈ copies.map Prod.fst) :
    ∃ handles lowering lowering', handles.length = roots.length ∧
      lowerValues graph roots {} = (.ok handles, lowering) ∧
      lowerValues graph (roots.map (Value.copied copies)) {} = (.ok handles, lowering') ∧
      lowering.emission.trace = lowering'.emission.trace := by
  have hsameRoots := hcopied.sameRoots hgraph hvalues hroots
  obtain ⟨handles, lowering, hrun, hplaces, hhandles⟩ :=
    (Consistent.empty graph).lowerValues hgraph hvalues
  obtain ⟨handles', lowering', hrun', hplaces', hhandles'⟩ :=
    (Consistent.empty graph).lowerValues hgraph hsameRoots.values'
  rw [List.filter_eq_self.mpr (by simp)] at hplaces hplaces'
  obtain ⟨rfl, htrace⟩ := same_program_of_inStep hsameRoots hplaces hplaces' hhandles hhandles'
    (hcopied.inStep hroots)
  exact ⟨handles, lowering, lowering', hhandles.length_eq.symm, hrun, hrun', htrace⟩

/-- After a program of built-in nodes, all nodes below some roots can be cloned in order. A clone is
the original, also in its digests, over the clones of its operands; and lowered from scratch the
copies of the roots give the same handles, one for each root, and the same text of the program as
the roots. -/
theorem clones_equivalent (capacity : Nat) (steps : List BuildStep) {records : List CallRecord}
    {workspace : Workspace}
    (hrun : Workspace.run steps { cache := { capacity } } = (records, workspace))
    (hcalls : ∀ record ∈ records, ∃ node, record.call = .build node)
    (hagree : Agreeing (demands records)) {roots : List Value}
    (hvalues : ∀ root ∈ roots, workspace.graph.HasValue root) :
    ∃ copies after,
      BuildM.cloneAll (workspace.graph.postOrder roots) [] workspace = (.ok copies, after) ∧
      copies.map Prod.fst = workspace.graph.postOrder roots ∧
      (∀ pair ∈ copies, ∃ entry, workspace.graph.entryAt? pair.1 = some entry ∧
        after.graph.entryAt? pair.2 = some (entry.copied copies) ∧
        (entry.copied copies).node.ownDigest = entry.node.ownDigest ∧
        ∀ operand ∈ entry.node.operands, operand.node ∈ copies.map Prod.fst) ∧
      ∃ handles lowering lowering', handles.length = roots.length ∧
        lowerValues after.graph roots {} = (.ok handles, lowering) ∧
        lowerValues after.graph (roots.map (Value.copied copies)) {} = (.ok handles, lowering') ∧
        lowering.emission.trace.text = lowering'.emission.trace.text := by
  have hworkspace := Workspace.accounted_run capacity steps hrun hcalls hagree
  have hordered := hworkspace.graph.builtIn.wellFormed.ordered
  obtain ⟨copies, after, hclone, hkeys, hcopied, hkept, hafter⟩ :=
    hworkspace.cloneAll hagree (workspace.graph.postOrder roots) [] (.empty _)
      (Graph.postOrder_sorted roots)
      (fun id hmem => Graph.lt_size_of_mem_postOrder hordered hmem)
      (fun id hmem operand hreads => Graph.operand_mem_postOrder hordered hmem hreads)
  have hroots : ∀ root ∈ roots, root.node ∈ copies.map Prod.fst := by
    intro root hroot
    rw [hkeys]
    exact Graph.root_mem_postOrder hordered hroot (hvalues root hroot)
  have hvalues' : ∀ root ∈ roots, after.graph.HasValue root := by
    intro root hroot
    obtain ⟨entry, hentry, hindex⟩ := hvalues root hroot
    exact ⟨entry, hkept _ entry hentry, hindex⟩
  obtain ⟨handles, lowering, lowering', hlength, hlower, hlower', htrace⟩ :=
    lowerValues_copied hcopied hafter.graph.builtIn hvalues' hroots
  refine ⟨copies, after, hclone, hkeys, fun pair hmem => ?_, handles, lowering, lowering', hlength,
    hlower, hlower', congrArg Trace.text htrace⟩
  obtain ⟨entry, hentry, hcopy, hoperands⟩ := hcopied.entries pair hmem
  have hknown : pair.1 < workspace.graph.size :=
    Graph.lt_size_of_mem_postOrder hordered (hkeys ▸ List.mem_map_of_mem hmem)
  obtain ⟨found, hfound⟩ := Graph.exists_entryAt? hknown
  obtain rfl : found = entry := Option.some.inj ((hkept _ found hfound).symm.trans hentry)
  exact ⟨found, hfound, hcopy, rfl, hoperands⟩

theorem clones_equivalent_reductions :
    let outcome := Workspace.run reductions { cache := ⟨1, []⟩ }
    let roots : List Value := [⟨4, 0⟩, ⟨3, 0⟩]
    (∀ record ∈ outcome.1, ∃ node, record.call = .build node) ∧
      Agreeing (demands outcome.1) ∧ (∀ root ∈ roots, outcome.2.graph.HasValue root) ∧
      ∃ copies after,
        BuildM.cloneAll (outcome.2.graph.postOrder roots) [] outcome.2 = (.ok copies, after) ∧
        copies = [(0, 5), (1, 6), (2, 7), (3, 8), (4, 9)] ∧
        ∃ handles lowering lowering', handles.length = 2 ∧
          lowerValues after.graph roots {} = (.ok handles, lowering) ∧
          lowerValues after.graph [⟨9, 0⟩, ⟨8, 0⟩] {} = (.ok handles, lowering') ∧
          lowering.emission.trace.text = lowering'.emission.trace.text := by
  intro outcome roots
  have hcalls : ∀ record ∈ outcome.1, ∃ node, record.call = .build node := by
    intro record hmem
    have hall : outcome.1.all fun record => record.call matches .build _ := by decide +kernel
    have hbuild := List.all_eq_true.mp hall record hmem
    cases hcall : record.call with
    | make request => simp [hcall] at hbuild
    | build node => exact ⟨node, rfl⟩
  have hagree : Agreeing (demands outcome.1) := by decide +kernel
  have hvalues : ∀ root ∈ roots, outcome.2.graph.HasValue root := by
    intro root hmem
    rcases List.mem_cons.mp hmem with rfl | hmem
    · exact ⟨_, rfl, by decide⟩
    · obtain rfl := List.mem_singleton.mp hmem
      exact ⟨_, rfl, by decide⟩
  have hrun : Workspace.run reductions { cache := ⟨1, []⟩ } = (outcome.1, outcome.2) := rfl
  obtain ⟨copies, after, hclone, _, _, hlower⟩ :=
    clones_equivalent 1 reductions hrun hcalls hagree hvalues
  have hcopies : copies = [(0, 5), (1, 6), (2, 7), (3, 8), (4, 9)] := by
    have hanswer : (BuildM.cloneAll (outcome.2.graph.postOrder roots) [] outcome.2).1.toOption =
        some [(0, 5), (1, 6), (2, 7), (3, 8), (4, 9)] := by decide +kernel
    rw [hclone] at hanswer
    exact Option.some.inj hanswer
  refine ⟨hcalls, hagree, hvalues, copies, after, hclone, hcopies, ?_⟩
  rw [hcopies] at hlower
  exact hlower

end Lowering

end TensorGraph
