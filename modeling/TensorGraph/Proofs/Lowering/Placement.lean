import TensorGraph.Proofs.Emission.Growth
import TensorGraph.Proofs.Graph.PostOrder
import TensorGraph.Proofs.Lowering.Node
import TensorGraph.Proofs.Workspace.BuiltIn

/-! # Lowering built-in operations

Every lowered node has its place in the trace, and only lowered nodes have
handles. Both hold in all states of a lowering of built-in operations, and such a
lowering never fails: the nodes below the roots come after their operands.
-/

namespace TensorGraph

open Effects ListRelations

theorem Entry.MadeFrom.fits {entry : Entry} {request : Request} (hrequest : request.IsBuiltIn)
    (hmade : entry.MadeFrom request) : entry.operation.Fits entry.node := by
  obtain ⟨hoperation, shape, digest, _, hnode⟩ := hmade
  rw [hoperation, hnode]
  cases hrequest with
  | deviceData name shape => exact ⟨rfl, rfl⟩
  | token => exact ⟨rfl, rfl⟩
  | allReduce reduction operand shape => exact ⟨⟨operand, rfl⟩, rfl⟩
  | orderedAllReduce graph reduction operands token pinned => exact ⟨operands, token, rfl, rfl⟩

theorem Graph.BuiltIn.fits {graph : Graph} (hgraph : graph.BuiltIn) {id : NodeId} {entry : Entry}
    (hentry : graph.entryAt? id = some entry) : entry.operation.Fits entry.node := by
  obtain ⟨request, hrequest, hmade⟩ := hgraph.made id entry hentry
  exact hmade.fits hrequest

namespace Lowering

/-- Lowered nodes are in the trace, and only they have handles. -/
structure Consistent (graph : Graph) (lowering : Lowering) : Prop where
  placed : ∀ id ∈ lowering.lowered, ∃ entry, graph.entryAt? id = some entry ∧
    ∃ start number inputs shapes, lowering.emission.Placed id entry.operation entry.node
      start number inputs shapes
  lowered : ∀ value handle, lowering.emission.handle? value = some handle →
    value.node ∈ lowering.lowered
  emitted : lowering.emission.Emitted

/-- The later state knows all that the earlier one knew. -/
structure Extends (later earlier : Lowering) : Prop where
  emission : later.emission.Extends earlier.emission
  lowered : ∀ id ∈ earlier.lowered, id ∈ later.lowered

theorem Extends.refl (lowering : Lowering) : lowering.Extends lowering :=
  ⟨.refl _, fun _ h => h⟩

theorem Extends.trans {first second third : Lowering} (hlater : third.Extends second)
    (hearlier : second.Extends first) : third.Extends first :=
  ⟨hlater.emission.trans hearlier.emission, fun id h => hlater.lowered id (hearlier.lowered id h)⟩

namespace Consistent

theorem empty (graph : Graph) : Consistent graph {} where
  placed := by simp
  lowered := by simp [Emission.handle?]
  emitted := by intro value handle hhandle; simp [Emission.handle?] at hhandle

/-- The graph may grow between two lowerings. -/
theorem grow {graph later : Graph} {lowering : Lowering}
    (hconsistent : Consistent graph lowering) (hextends : later.Extends graph) :
    Consistent later lowering where
  placed := by
    intro id hid
    obtain ⟨entry, hentry, start, number, inputs, shapes, hplaced⟩ := hconsistent.placed id hid
    obtain ⟨annotations, hlater⟩ := hextends id entry hentry
    exact ⟨_, hlater, start, number, inputs, shapes, hplaced⟩
  lowered := hconsistent.lowered
  emitted := hconsistent.emitted

section Node

variable {graph : Graph} {id : NodeId} {entry : Entry} {lowering : Lowering}

theorem fresh (hconsistent : Consistent graph lowering) (hnew : id ∉ lowering.lowered)
    (value : Value) (handle : Handle)
    (hhandle : lowering.emission.handle? value = some handle) : value.node ≠ id :=
  fun heq => hnew (heq ▸ hconsistent.lowered value handle hhandle)

theorem placed_of_entry (hconsistent : Consistent graph lowering)
    (hentry : graph.entryAt? id = some entry) (hmem : id ∈ lowering.lowered) :
    ∃ start number inputs shapes, lowering.emission.Placed id entry.operation entry.node
      start number inputs shapes := by
  obtain ⟨found, hfound, hplaced⟩ := hconsistent.placed id hmem
  obtain rfl : found = entry := Option.some.inj (hfound.symm.trans hentry)
  exact hplaced

/-- The outputs of a lowered node have handles. -/
theorem handle?_of_mem (hconsistent : Consistent graph lowering) (hgraph : graph.BuiltIn)
    {value : Value} (hvalue : graph.HasValue value) (hmem : value.node ∈ lowering.lowered) :
    ∃ handle, lowering.emission.handle? value = some handle := by
  obtain ⟨entry, hentry, start, number, inputs, shapes, hplaced⟩ := hconsistent.placed _ hmem
  have hindex := hvalue.index_lt hentry
  have hhandle := hplaced.records.handle?_eq hindex
  rw [← Operation.length_results (hgraph.fits hentry) start] at hindex
  rw [List.getElem?_eq_getElem hindex] at hhandle
  exact ⟨_, hhandle⟩

/-- Placing a node and counting it as lowered keeps the state consistent. -/
theorem place (hconsistent : Consistent graph lowering)
    (hfits : entry.operation.Fits entry.node) (hentry : graph.entryAt? id = some entry)
    (hnew : id ∉ lowering.lowered) {inputs : List Handle} {shapes : List Shape}
    (hsupplies : lowering.emission.Supplies entry.node.operands inputs shapes) :
    let after : Lowering :=
      { emission := lowering.emission.place id entry.operation entry.node inputs shapes
        lowered := id :: lowering.lowered }
    Consistent graph after ∧ after.Extends lowering := by
  have hfresh := hconsistent.fresh hnew
  have hextends : (lowering.emission.place id entry.operation entry.node inputs shapes).Extends
      lowering.emission := Emission.extends_place hfresh
  refine ⟨⟨?_, ?_, ?_⟩, hextends, fun _ h => List.mem_cons_of_mem _ h⟩
  · intro other hother
    -- the new node stands at the end, and the others where they stood before
    rcases List.mem_cons.mp hother with rfl | hother
    · exact ⟨entry, hentry, _, _, inputs, shapes,
        Emission.placed_place hfits hsupplies hfresh⟩
    · obtain ⟨found, hfound, start, number, inputs, shapes, hplaced⟩ :=
        hconsistent.placed other hother
      exact ⟨found, hfound, start, number, inputs, shapes, hextends.placed hplaced⟩
  · intro value handle hhandle
    by_cases hnode : value.node = id
    · exact List.mem_cons.mpr (Or.inl hnode)
    · rw [Emission.handle?_place_of_ne hnode] at hhandle
      exact List.mem_cons_of_mem _ (hconsistent.lowered value handle hhandle)
  · exact Emission.emitted_place hfits hsupplies hconsistent.emitted hfresh

theorem handle?_operand (hconsistent : Consistent graph lowering) (hgraph : graph.BuiltIn)
    (hentry : graph.entryAt? id = some entry)
    (hoperands : ∀ operand ∈ entry.node.operands, operand.node ∈ lowering.lowered) :
    ∀ operand ∈ entry.node.operands, lowering.emission.handle? operand ≠ none := by
  intro operand hmem
  have hvalue := hgraph.reads id entry hentry operand hmem
  obtain ⟨handle, hhandle⟩ := hconsistent.handle?_of_mem hgraph hvalue (hoperands operand hmem)
  simp [hhandle]

/-- A new node whose operands are lowered takes the next place. -/
theorem lowerNode_of_not_mem (hconsistent : Consistent graph lowering) (hgraph : graph.BuiltIn)
    (hentry : graph.entryAt? id = some entry) (hnew : id ∉ lowering.lowered)
    (hoperands : ∀ operand ∈ entry.node.operands, operand.node ∈ lowering.lowered) :
    ∃ inputs shapes, lowering.emission.Supplies entry.node.operands inputs shapes ∧
      Lowering.lowerNode graph id lowering =
        (.ok (entry.operation.results lowering.emission.trace.size entry.node.outputs),
          { emission := lowering.emission.place id entry.operation entry.node inputs shapes
            lowered := id :: lowering.lowered }) := by
  have hfits := hgraph.fits hentry
  have hhandles := hconsistent.handle?_operand hgraph hentry hoperands
  obtain ⟨inputs, shapes, hsupplies⟩ := Emission.exists_supplies hconsistent.emitted hhandles
  refine ⟨inputs, shapes, hsupplies, ?_⟩
  exact lowerNode_of_emit hentry hnew hhandles (Operation.emit_run hfits id hsupplies)
    (Operation.length_results hfits _)

/-- A lowered node answers and leaves the state alone. -/
theorem lowerNode_of_mem (hconsistent : Consistent graph lowering)
    (hlowered : id ∈ lowering.lowered) :
    ∃ handles, Lowering.lowerNode graph id lowering = (.ok handles, lowering) := by
  obtain ⟨entry, hentry, start, number, inputs, shapes, hplaced⟩ := hconsistent.placed id hlowered
  exact ⟨_, (lowerNode_eq_ok_iff_of_mem hentry hlowered _).mpr hplaced.records⟩

end Node

end Consistent

/-- The later state results from placing the nodes one after the other. -/
inductive Places (graph : Graph) : Lowering → List NodeId → Lowering → Prop
  | nil {lowering : Lowering} : Places graph lowering [] lowering
  | cons {lowering after : Lowering} {id : NodeId} {ids : List NodeId} {entry : Entry}
      {inputs : List Handle} {shapes : List Shape} :
      graph.entryAt? id = some entry →
      id ∉ lowering.lowered →
      lowering.emission.Supplies entry.node.operands inputs shapes →
      Places graph
        { emission := lowering.emission.place id entry.operation entry.node inputs shapes
          lowered := id :: lowering.lowered } ids after →
      Places graph lowering (id :: ids) after

namespace Places

variable {graph : Graph} {lowering after : Lowering} {ids : List NodeId}

theorem consistent (hplaces : Places graph lowering ids after) (hgraph : graph.BuiltIn)
    (hconsistent : Consistent graph lowering) :
    Consistent graph after ∧ after.Extends lowering := by
  induction hplaces with
  | nil => exact ⟨hconsistent, .refl _⟩
  | cons hentry hnew hsupplies _ ih =>
      obtain ⟨hnext, hextends⟩ := hconsistent.place (hgraph.fits hentry) hentry hnew hsupplies
      obtain ⟨hafter, hextends'⟩ := ih hnext
      exact ⟨hafter, hextends'.trans hextends⟩

theorem mem_lowered (hplaces : Places graph lowering ids after) (id : NodeId) :
    id ∈ after.lowered ↔ id ∈ ids ∨ id ∈ lowering.lowered := by
  induction hplaces with
  | nil => simp
  | cons _ _ _ _ ih => rw [ih, List.mem_cons, List.mem_cons, or_left_comm, or_assoc]

end Places

namespace Consistent

variable {graph : Graph}

/-- In increasing order, what the first node reads cannot come after it. -/
theorem operands_lowered (hordered : graph.Ordered) {lowering : Lowering} {id : NodeId}
    {ids : List NodeId} {entry : Entry} (hentry : graph.entryAt? id = some entry)
    (hfirst : ∀ other ∈ ids, id < other)
    (hclosed : ∀ operand, graph.Reads id operand →
      operand ∈ id :: ids ∨ operand ∈ lowering.lowered) :
    ∀ operand ∈ entry.node.operands, operand.node ∈ lowering.lowered := by
  intro operand hmem
  have hreads := Graph.Reads.of_mem hentry hmem
  have hlt := hordered.reads_lt hreads
  rcases hclosed operand.node hreads with hlisted | hlowered
  · rcases List.mem_cons.mp hlisted with heq | hlater
    · exact absurd heq (Nat.ne_of_lt hlt)
    · exact absurd (hfirst _ hlater) (Nat.lt_asymm hlt)
  · exact hlowered

/-- Lowering the first node excludes none of those that come after it. -/
theorem filter_not_mem_cons {id : NodeId} {ids : List NodeId} (hfirst : ∀ other ∈ ids, id < other)
    (lowered : List NodeId) :
    (ids.filter fun other => other ∉ id :: lowered) = ids.filter fun other => other ∉ lowered := by
  apply List.filter_congr
  intro other hmem
  have hne : other ≠ id := Nat.ne_of_gt (hfirst other hmem)
  simp [hne]

/-- Nodes in increasing order are placed one after the other, as far as they are not lowered yet,
if what they read is lowered or among them. -/
theorem lowerAll (hgraph : graph.BuiltIn) (ids : List NodeId)
    (hsorted : ids.Pairwise (· < ·)) (hknown : ∀ id ∈ ids, id < graph.size)
    {lowering : Lowering} (hconsistent : Consistent graph lowering)
    (hclosed : ∀ id ∈ ids, ∀ operand, graph.Reads id operand →
      operand ∈ ids ∨ operand ∈ lowering.lowered) :
    ∃ after, Lowering.lowerAll graph ids lowering = (.ok (), after) ∧
      Places graph lowering (ids.filter fun id => id ∉ lowering.lowered) after := by
  induction ids generalizing lowering with
  | nil => exact ⟨lowering, rfl, .nil⟩
  | cons id ids ih =>
      obtain ⟨hfirst, hrest⟩ := List.pairwise_cons.mp hsorted
      have hknown' := fun other hmem => hknown other (List.mem_cons_of_mem id hmem)
      -- the rest of the list may read the first node, which is lowered by then
      have hclosed' : ∀ other ∈ ids, ∀ operand, graph.Reads other operand →
          operand ∈ ids ∨ operand = id ∨ operand ∈ lowering.lowered := by
        intro other hmem operand hreads
        have hread := hclosed other (List.mem_cons_of_mem _ hmem) operand hreads
        rw [List.mem_cons, or_comm (a := operand = id), or_assoc] at hread
        exact hread
      by_cases hlowered : id ∈ lowering.lowered
      · obtain ⟨handles, hnode⟩ := hconsistent.lowerNode_of_mem hlowered
        obtain ⟨after, hrun, hplaces⟩ := ih hrest hknown' hconsistent (by
          intro other hmem operand hreads
          exact (hclosed' other hmem operand hreads).imp_right
            fun h => h.elim (fun heq => heq ▸ hlowered) fun h => h)
        refine ⟨after, ?_, ?_⟩
        · rw [Lowering.lowerAll, run_bind_ok hnode]
          exact hrun
        · rw [List.filter_cons_of_neg (by simpa using hlowered)]
          exact hplaces
      · obtain ⟨entry, hentry⟩ := Graph.exists_entryAt? (hknown id List.mem_cons_self)
        have hoperands := operands_lowered hgraph.wellFormed.ordered hentry hfirst
          (hclosed id List.mem_cons_self)
        obtain ⟨inputs, shapes, hsupplies, hnode⟩ :=
          hconsistent.lowerNode_of_not_mem hgraph hentry hlowered hoperands
        obtain ⟨hnext, _⟩ := hconsistent.place (hgraph.fits hentry) hentry hlowered hsupplies
        obtain ⟨after, hrun, hplaces⟩ := ih hrest hknown' hnext (by
          intro other hmem operand hreads
          exact (hclosed' other hmem operand hreads).imp_right List.mem_cons.mpr)
        rw [filter_not_mem_cons hfirst] at hplaces
        refine ⟨after, ?_, ?_⟩
        · rw [Lowering.lowerAll, run_bind_ok hnode]
          exact hrun
        · rw [List.filter_cons_of_pos (by simpa using hlowered)]
          exact .cons hentry hlowered hsupplies hplaces

/-- Before a lowering answers, it places the nodes below the roots that were not lowered. -/
theorem lowerValues_run (hgraph : graph.BuiltIn) {lowering : Lowering}
    (hconsistent : Consistent graph lowering) (roots : List Value) :
    ∃ after, Lowering.lowerValues graph roots lowering =
        (roots.mapM handleOf : LowerM (List Handle)) after ∧
      Places graph lowering ((graph.postOrder roots).filter fun id => id ∉ lowering.lowered)
        after := by
  have hordered := hgraph.wellFormed.ordered
  obtain ⟨after, hrun, hplaces⟩ :=
    lowerAll hgraph (graph.postOrder roots) (Graph.postOrder_sorted roots)
      (fun id hmem => Graph.lt_size_of_mem_postOrder hordered hmem) hconsistent
      (fun id hmem operand hreads => Or.inl (Graph.operand_mem_postOrder hordered hmem hreads))
  refine ⟨after, ?_, hplaces⟩
  rw [Lowering.lowerValues, run_bind_ok hrun]

/-- Whatever the roots, a lowering leaves a consistent state. -/
theorem lowerValues_state (hgraph : graph.BuiltIn) {lowering : Lowering}
    (hconsistent : Consistent graph lowering) (roots : List Value) :
    Consistent graph (Lowering.lowerValues graph roots lowering).2 := by
  obtain ⟨after, hrun, hplaces⟩ := hconsistent.lowerValues_run hgraph roots
  rw [hrun, run_mapM_state (handleOf_state after)]
  exact (hplaces.consistent hgraph hconsistent).1

/-- A lowering of outputs of the graph succeeds with the handle of each of them. -/
theorem lowerValues (hgraph : graph.BuiltIn) {lowering : Lowering}
    (hconsistent : Consistent graph lowering) {roots : List Value}
    (hroots : ∀ root ∈ roots, graph.HasValue root) :
    ∃ handles after, Lowering.lowerValues graph roots lowering = (.ok handles, after) ∧
      Places graph lowering ((graph.postOrder roots).filter fun id => id ∉ lowering.lowered)
        after ∧
      List.Forall₂ (fun root handle => after.emission.handle? root = some handle)
        roots handles := by
  obtain ⟨after, hrun, hplaces⟩ := hconsistent.lowerValues_run hgraph roots
  have hafter := (hplaces.consistent hgraph hconsistent).1
  have hlowered : ∀ root ∈ roots, root.node ∈ after.lowered := by
    intro root hroot
    have hmem := Graph.root_mem_postOrder hgraph.wellFormed.ordered hroot (hroots root hroot)
    rw [hplaces.mem_lowered, List.mem_filter]
    by_cases hbefore : root.node ∈ lowering.lowered
    · exact Or.inr hbefore
    · exact Or.inl ⟨hmem, by simpa using hbefore⟩
  obtain ⟨handles, hhandles⟩ := exists_forall₂ fun root hroot =>
    hafter.handle?_of_mem hgraph (hroots root hroot) (hlowered root hroot)
  refine ⟨handles, after, ?_, hplaces, hhandles⟩
  rw [hrun]
  exact run_mapM_of_forall₂ (hhandles.imp fun _ _ => handleOf_of_some)

end Consistent

end Lowering

end TensorGraph
