import TensorGraph.Proofs.Lowering.Placement
import TensorGraph.Proofs.Term

/-! # Lowering keeps the meaning of a graph

In every state of a lowering of built-in operations a recorded handle denotes the
term of its value. The proof descends along the operands of a node: its block
stands over handles of the operands, which denote their terms already.
-/

namespace TensorGraph

open Effects ListRelations

namespace Trace

theorem getElem?_projections (source : Handle) (shapes : List Shape) {index : Nat} {shape : Shape}
    (hshape : shapes[index]? = some shape) :
    (projections source 0 shapes)[index]? = some ⟨.tupleElement index, [source], shape⟩ := by
  simp [projections, List.getElem?_map, List.getElem?_zipIdx, hshape]

end Trace

namespace Emission

/-- If the operands of a placed node denote the given terms, its handles denote what is built from
them. -/
theorem Placed.denotes {emission : Emission} {id : NodeId} {operation : Operation} {node : Node}
    {start number : Nat} {inputs : List Handle} {shapes : List Shape}
    (hplaced : emission.Placed id operation node start number inputs shapes)
    (hfits : operation.Fits node) {arguments : List Term}
    (hinputs : List.Forall₂ emission.trace.Denotes inputs arguments) {index : Nat} {handle : Handle}
    (hhandle : (operation.results start node.outputs)[index]? = some handle) :
    ∃ build, operation.build? node index = some build ∧
      emission.trace.Denotes handle (build arguments) := by
  have hblock := hplaced.block
  have hlengths := hplaced.supplies.handles.length_eq
  have hmem := List.mem_of_getElem? hhandle
  cases operation with
  | deviceData name =>
      obtain rfl := List.mem_singleton.mp hmem
      obtain rfl : inputs = [] := List.length_eq_zero_iff.mp (by rw [← hlengths, hfits.1]; rfl)
      obtain rfl := List.forall₂_nil_left_iff.mp hinputs
      exact ⟨_, rfl, Trace.denotes_of_instruction (hblock 0 _ rfl) .nil⟩
  | token =>
      obtain rfl := List.mem_singleton.mp hmem
      obtain rfl : inputs = [] := List.length_eq_zero_iff.mp (by rw [← hlengths, hfits.1]; rfl)
      obtain rfl := List.forall₂_nil_left_iff.mp hinputs
      exact ⟨_, rfl, Trace.denotes_of_instruction (hblock 0 _ rfl) .nil⟩
  | allReduce reduction =>
      obtain rfl := List.mem_singleton.mp hmem
      obtain ⟨⟨operand, hoperands⟩, _⟩ := hfits
      obtain ⟨shape, rfl⟩ : ∃ shape, shapes = [shape] := by
        rw [← List.length_eq_one_iff, ← hplaced.supplies.shapes.length_eq, ← hlengths, hoperands]
        rfl
      exact ⟨_, rfl, Trace.denotes_of_instruction (hblock 0 _ rfl) hinputs⟩
  | orderedAllReduce reduction pinned =>
      obtain ⟨data, token, hoperands, houtputs⟩ := hfits
      obtain ⟨hindex, rfl⟩ := (Operation.getElem?_results_ordered _ _ _ _ _ _).mp hhandle
      have hlength : shapes.length = node.outputs := by
        rw [← hplaced.supplies.shapes.length_eq, ← hlengths, hoperands, houtputs,
          List.length_append, List.length_singleton]
      rw [← hlength] at hindex
      have hsource : emission.trace.Denotes ⟨start⟩
          (.apply (.allReduce reduction pinned) arguments) :=
        Trace.denotes_of_instruction (hblock 0 _ rfl) hinputs
      -- the projections stand behind the collective, so theirs is the next position
      have hprojection := hblock (index + 1) _
        (Trace.getElem?_projections ⟨start⟩ shapes (List.getElem?_eq_getElem hindex))
      rw [Nat.add_comm index 1, ← Nat.add_assoc] at hprojection
      exact ⟨_, rfl, Trace.denotes_of_instruction hprojection (.cons hsource .nil)⟩
  | custom emitter? => exact hfits.elim

end Emission

namespace Lowering

/-- A recorded handle denotes the term of its value. The induction is on the node of the value, as
its operands are outputs of earlier nodes. -/
theorem Consistent.denotes {graph : Graph} {lowering : Lowering}
    (hconsistent : Consistent graph lowering) (hgraph : graph.BuiltIn) {value : Value}
    {handle : Handle} (hvalue : graph.HasValue value)
    (hhandle : lowering.emission.handle? value = some handle) :
    ∃ term, graph.Denotes value term ∧ lowering.emission.trace.Denotes handle term := by
  obtain ⟨id, index⟩ := value
  induction id using Nat.strongRecOn generalizing index handle with
  | ind id ih =>
      obtain ⟨entry, hentry, start, number, inputs, shapes, hplaced⟩ :=
        hconsistent.placed id (hconsistent.lowered _ handle hhandle)
      have hindex := hvalue.index_lt hentry
      have hfits := hgraph.fits hentry
      -- the block reads handles of the operands, which are outputs of earlier nodes
      have hoperands : List.Forall₂ (fun operand input => ∃ term, graph.Denotes operand term ∧
          lowering.emission.trace.Denotes input term) entry.node.operands inputs := by
        refine List.forall₂_iff_get.mpr ⟨hplaced.supplies.handles.length_eq, ?_⟩
        intro position hposition hposition'
        have hmem := List.get_mem entry.node.operands ⟨position, hposition⟩
        exact ih _ (hgraph.wellFormed.ordered id entry hentry _ hmem) _
          (hgraph.reads id entry hentry _ hmem) (hplaced.supplies.handles.get hposition hposition')
      obtain ⟨arguments, hvalues, hinputs⟩ := exists_between hoperands
      rw [hplaced.records.handle?_eq hindex] at hhandle
      obtain ⟨build, hbuild, hdenotes⟩ := hplaced.denotes hfits hinputs hhandle
      exact ⟨_, Graph.denotes_of_entry hentry hindex hbuild hvalues, hdenotes⟩

/-- The states of a lowering while a workspace of built-in operations grows: nodes are constructed
and annotated, and values are lowered, in any order. -/
inductive BuiltInSession : Workspace → Lowering → Prop
  | start {workspace : Workspace} : workspace.BuiltIn → BuiltInSession workspace {}
  | grow {earlier later : Workspace} {lowering : Lowering} :
      BuiltInSession earlier lowering → earlier.Step later → BuiltInSession later lowering
  | lower {workspace : Workspace} {lowering : Lowering} (roots : List Value) :
      BuiltInSession workspace lowering →
      BuiltInSession workspace (lowerValues workspace.graph roots lowering).2

namespace BuiltInSession

theorem graph {workspace : Workspace} {lowering : Lowering}
    (hsession : BuiltInSession workspace lowering) : workspace.graph.BuiltIn := by
  induction hsession with
  | start hworkspace => exact hworkspace.graph
  | grow _ hstep ih => exact (hstep.grows ih).1
  | lower _ _ ih => exact ih

theorem consistent {workspace : Workspace} {lowering : Lowering}
    (hsession : BuiltInSession workspace lowering) : Consistent workspace.graph lowering := by
  induction hsession with
  | start hworkspace => exact .empty _
  | grow hsession hstep ih => exact ih.grow (hstep.grows hsession.graph).2
  | lower roots hsession ih => exact ih.lowerValues_state hsession.graph roots

end BuiltInSession

/-- Lowering any outputs at any time succeeds with one handle for each, in order, and the terms
that a handle denotes are those of its root, of which there is one. -/
theorem lowerValues_denotes {workspace : Workspace} {lowering : Lowering}
    (hsession : BuiltInSession workspace lowering) {roots : List Value}
    (hroots : ∀ root ∈ roots, workspace.graph.HasValue root) :
    ∃ handles after, lowerValues workspace.graph roots lowering = (.ok handles, after) ∧
      List.Forall₂ (fun root handle =>
        (∃ term, workspace.graph.Denotes root term) ∧
          ∀ term, after.emission.trace.Denotes handle term ↔ workspace.graph.Denotes root term)
        roots handles := by
  have hgraph := hsession.graph
  have hconsistent := hsession.consistent
  obtain ⟨handles, after, hrun, hplaces, hhandles⟩ := hconsistent.lowerValues hgraph hroots
  have hafter := (hplaces.consistent hgraph hconsistent).1
  refine ⟨handles, after, hrun, ?_⟩
  refine List.forall₂_iff_get.mpr ⟨hhandles.length_eq, fun position hroot hhandle => ?_⟩
  have hvalue := hroots _ (List.get_mem roots ⟨position, hroot⟩)
  obtain ⟨term, hterm, hmeans⟩ := hafter.denotes hgraph hvalue (hhandles.get hroot hhandle)
  refine ⟨⟨term, hterm⟩, fun other => ⟨fun hother => ?_, fun hother => ?_⟩⟩
  · rw [hother.unique hmeans]
    exact hterm
  · rw [hother.unique hterm]
    exact hmeans

/-- A parameter is lowered, and later an ordered reduction of it with both of its outputs. -/
theorem lowerValues_denotes_ordered :
    let first := ((BuiltInNode.deviceData "x" (.scalar .float32)).build { cache := ⟨1, []⟩ }).2
    let second := (BuiltInNode.token.build first).2
    let third := ((BuiltInNode.orderedAllReduce ⟨.sum, .one, []⟩ [⟨0, 0⟩] ⟨1, 0⟩ true).build
      second).2
    let lowering := (lowerValues first.graph [⟨0, 0⟩] {}).2
    BuiltInSession third lowering ∧ third.graph.HasValue ⟨2, 1⟩ ∧ third.graph.HasValue ⟨2, 0⟩ ∧
      ∃ handles after, lowerValues third.graph [⟨2, 1⟩, ⟨2, 0⟩] lowering = (.ok handles, after) ∧
        List.Forall₂ (fun root handle =>
          (∃ term, third.graph.Denotes root term) ∧
            ∀ term, after.emission.trace.Denotes handle term ↔ third.graph.Denotes root term)
          [⟨2, 1⟩, ⟨2, 0⟩] handles := by
  intro first second third lowering
  have hfirst : first.BuiltIn := .step (.empty _) (.build _ (by decide))
  have hlowered : BuiltInSession first lowering := .lower [⟨0, 0⟩] (.start hfirst)
  have hsession : BuiltInSession third lowering :=
    (hlowered.grow (.build _ (by decide))).grow (.build _ (by decide))
  have htoken : third.graph.HasValue ⟨2, 1⟩ := ⟨_, rfl, by decide⟩
  have hdata : third.graph.HasValue ⟨2, 0⟩ := ⟨_, rfl, by decide⟩
  refine ⟨hsession, htoken, hdata, lowerValues_denotes hsession ?_⟩
  intro root hroot
  rcases List.mem_cons.mp hroot with rfl | hroot
  · exact htoken
  · obtain rfl := List.mem_singleton.mp hroot
    exact hdata

end Lowering

end TensorGraph
