import TensorGraph.Proofs.Lowering.Meaning

/-! # The program of successive lowerings

Lowerings of values into one trace leave one block of instructions for each node
that one of them reaches. The blocks stand in the order of the first lowering that
reaches the node, and within a lowering in the order of construction. What a
lowering adds is therefore the part of its post-order that no earlier one reached.
-/

namespace TensorGraph

open Effects ListRelations

section Blocks

/-- The number of a parameter. -/
def Opcode.number? : Opcode → Option Nat
  | .parameter number _ => some number
  | _ => none

/-- What the instructions of a node do, in order. An ordered reduction projects one result for each
of its operands, the token included. -/
def Operation.opcodes (operation : Operation) (node : Node) (number : Nat) : List Opcode :=
  match operation with
  | .deviceData name => [.parameter number name]
  | .token => [.afterAll]
  | .allReduce reduction => [.allReduce reduction false]
  | .orderedAllReduce reduction pinned =>
    .allReduce reduction pinned :: (List.range node.operands.length).map .tupleElement
  | .custom _ => []

/-- The numbers of the parameters among the instructions. -/
def parameterNumbers (instructions : List Instruction) : List Nat :=
  instructions.filterMap fun instruction => instruction.opcode.number?

/-- The parameters of the trace are numbered from zero in the order of their emission. -/
def Trace.Numbered (trace : Trace) : Prop :=
  parameterNumbers trace.instructions.toList = List.range trace.parameters

theorem length_parameterNumbers (instructions : List Instruction) :
    (parameterNumbers instructions).length =
      instructions.countP fun instruction => instruction.opcode.isParameter := by
  rw [parameterNumbers, List.length_filterMap_eq_countP]
  refine List.countP_congr fun instruction _ => ?_
  cases instruction.opcode <;> simp [Opcode.number?, Opcode.isParameter]

theorem Operation.opcode_block {operation : Operation} {node : Node}
    (hfits : operation.Fits node) (start number : Nat) (inputs : List Handle)
    {shapes : List Shape} (hshapes : shapes.length = node.operands.length) :
    (operation.block node start number inputs shapes).map Instruction.opcode =
      operation.opcodes node number := by
  cases operation with
  | deviceData name => rfl
  | token => rfl
  | allReduce reduction =>
      obtain ⟨⟨operand, hoperands⟩, _⟩ := hfits
      rw [hoperands] at hshapes
      obtain ⟨shape, rfl⟩ := List.length_eq_one_iff.mp hshapes
      rfl
  | orderedAllReduce reduction pinned =>
      have hprojections : (Trace.projections ⟨start⟩ 0 shapes).map Instruction.opcode =
          (List.range shapes.length).map .tupleElement := by
        rw [Trace.projections, List.map_map, List.range_eq_range', ← List.zipIdx_map_snd 0 shapes,
          List.map_map]
        rfl
      rw [block, List.map_cons, hprojections, hshapes]
      rfl
  | custom emitter? => rfl

/-- A block numbers its parameters from the number that it is given. -/
theorem Operation.parameterNumbers_of_opcodes {operation : Operation} {node : Node} {number : Nat}
    {block : List Instruction}
    (hopcodes : block.map Instruction.opcode = operation.opcodes node number) :
    parameterNumbers block = List.range' number (parameterNumbers block).length := by
  have hnumbers : parameterNumbers block =
      (operation.opcodes node number).filterMap Opcode.number? := by
    rw [← hopcodes, List.filterMap_map]
    rfl
  rw [hnumbers]
  cases operation with
  | orderedAllReduce reduction pinned =>
      have hnone : (opcodes (.orderedAllReduce reduction pinned) node number).filterMap
          Opcode.number? = [] := by
        rw [List.filterMap_eq_nil_iff]
        simp [opcodes, Opcode.number?]
      rw [hnone]
      rfl
  | _ => rfl

theorem Trace.Numbered.append {trace : Trace} (hnumbered : trace.Numbered)
    {block : List Instruction} (hblock : parameterNumbers block =
      List.range' trace.parameters (parameterNumbers block).length) :
    (trace.append block).Numbered := by
  have hnumbers : parameterNumbers (trace.append block).instructions.toList =
      parameterNumbers trace.instructions.toList ++ parameterNumbers block := by
    simp [parameterNumbers, Trace.append]
  rw [Numbered, hnumbers, hnumbered, hblock, List.range_eq_range', List.range_eq_range',
    Trace.append, ← length_parameterNumbers, ← List.range'_append_1, Nat.zero_add]

end Blocks

namespace Graph

variable {graph : Graph} {calls : List (List Value)}

/-- The call at this position is the first that reaches the node. -/
def FirstReached (graph : Graph) (calls : List (List Value)) (position : Nat) (id : NodeId) :
    Prop :=
  (∃ roots, calls[position]? = some roots ∧ graph.Reached roots id) ∧
    ∀ roots ∈ calls.take position, ¬ graph.Reached roots id

/-- The first call that reaches the one node is earlier than that of the other, or it is the same
and the one node was constructed before the other. -/
def EmittedBefore (graph : Graph) (calls : List (List Value)) (one other : NodeId) : Prop :=
  ∃ position position', graph.FirstReached calls position one ∧
    graph.FirstReached calls position' other ∧
    (position < position' ∨ position = position' ∧ one < other)

/-- The nodes that the calls reach, each of them once and in the order of their emission. -/
structure EmissionOrder (graph : Graph) (calls : List (List Value)) (order : List NodeId) :
    Prop where
  nodup : order.Nodup
  reached : ∀ id, id ∈ order ↔ ∃ roots ∈ calls, graph.Reached roots id
  sorted : order.Pairwise (graph.EmittedBefore calls)

/-- The instructions are those of the node, for some number of its parameter. -/
def Emits (graph : Graph) (id : NodeId) (block : List Instruction) : Prop :=
  ∃ entry number, graph.entryAt? id = some entry ∧
    block.map Instruction.opcode = entry.operation.opcodes entry.node number

/-- What is reached at all is reached by a first call. -/
theorem exists_firstReached {id : NodeId} (hreached : ∃ roots ∈ calls, graph.Reached roots id) :
    ∃ position < calls.length, graph.FirstReached calls position id := by
  induction calls with
  | nil => simp at hreached
  | cons roots calls ih =>
      by_cases hfirst : graph.Reached roots id
      · exact ⟨0, Nat.succ_pos _, ⟨roots, rfl, hfirst⟩, by simp⟩
      · have hrest : ∃ roots ∈ calls, graph.Reached roots id := by
          simpa [hfirst] using hreached
        obtain ⟨position, hlt, hreaches, hbefore⟩ := ih hrest
        refine ⟨position + 1, Nat.succ_lt_succ hlt, hreaches, ?_⟩
        simpa [hfirst] using hbefore

theorem FirstReached.append {position : Nat} {id : NodeId}
    (hfirst : graph.FirstReached calls position id) (later : List (List Value)) :
    graph.FirstReached (calls ++ later) position id := by
  obtain ⟨⟨roots, hroots, hreached⟩, hbefore⟩ := hfirst
  have hlt := (List.getElem?_eq_some_iff.mp hroots).1
  refine ⟨⟨roots, ?_, hreached⟩, ?_⟩
  · rw [List.getElem?_append_left hlt, hroots]
  · rw [List.take_append_of_le_length (Nat.le_of_lt hlt)]
    exact hbefore

theorem EmittedBefore.append {one other : NodeId} (hbefore : graph.EmittedBefore calls one other)
    (later : List (List Value)) : graph.EmittedBefore (calls ++ later) one other := by
  obtain ⟨position, position', hone, hother, hcompare⟩ := hbefore
  exact ⟨position, position', hone.append later, hother.append later, hcompare⟩

namespace EmissionOrder

variable {order : List NodeId}

theorem nil (graph : Graph) : graph.EmissionOrder [] [] where
  nodup := .nil
  reached := by simp
  sorted := .nil

/-- Another call appends what it reaches and no earlier one did, in the order of construction. -/
theorem append (horder : graph.EmissionOrder calls order) (hordered : graph.Ordered)
    {roots : List Value} (hroots : ∀ root ∈ roots, root.node < graph.size) :
    graph.EmissionOrder (calls ++ [roots])
      (order ++ (graph.postOrder roots).filter fun id => id ∉ order) := by
  have hfresh : ∀ id, id ∈ (graph.postOrder roots).filter (fun id => id ∉ order) ↔
      graph.Reached roots id ∧ id ∉ order := by
    intro id
    rw [List.mem_filter, mem_postOrder_iff_reached hordered hroots, decide_eq_true_iff]
  have hsorted : ((graph.postOrder roots).filter fun id => id ∉ order).Pairwise (· < ·) :=
    (postOrder_sorted roots).filter _
  -- so this call is the first to reach what it appends
  have hfirst : ∀ id ∈ (graph.postOrder roots).filter (fun id => id ∉ order),
      graph.FirstReached (calls ++ [roots]) calls.length id := by
    intro id hmem
    obtain ⟨hreached, hnew⟩ := (hfresh id).mp hmem
    refine ⟨⟨roots, List.getElem?_concat_length, hreached⟩, fun earlier hearlier hbefore => ?_⟩
    rw [List.take_left] at hearlier
    exact hnew ((horder.reached id).mpr ⟨earlier, hearlier, hbefore⟩)
  constructor
  · refine List.nodup_append.mpr ⟨horder.nodup, hsorted.imp Nat.ne_of_lt, ?_⟩
    rintro id hmem _ hother rfl
    exact ((hfresh id).mp hother).2 hmem
  · intro id
    rw [List.mem_append, hfresh, horder.reached]
    simp only [List.mem_append, List.mem_singleton, or_and_right, exists_or, exists_eq_left]
    exact or_congr_right' fun hnew => and_iff_left hnew
  · refine List.pairwise_append.mpr ⟨horder.sorted.imp fun h => h.append _, ?_, ?_⟩
    · exact hsorted.imp_of_mem fun hone hother hlt =>
        ⟨_, _, hfirst _ hone, hfirst _ hother, Or.inr ⟨rfl, hlt⟩⟩
    · intro one hone other hother
      obtain ⟨position, hlt, hposition⟩ := exists_firstReached ((horder.reached one).mp hone)
      exact ⟨position, _, hposition.append _, hfirst other hother, Or.inl hlt⟩

/-- The order depends on nothing but what the calls reach. -/
theorem congr {later : Graph} (horder : graph.EmissionOrder calls order)
    (hreached : ∀ roots ∈ calls, ∀ id, later.Reached roots id ↔ graph.Reached roots id) :
    later.EmissionOrder calls order where
  nodup := horder.nodup
  reached := by
    intro id
    rw [horder.reached]
    exact exists_congr fun roots => and_congr_right fun hroots => (hreached roots hroots id).symm
  sorted := by
    have hfirst : ∀ {position id}, graph.FirstReached calls position id →
        later.FirstReached calls position id := by
      rintro position id ⟨⟨roots, hroots, hreaches⟩, hbefore⟩
      refine ⟨⟨roots, hroots, (hreached roots (List.mem_of_getElem? hroots) id).mpr hreaches⟩, ?_⟩
      intro earlier hearlier hreaches
      exact hbefore earlier hearlier
        ((hreached earlier (List.mem_of_mem_take hearlier) id).mp hreaches)
    refine horder.sorted.imp ?_
    rintro one other ⟨position, position', hone, hother, hcompare⟩
    exact ⟨position, position', hfirst hone, hfirst hother, hcompare⟩

end EmissionOrder

theorem Extends.emits {later : Graph} (hextends : later.Extends graph) {id : NodeId}
    {block : List Instruction} (hemits : graph.Emits id block) : later.Emits id block := by
  obtain ⟨entry, number, hentry, hopcodes⟩ := hemits
  obtain ⟨annotations, hlater⟩ := hextends id entry hentry
  exact ⟨_, number, hlater, hopcodes⟩

end Graph

namespace Lowering

/-- Placing nodes appends their blocks, and goes on numbering the parameters. -/
theorem Places.blocks {graph : Graph} {lowering after : Lowering} {ids : List NodeId}
    (hplaces : Places graph lowering ids after) (hgraph : graph.BuiltIn)
    (hnumbered : lowering.emission.trace.Numbered) :
    after.emission.trace.Numbered ∧ ∃ blocks, List.Forall₂ graph.Emits ids blocks ∧
      after.emission.trace.instructions.toList =
        lowering.emission.trace.instructions.toList ++ blocks.flatten := by
  induction hplaces with
  | nil => exact ⟨hnumbered, [], .nil, (List.append_nil _).symm⟩
  | @cons lowering after id ids entry inputs shapes hentry _ hsupplies _ ih =>
      have hlength : shapes.length = entry.node.operands.length := by
        rw [← hsupplies.shapes.length_eq, ← hsupplies.handles.length_eq]
      have hopcodes := Operation.opcode_block (hgraph.fits hentry) lowering.emission.trace.size
        lowering.emission.trace.parameters inputs hlength
      -- the block takes the next number if it is a parameter, and none otherwise
      obtain ⟨hnumbered', blocks, hblocks, hinstructions⟩ := ih (by
        rw [Emission.trace_place]
        exact hnumbered.append (Operation.parameterNumbers_of_opcodes hopcodes))
      refine ⟨hnumbered', _ :: blocks, .cons ⟨entry, _, hentry, hopcodes⟩ hblocks, ?_⟩
      rw [hinstructions, Emission.trace_place, List.flatten_cons]
      simp [Trace.append]

/-- The lowerings of values into one fresh trace, with the roots of each, the latest last. The
workspace of built-in operations may grow in between. -/
inductive BuiltInHistory : Workspace → List (List Value) → Lowering → Prop
  | start {workspace : Workspace} : workspace.BuiltIn → BuiltInHistory workspace [] {}
  | grow {earlier later : Workspace} {calls : List (List Value)} {lowering : Lowering} :
      BuiltInHistory earlier calls lowering → earlier.Step later →
      BuiltInHistory later calls lowering
  | lower {workspace : Workspace} {calls : List (List Value)} {lowering : Lowering}
      {roots : List Value} :
      BuiltInHistory workspace calls lowering →
      (∀ root ∈ roots, root.node < workspace.graph.size) →
      BuiltInHistory workspace (calls ++ [roots]) (lowerValues workspace.graph roots lowering).2

namespace BuiltInHistory

variable {workspace : Workspace} {calls : List (List Value)} {lowering : Lowering}

theorem session (hhistory : BuiltInHistory workspace calls lowering) :
    BuiltInSession workspace lowering := by
  induction hhistory with
  | start hworkspace => exact .start hworkspace
  | grow _ hstep ih => exact ih.grow hstep
  | lower _ _ ih => exact ih.lower _

/-- Every call was about nodes of the graph. -/
theorem known (hhistory : BuiltInHistory workspace calls lowering) :
    ∀ roots ∈ calls, ∀ root ∈ roots, root.node < workspace.graph.size := by
  induction hhistory with
  | start => simp
  | grow hhistory hstep ih =>
      have hextends := (hstep.grows hhistory.session.graph).2
      exact fun roots hroots root hroot =>
        Nat.lt_of_lt_of_le (ih roots hroots root hroot) hextends.size_le
  | lower _ hroots ih =>
      intro roots hmem
      rcases List.mem_append.mp hmem with hmem | hmem
      · exact ih roots hmem
      · obtain rfl := List.mem_singleton.mp hmem
        exact hroots

end BuiltInHistory

/-- The trace consists of the blocks of the nodes in this order, which are the lowered ones. -/
structure Program (graph : Graph) (lowering : Lowering) (order : List NodeId)
    (blocks : List (List Instruction)) : Prop where
  lowered : ∀ id, id ∈ lowering.lowered ↔ id ∈ order
  emits : List.Forall₂ graph.Emits order blocks
  instructions : lowering.emission.trace.instructions.toList = blocks.flatten
  numbered : lowering.emission.trace.Numbered

namespace Program

variable {graph : Graph} {lowering : Lowering} {order : List NodeId}
  {blocks : List (List Instruction)}

theorem empty (graph : Graph) : Program graph {} [] [] where
  lowered := by simp
  emits := .nil
  instructions := rfl
  numbered := rfl

theorem grow (hprogram : Program graph lowering order blocks) {later : Graph}
    (hextends : later.Extends graph) : Program later lowering order blocks where
  lowered := hprogram.lowered
  emits := hprogram.emits.imp fun _ _ => hextends.emits
  instructions := hprogram.instructions
  numbered := hprogram.numbered

/-- Lowering appends the blocks of the nodes of the post-order that have none yet. -/
theorem append (hprogram : Program graph lowering order blocks) (hgraph : graph.BuiltIn)
    (hconsistent : Consistent graph lowering) (roots : List Value) :
    ∃ blocks', Program graph (lowerValues graph roots lowering).2
      (order ++ (graph.postOrder roots).filter fun id => id ∉ order) (blocks ++ blocks') := by
  obtain ⟨after, hrun, hplaces⟩ := hconsistent.lowerValues_run hgraph roots
  have hstate : (lowerValues graph roots lowering).2 = after := by
    rw [hrun, run_mapM_state (handleOf_state after)]
  have hfilter : ((graph.postOrder roots).filter fun id => id ∉ lowering.lowered) =
      (graph.postOrder roots).filter fun id => id ∉ order := by
    simp only [hprogram.lowered]
  rw [hfilter] at hplaces
  obtain ⟨hnumbered, blocks', hblocks, hinstructions⟩ := hplaces.blocks hgraph hprogram.numbered
  refine ⟨blocks', ?_⟩
  rw [hstate]
  constructor
  · intro id
    rw [hplaces.mem_lowered, hprogram.lowered, List.mem_append, or_comm]
  · exact List.rel_append hprogram.emits hblocks
  · rw [hinstructions, hprogram.instructions, List.flatten_append]
  · exact hnumbered

end Program

/-- After any lowerings the trace consists of one block for each node that one of them reaches, in
the order of the first call that reaches it and then of construction, and the parameters are
numbered from zero along it. -/
theorem lowered_program {workspace : Workspace} {calls : List (List Value)} {lowering : Lowering}
    (hhistory : BuiltInHistory workspace calls lowering) :
    ∃ order blocks, workspace.graph.EmissionOrder calls order ∧
      List.Forall₂ workspace.graph.Emits order blocks ∧
      lowering.emission.trace.instructions.toList = blocks.flatten ∧
      parameterNumbers blocks.flatten = List.range lowering.emission.trace.parameters := by
  have hprogram : ∃ order blocks, workspace.graph.EmissionOrder calls order ∧
      Program workspace.graph lowering order blocks := by
    induction hhistory with
    | start => exact ⟨[], [], .nil _, .empty _⟩
    | grow hhistory hstep ih =>
        obtain ⟨order, blocks, horder, hprogram⟩ := ih
        have hgraph := hhistory.session.graph
        have hextends := (hstep.grows hgraph).2
        refine ⟨order, blocks, horder.congr fun roots hroots => ?_, hprogram.grow hextends⟩
        exact hextends.reached_iff hgraph.wellFormed.ordered (hhistory.known roots hroots)
    | lower hhistory hroots ih =>
        obtain ⟨order, blocks, horder, hprogram⟩ := ih
        have hgraph := hhistory.session.graph
        obtain ⟨blocks', hprogram'⟩ := hprogram.append hgraph hhistory.session.consistent _
        exact ⟨_, _, horder.append hgraph.wellFormed.ordered hroots, hprogram'⟩
  obtain ⟨order, blocks, horder, hprogram⟩ := hprogram
  exact ⟨order, blocks, horder, hprogram.emits, hprogram.instructions,
    hprogram.instructions ▸ hprogram.numbered⟩

/-- The token was constructed before the first reduction, which is lowered before it. -/
theorem lowered_program_overlapping :
    let first := ((BuiltInNode.deviceData "x" (.scalar .float32)).build { cache := ⟨1, []⟩ }).2
    let second := (BuiltInNode.token.build first).2
    let third := ((BuiltInNode.allReduce ⟨.sum, .one, []⟩ ⟨0, 0⟩).build second).2
    let fourth := ((BuiltInNode.orderedAllReduce ⟨.sum, .one, []⟩ [⟨0, 0⟩] ⟨1, 0⟩ true).build
      third).2
    let calls : List (List Value) := [[⟨2, 0⟩], [⟨3, 1⟩, ⟨2, 0⟩]]
    let lowering := (lowerValues fourth.graph [⟨3, 1⟩, ⟨2, 0⟩]
      (lowerValues third.graph [⟨2, 0⟩] {}).2).2
    lowering.emission.trace.instructions.toList.map Instruction.opcode =
        [.parameter 0 "x", .allReduce ⟨.sum, .one, []⟩ false, .afterAll,
          .allReduce ⟨.sum, .one, []⟩ true, .tupleElement 0, .tupleElement 1] ∧
      BuiltInHistory fourth calls lowering ∧
      ∃ order blocks, fourth.graph.EmissionOrder calls order ∧
        List.Forall₂ fourth.graph.Emits order blocks ∧
        lowering.emission.trace.instructions.toList = blocks.flatten ∧
        parameterNumbers blocks.flatten = List.range lowering.emission.trace.parameters := by
  intro first second third fourth calls lowering
  have hthird : third.BuiltIn :=
    .step (.step (.step (.empty _) (.build _ (by decide))) (.build _ (by decide)))
      (.build _ (by decide))
  have hearlier : BuiltInHistory third [[⟨2, 0⟩]] (lowerValues third.graph [⟨2, 0⟩] {}).2 :=
    .lower (.start hthird) (by decide)
  have hhistory : BuiltInHistory fourth calls lowering :=
    .lower (hearlier.grow (.build _ (by decide))) (by decide)
  exact ⟨by decide +kernel, hhistory, lowered_program hhistory⟩

end Lowering

end TensorGraph
