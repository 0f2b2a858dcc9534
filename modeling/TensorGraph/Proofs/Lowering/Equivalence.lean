import TensorGraph.Proofs.Graph.Structure
import TensorGraph.Proofs.Lowering.Placement
import TensorGraph.Trace

/-! # When graphs of the same structure lower to the same program

Nodes are emitted in the order of their construction, and a shared node once. So
equal digests do not make equal programs: these take graphs whose counterparts
were constructed in step, and then the lowerings run in step as well.
-/

namespace TensorGraph

open Effects ListRelations

namespace Lowering

variable {left right : Graph} {roots roots' : List Value}

/-- The traces are the same, and related nodes have the same handles. -/
structure Agree (R : NodeId → NodeId → Prop) (lowering lowering' : Lowering) : Prop where
  trace : lowering.emission.trace = lowering'.emission.trace
  handles : ∀ id other, R id other → ∀ index,
    lowering.emission.handle? ⟨id, index⟩ = lowering'.emission.handle? ⟨other, index⟩

section InStep

/-- Operands that correspond to each other are supplied alike. -/
theorem Agree.supplies_eq {lowering lowering' : Lowering}
    (hroots : left.SameRoots right roots roots')
    (hagree : Agree (left.Counterparts right roots roots') lowering lowering')
    {id other : NodeId} (hcounterparts : left.Counterparts right roots roots' id other)
    {entry entry' : Entry} (hentry : left.entryAt? id = some entry)
    (hentry' : right.entryAt? other = some entry') {inputs inputs' : List Handle}
    {shapes shapes' : List Shape}
    (hsupplies : lowering.emission.Supplies entry.node.operands inputs shapes)
    (hsupplies' : lowering'.emission.Supplies entry'.node.operands inputs' shapes') :
    inputs = inputs' ∧ shapes = shapes' := by
  have hoperands := (hcounterparts.sameEntry hroots hentry hentry').operands
  have hinputs : inputs = inputs' := by
    refine forall₂_unique hsupplies.handles hsupplies'.handles ?_
    refine List.forall₂_iff_zip.mpr ⟨hoperands.length_eq, fun {operand operand'} hmem => ?_⟩
    intro input input' hinput hinput'
    have hindex := (List.forall₂_zip hoperands hmem).index_eq
    have hsame := hagree.handles _ _ (hcounterparts.operand hentry hentry' hmem) operand.index
    rw [hinput, hindex] at hsame
    exact Option.some.inj (hsame.trans hinput')
  subst hinputs
  refine ⟨rfl, forall₂_unique hsupplies.shapes hsupplies'.shapes ?_⟩
  refine List.forall₂_same.mpr fun input _ shape shape' hshape hshape' => ?_
  rw [hagree.trace] at hshape
  exact Except.ok.inj (hshape.symm.trans hshape')

/-- Placing counterparts keeps two states in agreement. -/
theorem Agree.place {lowering lowering' : Lowering} (hroots : left.SameRoots right roots roots')
    (hinStep : left.InStep right roots roots')
    (hagree : Agree (left.Counterparts right roots roots') lowering lowering')
    (hconsistent : Consistent left lowering) (hconsistent' : Consistent right lowering')
    {id other : NodeId} (hcounterparts : left.Counterparts right roots roots' id other)
    (hnew : id ∉ lowering.lowered) (hnew' : other ∉ lowering'.lowered)
    {entry entry' : Entry} (hentry : left.entryAt? id = some entry)
    (hentry' : right.entryAt? other = some entry') {inputs inputs' : List Handle}
    {shapes shapes' : List Shape}
    (hsupplies : lowering.emission.Supplies entry.node.operands inputs shapes)
    (hsupplies' : lowering'.emission.Supplies entry'.node.operands inputs' shapes') :
    Agree (left.Counterparts right roots roots')
      { emission := lowering.emission.place id entry.operation entry.node inputs shapes
        lowered := id :: lowering.lowered }
      { emission := lowering'.emission.place other entry'.operation entry'.node inputs' shapes'
        lowered := other :: lowering'.lowered } := by
  obtain ⟨rfl, rfl⟩ := hagree.supplies_eq hroots hcounterparts hentry hentry' hsupplies hsupplies'
  have hsame := hcounterparts.sameEntry hroots hentry hentry'
  have houtputs := hsame.outputs_eq (hroots.builtIn.fits hentry) (hroots.builtIn'.fits hentry')
  constructor
  · simp only [Emission.trace_place, ← hagree.trace, ← hsame.operation]
    rw [Operation.block_congr _ hsame.shape]
  · intro id' other' hcounterparts' index
    -- in step, a pair with one of the placed nodes is the placed pair
    have hiff := hinStep.eq_iff hcounterparts' hcounterparts
    by_cases heq : id' = id
    · obtain rfl := heq
      obtain rfl := hiff.mp rfl
      rw [Emission.handle?_place_self (hconsistent.fresh hnew),
        Emission.handle?_place_self (hconsistent'.fresh hnew'), hagree.trace, hsame.operation,
        houtputs]
    · rw [Emission.handle?_place_of_ne heq,
        Emission.handle?_place_of_ne fun h => heq (hiff.mpr h)]
      exact hagree.handles id' other' hcounterparts' index

/-- Placing lists of counterparts keeps two states in agreement. The induction is on one run; the
list of the other one follows along. -/
theorem Agree.places (hroots : left.SameRoots right roots roots')
    (hinStep : left.InStep right roots roots') {ids ids' : List NodeId}
    {lowering lowering' after after' : Lowering}
    (hplaces : Places left lowering ids after) (hplaces' : Places right lowering' ids' after')
    (hids : List.Forall₂ (left.Counterparts right roots roots') ids ids')
    (hagree : Agree (left.Counterparts right roots roots') lowering lowering')
    (hconsistent : Consistent left lowering) (hconsistent' : Consistent right lowering') :
    Agree (left.Counterparts right roots roots') after after' := by
  induction hplaces generalizing lowering' ids' with
  | nil =>
      cases hids
      cases hplaces'
      exact hagree
  | cons hentry hnew hsupplies _ ih =>
      cases hids with | cons hcounterparts hids => ?_
      cases hplaces' with | cons hentry' hnew' hsupplies' hplaces' => ?_
      have hnext := hagree.place hroots hinStep hconsistent hconsistent' hcounterparts hnew hnew'
        hentry hentry' hsupplies hsupplies'
      exact ih hplaces' hids hnext
        (hconsistent.place (hroots.builtIn.fits hentry) hentry hnew hsupplies).1
        (hconsistent'.place (hroots.builtIn'.fits hentry') hentry' hnew' hsupplies').1

end InStep

section Order

/-- Later nodes have later handles. -/
def Increasing (emission : Emission) : Prop :=
  ∀ value value' handle handle', emission.handle? value = some handle →
    emission.handle? value' = some handle' → value.node < value'.node →
    handle.position < handle'.position

theorem increasing_empty : Increasing {} := by
  intro value value' handle handle' hhandle
  cases hhandle

/-- A node above all lowered ones keeps the handles increasing. -/
theorem Increasing.place {graph : Graph} {lowering : Lowering} {id : NodeId} {entry : Entry}
    {inputs : List Handle} {shapes : List Shape} (hincreasing : Increasing lowering.emission)
    (hconsistent : Consistent graph lowering) (hfits : entry.operation.Fits entry.node)
    (hbelow : ∀ other ∈ lowering.lowered, other < id)
    (hsupplies : lowering.emission.Supplies entry.node.operands inputs shapes) :
    Increasing (lowering.emission.place id entry.operation entry.node inputs shapes) := by
  have hnew : id ∉ lowering.lowered := fun hmem => Nat.lt_irrefl _ (hbelow id hmem)
  have hfresh := hconsistent.fresh hnew
  intro value value' handle handle' hhandle hhandle' hlt
  -- the new node is above all others, so only the later value can be one of its outputs
  by_cases hnode' : value'.node = id
  · have hnode : value.node ≠ id := Nat.ne_of_lt (hnode' ▸ hlt)
    rw [Emission.handle?_place_of_ne hnode] at hhandle
    obtain ⟨producer, index⟩ := value'
    obtain rfl : producer = id := hnode'
    rw [Emission.handle?_place_self hfresh] at hhandle'
    have hshapes : shapes.length = entry.node.operands.length := by
      rw [← hsupplies.shapes.length_eq, hsupplies.handles.length_eq]
    have hlast := Operation.mem_results hfits hshapes lowering.emission.trace.size
      lowering.emission.trace.parameters inputs (List.mem_of_getElem? hhandle')
    exact Nat.lt_of_lt_of_le (hconsistent.emitted value handle hhandle) hlast.1
  · rw [Emission.handle?_place_of_ne hnode'] at hhandle'
    have hlowered := hbelow _ (hconsistent.lowered value' handle' hhandle')
    have hnode : value.node ≠ id := Nat.ne_of_lt (Nat.lt_trans hlt hlowered)
    rw [Emission.handle?_place_of_ne hnode] at hhandle
    exact hincreasing value value' handle handle' hhandle hhandle' hlt

theorem Places.increasing {graph : Graph} (hgraph : graph.BuiltIn) {ids : List NodeId}
    {lowering after : Lowering} (hplaces : Places graph lowering ids after)
    (hsorted : ids.Pairwise (· < ·))
    (hbelow : ∀ id ∈ ids, ∀ other ∈ lowering.lowered, other < id)
    (hconsistent : Consistent graph lowering) (hincreasing : Increasing lowering.emission) :
    Increasing after.emission := by
  induction hplaces with
  | nil => exact hincreasing
  | @cons lowering after id ids entry inputs shapes hentry hnew hsupplies _ ih =>
      obtain ⟨hfirst, hrest⟩ := List.pairwise_cons.mp hsorted
      have hfits := hgraph.fits hentry
      have hbelow' := hbelow id List.mem_cons_self
      refine ih hrest ?_ (hconsistent.place hfits hentry hnew hsupplies).1
        (hincreasing.place hconsistent hfits hbelow' hsupplies)
      intro other hother earlier hearlier
      rcases List.mem_cons.mp hearlier with rfl | hearlier
      · exact hfirst other hother
      · exact hbelow other (List.mem_cons_of_mem _ hother) earlier hearlier

/-- Both nodes are placed at the same position. -/
structure PlacedAlike (left right : Graph) (lowering lowering' : Lowering) (id other : NodeId)
    (entry entry' : Entry) (start : Nat) : Prop where
  known : left.entryAt? id = some entry
  known' : right.entryAt? other = some entry'
  same : left.SameEntry right entry entry'
  placed : ∃ number inputs shapes, lowering.emission.Placed id entry.operation entry.node
    start number inputs shapes
  placed' : ∃ number inputs shapes, lowering'.emission.Placed other entry'.operation entry'.node
    start number inputs shapes

variable {lowering lowering' : Lowering}

/-- Values of the same structure with the same handle are placed alike. -/
theorem placedAlike_of_handle (hconsistent : Consistent left lowering)
    (hconsistent' : Consistent right lowering') {value value' : Value}
    (hsame : left.SameValue right value value') (hvalue : left.HasValue value)
    (hvalue' : right.HasValue value') {handle : Handle}
    (hhandle : lowering.emission.handle? value = some handle)
    (hhandle' : lowering'.emission.handle? value' = some handle) :
    ∃ entry entry' start,
      PlacedAlike left right lowering lowering' value.node value'.node entry entry' start := by
  obtain ⟨entry, entry', hentry, hentry', hentries⟩ := hsame.entries
  obtain ⟨start, number, inputs, shapes, hplaced⟩ :=
    hconsistent.placed_of_entry hentry (hconsistent.lowered value handle hhandle)
  obtain ⟨start', number', inputs', shapes', hplaced'⟩ :=
    hconsistent'.placed_of_entry hentry' (hconsistent'.lowered value' handle hhandle')
  have hindex := hplaced.records.handle?_eq (hvalue.index_lt hentry)
  have hindex' := hplaced'.records.handle?_eq (hvalue'.index_lt hentry')
  -- an output of the same operation is equally far from the start of its block
  rw [hhandle, hentries.operation, hsame.index_eq] at hindex
  rw [hhandle'] at hindex'
  obtain rfl := Operation.start_eq_of_results hindex.symm hindex'.symm
  exact ⟨entry, entry', start, hentry, hentry', hentries, ⟨_, _, _, hplaced⟩,
    ⟨_, _, _, hplaced'⟩⟩

namespace PlacedAlike

variable {id other : NodeId} {entry entry' : Entry} {start : Nat}

/-- In one trace, nodes placed alike read the same handles. -/
theorem exists_handle (hroots : left.SameRoots right roots roots')
    (htrace : lowering.emission.trace = lowering'.emission.trace)
    (halike : PlacedAlike left right lowering lowering' id other entry entry' start)
    {operand operand' : Value}
    (hmem : (operand, operand') ∈ entry.node.operands.zip entry'.node.operands) :
    ∃ handle, lowering.emission.handle? operand = some handle ∧
      lowering'.emission.handle? operand' = some handle := by
  obtain ⟨number, inputs, shapes, hplaced⟩ := halike.placed
  obtain ⟨number', inputs', shapes', hplaced'⟩ := halike.placed'
  have hlength := hplaced.supplies.handles.length_eq
  have hlength' := hplaced'.supplies.handles.length_eq
  obtain ⟨instruction, hinstruction, hinputs⟩ :=
    Operation.block_head (hroots.builtIn.fits halike.known) start number hlength.symm
      (hplaced.supplies.shapes.length_eq ▸ hlength.symm)
  obtain ⟨instruction', hinstruction', hinputs'⟩ :=
    Operation.block_head (hroots.builtIn'.fits halike.known') start number' hlength'.symm
      (hplaced'.supplies.shapes.length_eq ▸ hlength'.symm)
  -- both blocks start at one position of one trace, hence with one instruction
  have hfirst := hplaced.block 0 _ hinstruction
  have hfirst' := hplaced'.block 0 _ hinstruction'
  rw [htrace] at hfirst
  obtain rfl : instruction = instruction' := Option.some.inj (hfirst.symm.trans hfirst')
  obtain rfl : inputs = inputs' := hinputs.symm.trans hinputs'
  exact exists_common_of_mem_zip hplaced.supplies.handles hplaced'.supplies.handles hmem

/-- Nodes that are placed alike have the same first handle. -/
theorem first_handle (hroots : left.SameRoots right roots roots')
    (halike : PlacedAlike left right lowering lowering' id other entry entry' start) :
    ∃ handle, lowering.emission.handle? ⟨id, 0⟩ = some handle ∧
      lowering'.emission.handle? ⟨other, 0⟩ = some handle := by
  obtain ⟨number, inputs, shapes, hplaced⟩ := halike.placed
  obtain ⟨number', inputs', shapes', hplaced'⟩ := halike.placed'
  have hfits := hroots.builtIn.fits halike.known
  have hfits' := hroots.builtIn'.fits halike.known'
  have hhandle := hplaced.records.handle?_eq hfits.outputs_pos
  have hhandle' := hplaced'.records.handle?_eq hfits'.outputs_pos
  rw [← halike.same.operation, ← halike.same.outputs_eq hfits hfits', ← hhandle] at hhandle'
  have hpos : 0 < (entry.operation.results start entry.node.outputs).length := by
    rw [Operation.length_results hfits]
    exact hfits.outputs_pos
  rw [List.getElem?_eq_getElem hpos] at hhandle
  exact ⟨_, hhandle, hhandle'.trans hhandle⟩

end PlacedAlike

/-- If the traces are the same and the roots have the same handles, all counterparts are placed
alike: this descends from a node to its operands, since the instructions of both are the same. -/
theorem placedAlike_of_counterparts (hroots : left.SameRoots right roots roots')
    (hconsistent : Consistent left lowering) (hconsistent' : Consistent right lowering')
    (htrace : lowering.emission.trace = lowering'.emission.trace)
    (hhandles : ∀ root root', (root, root') ∈ roots.zip roots' →
      ∃ handle, lowering.emission.handle? root = some handle ∧
        lowering'.emission.handle? root' = some handle)
    {id other : NodeId} (hcounterparts : left.Counterparts right roots roots' id other) :
    ∃ entry entry' start,
      PlacedAlike left right lowering lowering' id other entry entry' start := by
  induction hcounterparts with
  | root hmem =>
      obtain ⟨hroot, hroot'⟩ := List.of_mem_zip hmem
      obtain ⟨handle, hhandle, hhandle'⟩ := hhandles _ _ hmem
      exact placedAlike_of_handle hconsistent hconsistent' (List.forall₂_zip hroots.same hmem)
        (hroots.values _ hroot) (hroots.values' _ hroot') hhandle hhandle'
  | operand hcounterparts hentry hentry' hmem ih =>
      obtain ⟨found, found', start, halike⟩ := ih
      obtain rfl := Option.some.inj (halike.known.symm.trans hentry)
      obtain rfl := Option.some.inj (halike.known'.symm.trans hentry')
      obtain ⟨handle, hhandle, hhandle'⟩ := halike.exists_handle hroots htrace hmem
      obtain ⟨hoperand, hoperand'⟩ := List.of_mem_zip hmem
      have hvalue := hroots.builtIn.reads _ _ hentry _ hoperand
      have hvalue' := hroots.builtIn'.reads _ _ hentry' _ hoperand'
      exact placedAlike_of_handle hconsistent hconsistent'
        (List.forall₂_zip halike.same.operands hmem) hvalue hvalue' hhandle hhandle'

/-- Handles that increase on both sides carry the order of nodes over to their counterparts. -/
theorem lt_of_first_handles {emission emission' : Emission} (hleft : Increasing emission)
    (hright : Increasing emission') {id other id' other' : NodeId} {handle handle' : Handle}
    (hid : emission.handle? ⟨id, 0⟩ = some handle)
    (hother : emission'.handle? ⟨other, 0⟩ = some handle)
    (hid' : emission.handle? ⟨id', 0⟩ = some handle')
    (hother' : emission'.handle? ⟨other', 0⟩ = some handle') (hlt : id < id') : other < other' := by
  have hposition := hleft _ _ _ _ hid hid' hlt
  refine Nat.lt_of_not_le fun hle => ?_
  rcases Nat.lt_or_eq_of_le hle with hgt | rfl
  · exact Nat.lt_asymm hposition (hright _ _ _ _ hother' hother hgt)
  · obtain rfl : handle = handle' := Option.some.inj (hother.symm.trans hother')
    exact Nat.lt_irrefl _ hposition

theorem inStep_of_placedAlike (hroots : left.SameRoots right roots roots')
    (hincreasing : Increasing lowering.emission) (hincreasing' : Increasing lowering'.emission)
    (halike : ∀ id other, left.Counterparts right roots roots' id other →
      ∃ entry entry' start,
        PlacedAlike left right lowering lowering' id other entry entry' start) :
    left.InStep right roots roots' := by
  intro id other id' other' hfirst hsecond
  obtain ⟨_, _, _, hplaced⟩ := halike id other hfirst
  obtain ⟨_, _, _, hplaced'⟩ := halike id' other' hsecond
  obtain ⟨handle, hid, hother⟩ := hplaced.first_handle hroots
  obtain ⟨handle', hid', hother'⟩ := hplaced'.first_handle hroots
  constructor
  · exact lt_of_first_handles hincreasing hincreasing' hid hother hid' hother'
  · exact lt_of_first_handles hincreasing' hincreasing hother hid hother' hid'

end Order

section Fresh

variable {after after' : Lowering} {handles handles' : List Handle}

/-- Lowerings from scratch of counterparts in step give the same program. -/
theorem same_program_of_inStep (hroots : left.SameRoots right roots roots')
    (hplaces : Places left {} (left.postOrder roots) after)
    (hplaces' : Places right {} (right.postOrder roots') after')
    (hhandles : List.Forall₂ (fun root handle => after.emission.handle? root = some handle)
      roots handles)
    (hhandles' : List.Forall₂ (fun root handle => after'.emission.handle? root = some handle)
      roots' handles')
    (hinStep : left.InStep right roots roots') :
    handles = handles' ∧ after.emission.trace = after'.emission.trace := by
  have hagree := Agree.places hroots hinStep hplaces hplaces' (hinStep.postOrder hroots)
    ⟨rfl, fun _ _ _ _ => rfl⟩ (.empty left) (.empty right)
  refine ⟨forall₂_unique hhandles hhandles' ?_, hagree.trace⟩
  refine List.forall₂_iff_zip.mpr ⟨hroots.same.length_eq, fun {root root'} hmem => ?_⟩
  intro handle handle' hhandle hhandle'
  have hindex := (List.forall₂_zip hroots.same hmem).index_eq
  have hsame := hagree.handles root.node root'.node (.root hmem) root.index
  rw [hhandle, hindex] at hsame
  exact Option.some.inj (hsame.trans hhandle')

/-- Lowerings from scratch that give the same program are those of counterparts in step. -/
theorem inStep_of_same_program (hroots : left.SameRoots right roots roots')
    (hplaces : Places left {} (left.postOrder roots) after)
    (hplaces' : Places right {} (right.postOrder roots') after')
    (hhandles : List.Forall₂ (fun root handle => after.emission.handle? root = some handle)
      roots handles)
    (hhandles' : List.Forall₂ (fun root handle => after'.emission.handle? root = some handle)
      roots' handles')
    (hsame : handles = handles' ∧ after.emission.trace = after'.emission.trace) :
    left.InStep right roots roots' := by
  obtain ⟨rfl, htrace⟩ := hsame
  have hincreasing := hplaces.increasing hroots.builtIn (Graph.postOrder_sorted roots) (by simp)
    (.empty left) increasing_empty
  have hincreasing' := hplaces'.increasing hroots.builtIn' (Graph.postOrder_sorted roots')
    (by simp) (.empty right) increasing_empty
  refine inStep_of_placedAlike hroots hincreasing hincreasing' ?_
  intro id other hcounterparts
  refine placedAlike_of_counterparts hroots (hplaces.consistent hroots.builtIn (.empty left)).1
    (hplaces'.consistent hroots.builtIn' (.empty right)).1 htrace ?_ hcounterparts
  exact fun root root' hmem => exists_common_of_mem_zip hhandles hhandles' hmem

end Fresh

/-- Roots of the same structure have the same digest, and both lowerings from scratch succeed. They
give the same handles and the same program exactly if the counterparts below the roots were
constructed in step. -/
theorem same_program_iff_inStep {first second : Workspace} (hfirst : first.BuiltIn)
    (hsecond : second.BuiltIn) (hunsharded : first.graph.Unsharded)
    (hunsharded' : second.graph.Unsharded) {roots roots' : List Value}
    (hvalues : ∀ root ∈ roots, first.graph.HasValue root)
    (hvalues' : ∀ root ∈ roots', second.graph.HasValue root)
    (hroots : List.Forall₂ (first.graph.SameValue second.graph) roots roots') :
    (∃ digest, first.graph.digest roots = .ok digest ∧ second.graph.digest roots' = .ok digest) ∧
      ∃ handles after handles' after',
        lowerValues first.graph roots {} = (.ok handles, after) ∧
        lowerValues second.graph roots' {} = (.ok handles', after') ∧
        ((handles = handles' ∧ after.emission.trace = after'.emission.trace) ↔
          first.graph.InStep second.graph roots roots') ∧
        (first.graph.InStep second.graph roots roots' →
          handles = handles' ∧ after.emission.trace.text = after'.emission.trace.text) := by
  have hsameRoots : first.graph.SameRoots second.graph roots roots' :=
    ⟨hfirst.graph, hsecond.graph, hvalues, hvalues', hroots⟩
  refine ⟨hsameRoots.digest hunsharded hunsharded', ?_⟩
  obtain ⟨handles, after, hrun, hplaces, hhandles⟩ :=
    (Consistent.empty first.graph).lowerValues hfirst.graph hvalues
  obtain ⟨handles', after', hrun', hplaces', hhandles'⟩ :=
    (Consistent.empty second.graph).lowerValues hsecond.graph hvalues'
  rw [List.filter_eq_self.mpr (by simp)] at hplaces hplaces'
  have hsame : (handles = handles' ∧ after.emission.trace = after'.emission.trace) ↔
      first.graph.InStep second.graph roots roots' := by
    constructor
    · exact inStep_of_same_program hsameRoots hplaces hplaces' hhandles hhandles'
    · exact same_program_of_inStep hsameRoots hplaces hplaces' hhandles hhandles'
  refine ⟨handles, after, handles', after', hrun, hrun', hsame, fun hinStep => ?_⟩
  obtain ⟨heq, htrace⟩ := hsame.mpr hinStep
  exact ⟨heq, by rw [htrace]⟩

/-- Two inputs, and then the same two in the other order. -/
def crossed : Workspace :=
  let input (name : String) (workspace : Workspace) : Workspace :=
    ((BuiltInNode.deviceData name (.scalar .float32)).build workspace).2
  input "x" (input "y" (input "y" (input "x" { cache := ⟨1, []⟩ })))

theorem crossed_builtIn : crossed.BuiltIn :=
  .step (.step (.step (.step (.empty _) (.build _ (by decide))) (.build _ (by decide)))
    (.build _ (by decide))) (.build _ (by decide))

theorem crossed_sameValue :
    List.Forall₂ (crossed.graph.SameValue crossed.graph) [⟨0, 0⟩, ⟨1, 0⟩] [⟨3, 0⟩, ⟨2, 0⟩] :=
  .cons (.intro 0 rfl rfl rfl rfl rfl fun _ _ hmem => absurd hmem List.not_mem_nil)
    (.cons (.intro 0 rfl rfl rfl rfl rfl fun _ _ hmem => absurd hmem List.not_mem_nil) .nil)

theorem crossed_unsharded : crossed.graph.Unsharded := by
  refine fun id entry hentry => ?_
  have hmem := Array.mem_toList_iff.mpr (Array.mem_of_getElem? hentry)
  rcases List.mem_cons.mp hmem with rfl | hmem
  · rfl
  rcases List.mem_cons.mp hmem with rfl | hmem
  · rfl
  rcases List.mem_cons.mp hmem with rfl | hmem
  · rfl
  obtain rfl := List.mem_singleton.mp hmem
  rfl

theorem crossed_hasValue : ∀ id < 4, crossed.graph.HasValue ⟨id, 0⟩
  | 0, _ | 1, _ | 2, _ | 3, _ => ⟨_, rfl, by decide⟩

/-- The structure is the same, but the programs differ in the order of the parameters and in the
handles of the roots. -/
theorem construction_order_shows :
    crossed.BuiltIn ∧ crossed.graph.Unsharded ∧
      List.Forall₂ (crossed.graph.SameValue crossed.graph) [⟨0, 0⟩, ⟨1, 0⟩] [⟨3, 0⟩, ⟨2, 0⟩] ∧
      (lowerValues crossed.graph [⟨0, 0⟩, ⟨1, 0⟩] {}).1 = .ok [⟨0⟩, ⟨1⟩] ∧
      (lowerValues crossed.graph [⟨3, 0⟩, ⟨2, 0⟩] {}).1 = .ok [⟨1⟩, ⟨0⟩] ∧
      (lowerValues crossed.graph [⟨0, 0⟩, ⟨1, 0⟩] {}).2.emission.trace.text ≠
        (lowerValues crossed.graph [⟨3, 0⟩, ⟨2, 0⟩] {}).2.emission.trace.text := by
  refine ⟨crossed_builtIn, crossed_unsharded, crossed_sameValue, rfl, rfl, ?_⟩
  decide +kernel

/-- The two orders have one digest, and were not constructed in step. -/
theorem same_program_iff_inStep_crossed :
    (∃ digest, crossed.graph.digest [⟨0, 0⟩, ⟨1, 0⟩] = .ok digest ∧
        crossed.graph.digest [⟨3, 0⟩, ⟨2, 0⟩] = .ok digest) ∧
      ¬ crossed.graph.InStep crossed.graph [⟨0, 0⟩, ⟨1, 0⟩] [⟨3, 0⟩, ⟨2, 0⟩] := by
  have hvalues : ∀ root ∈ [(⟨0, 0⟩ : Value), ⟨1, 0⟩], crossed.graph.HasValue root := by
    simp [crossed_hasValue]
  have hvalues' : ∀ root ∈ [(⟨3, 0⟩ : Value), ⟨2, 0⟩], crossed.graph.HasValue root := by
    simp [crossed_hasValue]
  obtain ⟨hdigest, handles, after, handles', after', hrun, hrun', hiff, _⟩ :=
    same_program_iff_inStep crossed_builtIn crossed_builtIn crossed_unsharded crossed_unsharded
      hvalues hvalues' crossed_sameValue
  refine ⟨hdigest, fun hinStep => ?_⟩
  have hhandles : Except.ok [⟨0⟩, ⟨1⟩] = Except.ok handles := congrArg Prod.fst hrun
  have hhandles' : Except.ok [⟨1⟩, ⟨0⟩] = Except.ok handles' := congrArg Prod.fst hrun'
  have heq := (hiff.mpr hinStep).1
  rw [← Except.ok.inj hhandles, ← Except.ok.inj hhandles'] at heq
  cases heq

end Lowering

end TensorGraph
