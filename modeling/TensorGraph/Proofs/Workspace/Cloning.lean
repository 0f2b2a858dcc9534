import TensorGraph.Proofs.Graph.Structure
import TensorGraph.Proofs.Workspace.Shapes

/-! # Clones of whole graphs

The nodes below some roots can be cloned in order, each over the clones of its
operands. Every clone succeeds, as its request asks for the digest and the shape
of the original, and differs from the original in its operands alone.
-/

namespace TensorGraph

open Effects ListRelations

/-- The same output of the clone of its node, if there is one. -/
def Value.copied (copies : List (NodeId × NodeId)) (value : Value) : Value :=
  ⟨(copies.lookup value.node).getD value.node, value.index⟩

/-- The node over the clones of its operands, without annotations. -/
def Entry.copied (copies : List (NodeId × NodeId)) (entry : Entry) : Entry :=
  ⟨{ entry.node with operands := entry.node.operands.map (Value.copied copies) },
    entry.operation, {}⟩

/-- Clones the nodes in order, each over the clones of its operands so far. The pairs of a node and
its clone are collected behind those given. -/
def BuildM.cloneAll : List NodeId → List (NodeId × NodeId) → BuildM (List (NodeId × NodeId))
  | [], copies => return copies
  | id :: ids, copies => do
    let operands := (← get).graph.operandsOf id
    let copy ← clone id (operands.map (Value.copied copies))
    cloneAll ids (copies ++ [(id, copy)])

section Copied

variable {copies : List (NodeId × NodeId)} {value : Value}

theorem Value.mem_copies (hmem : value.node ∈ copies.map Prod.fst) :
    (value.node, (value.copied copies).node) ∈ copies := by
  obtain ⟨copy, hlookup⟩ := exists_lookup hmem
  rw [copied, hlookup]
  exact mem_of_lookup hlookup

/-- Later clones change nothing for a value whose node has been cloned. -/
theorem Value.copied_append (hmem : value.node ∈ copies.map Prod.fst)
    (later : List (NodeId × NodeId)) : value.copied (copies ++ later) = value.copied copies := by
  obtain ⟨copy, hlookup⟩ := exists_lookup hmem
  rw [copied, copied, List.lookup_append, hlookup, Option.some_or]

theorem Entry.copied_append {entry : Entry}
    (hoperands : ∀ operand ∈ entry.node.operands, operand.node ∈ copies.map Prod.fst)
    (later : List (NodeId × NodeId)) : entry.copied (copies ++ later) = entry.copied copies := by
  have hsame : entry.node.operands.map (Value.copied (copies ++ later)) =
      entry.node.operands.map (Value.copied copies) :=
    List.map_congr_left fun operand hmem => Value.copied_append (hoperands operand hmem) later
  rw [copied, copied, hsame]

end Copied

namespace Graph

/-- The values cannot be told apart by a node over them. -/
structure Alike (graph : Graph) (value value' : Value) : Prop where
  shape : graph.shapeOf value = graph.shapeOf value'
  digest : graph.subgraphDigestOf value = graph.subgraphDigestOf value'

/-- The clones stand in the order of the originals, over clones of the operands. -/
structure Copied (graph : Graph) (copies : List (NodeId × NodeId)) : Prop where
  entries : ∀ pair ∈ copies, ∃ entry, graph.entryAt? pair.1 = some entry ∧
    graph.entryAt? pair.2 = some (entry.copied copies) ∧
    ∀ operand ∈ entry.node.operands, operand.node ∈ copies.map Prod.fst
  inOrder : ∀ pair ∈ copies, ∀ pair' ∈ copies, pair.1 < pair'.1 ↔ pair.2 < pair'.2

end Graph

/-- Graph and cache have nothing but results in the ledger. -/
structure Workspace.Accounted (workspace : Workspace) (ledger : List ShapeDemand) : Prop where
  graph : workspace.graph.Accounted ledger
  cache : workspace.cache.Backed ledger

/-- After a program of built-in nodes, both have nothing but results of what was demanded. -/
theorem Workspace.accounted_run (capacity : Nat) (steps : List BuildStep)
    {records : List CallRecord} {workspace : Workspace}
    (hrun : Workspace.run steps { cache := { capacity } } = (records, workspace))
    (hcalls : ∀ record ∈ records, ∃ node, record.call = .build node)
    (hagree : Agreeing (demands records)) : workspace.Accounted (demands records) := by
  obtain ⟨hrecords, hgraph, hcache⟩ := Workspace.run_eq_of_agreeing capacity {} steps hrun hagree
  obtain rfl : records = (Graph.run steps {}).1 := hrecords
  have haccounted := (Graph.Accounted.empty []).run steps hcalls
  rw [← hgraph] at haccounted
  exact ⟨haccounted, hcache⟩

section Remake

/-- The request makes a node like that of the entry, over other operands. -/
structure Request.Remakes (request : Request) (entry : Entry) (operands : List Value) : Prop where
  node : ∀ digest, request.node entry.node.shape digest =
    { entry.node with operands, subgraphDigest := digest }
  operation : request.operation = entry.operation
  evaluate : request.evaluate = .ok entry.node.shape

variable {graph : Graph} {ledger : List ShapeDemand} {id : NodeId} {entry : Entry}
  {operands : List Value}

theorem Request.Remakes.ownDigest {request : Request} (hremakes : request.Remakes entry operands) :
    request.ownDigest = entry.node.ownDigest := by
  rw [← Request.ownDigest_node (Request.admits_of_evaluate hremakes.evaluate) 0, hremakes.node]
  rfl

/-- Over operands of the same digests it makes a node of the same digest. -/
theorem Request.Remakes.operandsDigest {request : Request}
    (hremakes : request.Remakes entry operands) (hgraph : graph.WellFormed)
    (hentry : graph.entryAt? id = some entry)
    (hoperands : List.Forall₂ graph.Alike entry.node.operands operands) :
    graph.operandsDigest request.ownDigest request.operands =
      .ok entry.node.subgraphDigest := by
  have hoperandsEq : request.operands = operands := congrArg Node.operands (hremakes.node 0)
  rw [hremakes.ownDigest, hoperandsEq, ← hgraph.digests id entry hentry]
  exact (Graph.operandsDigest_congr rfl (hoperands.imp fun _ _ halike => halike.digest)).symm

/-- The request of a clone makes a node like the original, if it is over operands of the same
shapes. -/
theorem Graph.Accounted.exists_remakes (hgraph : graph.Accounted ledger)
    (hentry : graph.entryAt? id = some entry)
    (hoperands : List.Forall₂ graph.Alike entry.node.operands operands) :
    ∃ request, graph.cloneRequest id operands = .ok request ∧
      request.Remakes entry operands := by
  obtain ⟨source, hsource, hoperation, shape, digest, hadmits, hnode⟩ :=
    hgraph.builtIn.made id entry hentry
  obtain ⟨shapes, hshapes, hgives⟩ := hgraph.shaped.derived id entry hentry
  have hlength := hoperands.length_eq
  have hshapes' : List.Forall₂ (fun operand shape => graph.shapeOf operand = .ok shape)
      operands shapes := by
    have hsame := mapM_congr_forall₂ (hoperands.imp fun _ _ halike => halike.shape)
    exact (mapM_eq_ok_iff _ _ _).mp (hsame.symm.trans ((mapM_eq_ok_iff _ _ _).mpr hshapes))
  rw [Graph.cloneRequest, (graph.entryAt_eq_ok_iff id entry).mpr hentry]
  obtain ⟨_, _, annotations⟩ := entry
  obtain rfl := hoperation
  obtain rfl := hnode
  dsimp only [bind, Except.bind]
  cases hsource with
  | deviceData name given =>
      obtain rfl := hadmits given rfl
      obtain rfl := List.forall₂_nil_left_iff.mp hoperands
      exact ⟨_, rfl, fun _ => rfl, rfl, rfl⟩
  | token =>
      obtain rfl := hadmits .token rfl
      obtain rfl := List.forall₂_nil_left_iff.mp hoperands
      exact ⟨_, rfl, fun _ => rfl, rfl, rfl⟩
  | allReduce reduction operand given =>
      obtain rfl := hadmits given rfl
      obtain rfl : shapes = [shape] := hgives
      obtain ⟨operand', rest, hshape, hrest, rfl⟩ := List.forall₂_cons_right_iff.mp hshapes'
      obtain rfl := List.forall₂_nil_right_iff.mp hrest
      refine ⟨.allReduce reduction operand' shape, ?_, fun _ => rfl, rfl, rfl⟩
      simp [Request.allReduce, Request.node, hshape, pure, Except.pure]
  | orderedAllReduce earlier reduction others ordering pinned =>
      obtain rfl : shape = .tuple shapes := hgives
      obtain ⟨front, last, rfl⟩ : ∃ front last, operands = front ++ [last] := by
        have hoperands : List.Forall₂ graph.Alike (others ++ [ordering]) operands := hoperands
        obtain ⟨front, last, _, _, heq⟩ := (forall₂_concat_iff _ _ _).mp hoperands
        exact ⟨front, last, heq⟩
      have hcompute := (Request.shapesOf_eq_ok_iff graph _ _).mpr ⟨shapes, hshapes', rfl⟩
      have hfront : others.length = front.length := by
        have hlength : (others ++ [ordering]).length = (front ++ [last]).length := hlength
        simpa using hlength
      refine ⟨.orderedAllReduce graph reduction front last pinned, ?_, fun digest => ?_, rfl, ?_⟩
      · simp [Request.orderedAllReduce, Request.node, hfront]
      · simp [Request.orderedAllReduce, Request.node, hfront, ShapeSource.given?]
      · simp only [Request.evaluate, Request.orderedAllReduce, hcompute, Except.mapError]
        rfl

/-- Without a cache the node is cloned with its shape and digest. -/
theorem Graph.Accounted.entryIn_clone (hgraph : graph.Accounted ledger)
    (hentry : graph.entryAt? id = some entry)
    (hoperands : List.Forall₂ graph.Alike entry.node.operands operands) :
    (NodeCall.build (.clone id operands)).entryIn graph =
      .ok ⟨{ entry.node with operands }, entry.operation, {}⟩ := by
  obtain ⟨request, hrequest, hremakes⟩ := hgraph.exists_remakes hentry hoperands
  have hdigest := hremakes.operandsDigest hgraph.builtIn.wellFormed hentry hoperands
  have houtputs : request.outputs = entry.node.outputs :=
    congrArg Node.outputs (hremakes.node 0)
  have hfits : request.Fits entry.node.shape := by
    rw [Request.Fits, houtputs]
    exact hgraph.shaped.regular id entry hentry
  have hmade := (request.entryIn_eq_ok_iff graph _).mpr
    ⟨_, _, hdigest, hremakes.evaluate, hfits, rfl⟩
  rw [hremakes.node, hremakes.operation] at hmade
  rw [NodeCall.entryIn, NodeCall.requestIn, BuiltInNode.requestIn, hrequest]
  exact hmade

/-- A clone demands no more than the shape that was demanded for the original. -/
theorem Graph.Accounted.demand?_clone (hgraph : graph.Accounted ledger)
    (hentry : graph.entryAt? id = some entry)
    (hoperands : List.Forall₂ graph.Alike entry.node.operands operands) {demand : ShapeDemand}
    (hdemand : (NodeCall.build (.clone id operands)).demand? graph = some demand) :
    demand ∈ ledger := by
  obtain ⟨request, hrequest, hremakes⟩ := hgraph.exists_remakes hentry hoperands
  have hdigest := hremakes.operandsDigest hgraph.builtIn.wellFormed hentry hoperands
  simp only [NodeCall.demand?, NodeCall.requestIn, BuiltInNode.requestIn, hrequest] at hdemand
  have hgiven : request.source.given?.isSome = entry.node.shapeGiven :=
    congrArg Node.shapeGiven (hremakes.node 0)
  cases hsource : request.source with
  | given shape =>
      rw [Request.demand?, hsource] at hdemand
      cases hdemand
  | computed compute =>
      rw [Request.demand?_eq_some hsource hdigest,
        Request.compute_of_evaluate hsource hremakes.evaluate] at hdemand
      rw [hsource] at hgiven
      exact Option.some.inj hdemand ▸ hgraph.computed id entry hentry hgiven.symm

/-- In a workspace, too, a clone over operands like those of the original succeeds. -/
theorem Workspace.Accounted.clone {workspace : Workspace} (hworkspace : workspace.Accounted ledger)
    (hagree : Agreeing ledger) (hentry : workspace.graph.entryAt? id = some entry)
    (hoperands : List.Forall₂ workspace.graph.Alike entry.node.operands operands) :
    ∃ after, BuildM.clone id operands workspace = (.ok workspace.graph.size, after) ∧
      after.graph = workspace.graph.push ⟨{ entry.node with operands }, entry.operation, {}⟩ ∧
      after.Accounted ledger := by
  have hdemand : ∀ demand,
      (NodeCall.build (.clone id operands)).demand? workspace.graph = some demand →
        demand ∈ ledger := fun _ => hworkspace.graph.demand?_clone hentry hoperands
  have hledger : ledger ++
      ((NodeCall.build (.clone id operands)).demand? workspace.graph).toList ⊆ ledger := by
    refine List.append_subset.mpr ⟨List.Subset.refl _, fun demand hmem => ?_⟩
    exact hdemand demand (Option.mem_toList.mp hmem)
  obtain ⟨hanswer, hafter⟩ := hworkspace.cache.run_eq (.build (.clone id operands))
    fun demand hmem shape hshape => hagree.result_eq (hdemand demand hmem) hshape
  have hgraph := (hworkspace.graph.call (.clone id operands)).mono hledger
  have hcache := (hworkspace.cache.run_call (.build (.clone id operands))).mono hledger
  rw [← hafter] at hgraph
  rw [hworkspace.graph.entryIn_clone hentry hoperands] at hanswer hafter
  exact ⟨_, Prod.ext hanswer rfl, hafter, hgraph, hcache⟩

end Remake

namespace Graph.Copied

variable {graph : Graph} {copies : List (NodeId × NodeId)}

theorem empty (graph : Graph) : graph.Copied [] where
  entries _ hmem := absurd hmem List.not_mem_nil
  inOrder _ hmem := absurd hmem List.not_mem_nil

/-- A value is like the same output of the clone of its node. -/
theorem alike (hcopied : graph.Copied copies) {value : Value}
    (hmem : value.node ∈ copies.map Prod.fst) : graph.Alike value (value.copied copies) := by
  obtain ⟨entry, hentry, hcopy, _⟩ := hcopied.entries _ (Value.mem_copies hmem)
  constructor
  · rw [shapeOf, shapeOf, entryAt, entryAt, hentry, hcopy]
    rfl
  · rw [subgraphDigestOf_of_some hentry, subgraphDigestOf_of_some hcopy]
    rfl

/-- The next node may be cloned after those below it. -/
theorem push (hcopied : graph.Copied copies) {id : NodeId} {entry : Entry}
    (hentry : graph.entryAt? id = some entry) (hbelow : ∀ pair ∈ copies, pair.1 < id)
    (hoperands : ∀ operand ∈ entry.node.operands, operand.node ∈ copies.map Prod.fst) :
    (graph.push (entry.copied copies)).Copied (copies ++ [(id, graph.size)]) where
  entries := by
    have hkeys : ∀ {operand : Value}, operand.node ∈ copies.map Prod.fst →
        operand.node ∈ (copies ++ [(id, graph.size)]).map Prod.fst := fun hmem => by
      rw [List.map_append]
      exact List.mem_append_left _ hmem
    intro pair hmem
    rcases List.mem_append.mp hmem with hmem | hmem
    · obtain ⟨found, hfound, hcopy, hknown⟩ := hcopied.entries pair hmem
      refine ⟨found, entryAt?_push_of_some hfound _, ?_, fun operand hoperand =>
        hkeys (hknown operand hoperand)⟩
      rw [Entry.copied_append hknown]
      exact entryAt?_push_of_some hcopy _
    · obtain rfl := List.mem_singleton.mp hmem
      refine ⟨entry, entryAt?_push_of_some hentry _, ?_, fun operand hoperand =>
        hkeys (hoperands operand hoperand)⟩
      rw [Entry.copied_append hoperands, entryAt?_push, if_pos rfl]
  inOrder := by
    have hlast : ∀ pair ∈ copies, pair.1 < id ∧ pair.2 < graph.size := fun pair hmem => by
      obtain ⟨_, _, hcopy, _⟩ := hcopied.entries pair hmem
      exact ⟨hbelow pair hmem, entryAt?_lt hcopy⟩
    intro pair hmem pair' hmem'
    rcases List.mem_append.mp hmem with hmem | hmem <;>
      rcases List.mem_append.mp hmem' with hmem' | hmem'
    · exact hcopied.inOrder pair hmem pair' hmem'
    · obtain rfl := List.mem_singleton.mp hmem'
      exact iff_of_true (hlast pair hmem).1 (hlast pair hmem).2
    · obtain rfl := List.mem_singleton.mp hmem
      obtain ⟨hid, hsize⟩ := hlast pair' hmem'
      exact iff_of_false (Nat.lt_asymm hid) (Nat.lt_asymm hsize)
    · obtain rfl := List.mem_singleton.mp hmem
      obtain rfl := List.mem_singleton.mp hmem'
      exact iff_of_false (Nat.lt_irrefl _) (Nat.lt_irrefl _)

end Graph.Copied

/-- The next node is cloned over the clones of its operands. -/
theorem Workspace.Accounted.cloneNext {workspace : Workspace} {ledger : List ShapeDemand}
    (hworkspace : workspace.Accounted ledger) (hagree : Agreeing ledger)
    {copies : List (NodeId × NodeId)} (hcopied : workspace.graph.Copied copies) {id : NodeId}
    {entry : Entry} (hentry : workspace.graph.entryAt? id = some entry)
    (hbelow : ∀ pair ∈ copies, pair.1 < id)
    (hoperands : ∀ operand ∈ entry.node.operands, operand.node ∈ copies.map Prod.fst) :
    ∃ after,
      BuildM.clone id (entry.node.operands.map (Value.copied copies)) workspace =
        (.ok workspace.graph.size, after) ∧
      after.graph = workspace.graph.push (entry.copied copies) ∧ after.Accounted ledger ∧
      after.graph.Copied (copies ++ [(id, workspace.graph.size)]) := by
  have halike : List.Forall₂ workspace.graph.Alike entry.node.operands
      (entry.node.operands.map (Value.copied copies)) := by
    refine List.forall₂_map_right_iff.mpr (List.forall₂_same.mpr fun operand hmem => ?_)
    exact hcopied.alike (hoperands operand hmem)
  obtain ⟨after, hclone, hgraph, hafter⟩ := hworkspace.clone hagree hentry halike
  exact ⟨after, hclone, hgraph, hafter, hgraph ▸ hcopied.push hentry hbelow hoperands⟩

/-- Cloning the rest of an increasing list of nodes that reads nothing else succeeds. The induction
is on the rest; what has been cloned is the front of the list. -/
theorem Workspace.Accounted.cloneAll {workspace : Workspace} {ledger : List ShapeDemand}
    (hworkspace : workspace.Accounted ledger) (hagree : Agreeing ledger) (ids : List NodeId)
    (copies : List (NodeId × NodeId)) (hcopied : workspace.graph.Copied copies)
    (hsorted : (copies.map Prod.fst ++ ids).Pairwise (· < ·))
    (hknown : ∀ id ∈ ids, id < workspace.graph.size)
    (hclosed : ∀ id ∈ ids, ∀ operand, workspace.graph.Reads id operand →
      operand ∈ copies.map Prod.fst ++ ids) :
    ∃ copies' after, BuildM.cloneAll ids copies workspace = (.ok copies', after) ∧
      copies'.map Prod.fst = copies.map Prod.fst ++ ids ∧ after.graph.Copied copies' ∧
      (∀ id entry, workspace.graph.entryAt? id = some entry →
        after.graph.entryAt? id = some entry) ∧ after.Accounted ledger := by
  induction ids generalizing workspace copies with
  | nil =>
      exact ⟨copies, workspace, rfl, (List.append_nil _).symm, hcopied, fun _ _ h => h, hworkspace⟩
  | cons id ids ih =>
      obtain ⟨entry, hentry⟩ := Graph.exists_entryAt? (hknown id List.mem_cons_self)
      -- the operands are earlier nodes of the list, so they stand in its front
      have hoperands : ∀ operand ∈ entry.node.operands, operand.node ∈ copies.map Prod.fst := by
        intro operand hmem
        have hlt := hworkspace.graph.builtIn.wellFormed.ordered id entry hentry operand hmem
        have hread := hclosed id List.mem_cons_self _ (.of_mem hentry hmem)
        exact (mem_front_iff hsorted _).mpr ⟨hread, hlt⟩
      have hbelow : ∀ pair ∈ copies, pair.1 < id := fun pair hmem =>
        (List.pairwise_append.mp hsorted).2.2 _ (List.mem_map_of_mem hmem) id List.mem_cons_self
      obtain ⟨next, hclone, hgraph, hnext, hcopied'⟩ :=
        hworkspace.cloneNext hagree hcopied hentry hbelow hoperands
      have hextends : next.graph.Extends workspace.graph := hgraph ▸ .push _ _
      have hkeys : (copies ++ [(id, workspace.graph.size)]).map Prod.fst ++ ids =
          copies.map Prod.fst ++ id :: ids := by simp
      obtain ⟨copies', after, hrun, hfst, hfinal, hkept, hafter⟩ :=
        ih hnext (copies ++ [(id, workspace.graph.size)]) hcopied' (hkeys ▸ hsorted)
          (fun other hmem =>
            Nat.lt_of_lt_of_le (hknown other (List.mem_cons_of_mem _ hmem)) hextends.size_le)
          (fun other hmem operand hreads => by
            have hother := List.mem_cons_of_mem id hmem
            rw [hextends.reads_iff (hknown other hother)] at hreads
            rw [hkeys]
            exact hclosed other hother operand hreads)
      refine ⟨copies', after, ?_, hfst.trans hkeys, hfinal, fun other found hfound => ?_, hafter⟩
      · rw [BuildM.cloneAll, run_bind_ok (run_get workspace), Graph.operandsOf_eq hentry,
          run_bind_ok hclone]
        exact hrun
      · refine hkept other found ?_
        rw [hgraph]
        exact Graph.entryAt?_push_of_some hfound _

end TensorGraph
