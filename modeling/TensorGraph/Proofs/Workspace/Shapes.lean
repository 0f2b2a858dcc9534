import TensorGraph.Proofs.Graph.Shapes
import TensorGraph.Proofs.Workspace.Transparency

/-! # Shapes of constructed nodes

A program of built-in nodes gives every node the shape that follows from its
operands, and what it computed for that was demanded under the digest of the node.
-/

namespace TensorGraph

open Effects ListRelations

namespace Request

theorem shapesOf_eq_ok_iff (graph : Graph) (values : List Value) (shape : Shape) :
    shapesOf graph values = .ok shape ↔
      ∃ shapes, List.Forall₂ (fun value shape => graph.shapeOf value = .ok shape) values shapes ∧
        shape = .tuple shapes := by
  rw [shapesOf]
  cases hshapes : values.mapM graph.shapeOf with
  | error fault =>
      simp only [bind, Except.bind, reduceCtorEq, false_iff, not_exists, not_and]
      intro shapes hvalues
      rw [(mapM_eq_ok_iff _ _ _).mpr hvalues] at hshapes
      cases hshapes
  | ok found =>
      simp only [bind, Except.bind, pure, Except.pure, Except.ok.injEq]
      constructor
      · rintro rfl
        exact ⟨found, (mapM_eq_ok_iff _ _ _).mp hshapes, rfl⟩
      · rintro ⟨shapes, hvalues, rfl⟩
        rw [(mapM_eq_ok_iff _ _ _).mpr hvalues] at hshapes
        rw [Except.ok.inj hshapes]

/-- A computed shape is the result of the computation. -/
theorem compute_of_evaluate {request : Request} {compute : Unit → Except Fault Shape}
    (hsource : request.source = .computed compute) {shape : Shape}
    (hevaluate : request.evaluate = .ok shape) : compute () = .ok shape := by
  simp only [evaluate, hsource] at hevaluate
  cases hcompute : compute () with
  | error fault =>
      rw [hcompute] at hevaluate
      cases hevaluate
  | ok found =>
      rw [hcompute] at hevaluate
      exact hevaluate

theorem admits_of_evaluate {request : Request} {shape : Shape}
    (hevaluate : request.evaluate = .ok shape) : request.Admits shape := by
  intro given hgiven
  rw [evaluate, hgiven] at hevaluate
  exact (Except.ok.inj hevaluate).symm

/-- What a built-in request computes is what its operation gives for the operands. -/
theorem BuiltInOver.gives {graph : Graph} {request : Request}
    (hrequest : request.BuiltInOver graph) {shape : Shape}
    (hevaluate : request.evaluate = .ok shape) :
    ∃ shapes, List.Forall₂ (fun operand shape => graph.shapeOf operand = .ok shape)
      request.operands shapes ∧ request.operation.Gives shapes shape := by
  cases hrequest with
  | deviceData name given => exact ⟨[], .nil, trivial⟩
  | token => exact ⟨[], .nil, (Except.ok.inj hevaluate).symm⟩
  | allReduce reduction hshape =>
      obtain rfl := Except.ok.inj hevaluate
      exact ⟨[_], .cons hshape .nil, rfl⟩
  | orderedAllReduce reduction operands token pinned =>
      have hcompute := compute_of_evaluate rfl hevaluate
      exact (shapesOf_eq_ok_iff graph (operands ++ [token]) shape).mp hcompute

end Request

namespace Graph

/-- A graph of built-in operations whose computed shapes are results in the ledger. -/
structure Accounted (graph : Graph) (ledger : List ShapeDemand) : Prop where
  builtIn : graph.BuiltIn
  shaped : graph.Shaped
  computed : ∀ id entry, graph.entryAt? id = some entry → entry.node.shapeGiven = false →
    ⟨entry.node.subgraphDigest, .ok entry.node.shape⟩ ∈ ledger

namespace Accounted

variable {graph : Graph} {ledger : List ShapeDemand}

theorem empty (ledger : List ShapeDemand) : Accounted {} ledger where
  builtIn := .empty
  shaped := .empty
  computed := by intro id entry hentry; simp [entryAt?] at hentry

theorem mono (hgraph : graph.Accounted ledger) {later : List ShapeDemand}
    (hledger : ledger ⊆ later) : graph.Accounted later where
  builtIn := hgraph.builtIn
  shaped := hgraph.shaped
  computed id entry hentry hgiven := hledger (hgraph.computed id entry hentry hgiven)

theorem append (hgraph : graph.Accounted ledger) (later : List ShapeDemand) :
    graph.Accounted (ledger ++ later) :=
  hgraph.mono (List.subset_append_left ledger later)

theorem afterStep (hgraph : graph.Accounted ledger) (id : NodeId) (step : AnnotationStep) :
    (graph.afterStep id step).Accounted ledger where
  builtIn := hgraph.builtIn.afterStep id step
  shaped := afterStep_preserves Shaped hgraph.shaped id step (hgraph.shaped.annotate id)
  computed := by
    intro other found hfound hgiven
    obtain ⟨annotations, hentry⟩ := entryAt?_of_afterStep hfound
    have hmem := hgraph.computed other _ hentry hgiven
    exact hmem

/-- The node of a built-in request over the graph may be appended if its demand is accounted for. -/
theorem push (hgraph : graph.Accounted ledger) {request : Request}
    (hrequest : request.BuiltInOver graph) {entry : Entry}
    (hentry : request.entryIn graph = .ok entry) :
    (graph.push entry).Accounted (ledger ++ (request.demand? graph).toList) := by
  obtain ⟨digest, shape, hdigest, hevaluate, hfits, rfl⟩ :=
    (request.entryIn_eq_ok_iff graph entry).mp hentry
  obtain ⟨shapes, hshapes, hgives⟩ := hrequest.gives hevaluate
  refine ⟨hgraph.builtIn.push hrequest.isBuiltIn (hasValue_of_forall₂_shapeOf hshapes)
    (Request.admits_of_evaluate hevaluate) hdigest, hgraph.shaped.push hfits hshapes hgives, ?_⟩
  intro id found hfound hgiven
  rw [entryAt?_push] at hfound
  split at hfound
  · obtain rfl := Option.some.inj hfound
    -- the shape was not given, so the request demanded it under the digest of the node
    cases hsource : request.source with
    | given given =>
        rw [Request.node, hsource] at hgiven
        cases hgiven
    | computed compute =>
        rw [Request.demand?_eq_some hsource hdigest, Request.compute_of_evaluate hsource hevaluate]
        exact List.mem_append_right _ List.mem_cons_self
  · exact List.mem_append_left _ (hgraph.computed id found hfound hgiven)

/-- A call for a built-in node keeps the graph accounted for. -/
theorem call (hgraph : graph.Accounted ledger) (node : BuiltInNode) :
    (graph.append ((NodeCall.build node).entryIn graph)).2.Accounted
      (ledger ++ ((NodeCall.build node).demand? graph).toList) := by
  rw [NodeCall.entryIn, NodeCall.demand?]
  cases hrequest : (NodeCall.build node).requestIn graph with
  | error fault => exact hgraph.append _
  | ok request =>
      have hover := BuiltInNode.builtInOver_of_requestIn hgraph.builtIn hrequest
      change (graph.append (request.entryIn graph)).2.Accounted
        (ledger ++ (request.demand? graph).toList)
      cases hentry : request.entryIn graph with
      | error fault => exact hgraph.append _
      | ok entry => exact hgraph.push hover hentry

/-- A program of built-in nodes keeps the graph accounted for. -/
theorem run (hgraph : graph.Accounted ledger) (steps : List BuildStep)
    (hcalls : ∀ record ∈ (graph.run steps).1, ∃ node, record.call = .build node) :
    (graph.run steps).2.Accounted (ledger ++ demands (graph.run steps).1) := by
  induction steps generalizing graph ledger with
  | nil => exact hgraph.append _
  | cons step steps ih =>
      cases step with
      | construct call =>
          rw [Graph.run_construct] at hcalls ⊢
          obtain ⟨node, hnode⟩ := hcalls _ List.mem_cons_self
          have hnext := hgraph.call node
          rw [← hnode] at hnext
          rw [demands_cons, ← List.append_assoc]
          exact ih hnext fun record hmem => hcalls record (List.mem_cons_of_mem _ hmem)
      | annotate id step => exact ih (hgraph.afterStep id step) hcalls
      | clearCache => exact ih hgraph hcalls

end Accounted

end Graph

section Reductions

variable {graph : Graph} {ledger : List ShapeDemand} {call : NodeCall} {shapes : List Shape}

/-- The calls for inputs that are arrays, for tokens and for reductions of values of the graph. -/
inductive NodeCall.Reduces (graph : Graph) : NodeCall → Prop
  | deviceData (name : String) (elementType : ElementType) (dims : List Int) :
      Reduces graph (.build (.deviceData name (.array elementType dims)))
  | token : Reduces graph (.build .token)
  | allReduce (reduction : Reduction) {operand : Value} :
      graph.HasValue operand → Reduces graph (.build (.allReduce reduction operand))
  | orderedAllReduce (reduction : Reduction) {operands : List Value} {ordering : Value}
      (pinned : Bool) : (∀ operand ∈ operands, graph.HasValue operand) → graph.HasValue ordering →
      Reduces graph (.build (.orderedAllReduce reduction operands ordering pinned))

/-- The shapes of the outputs that the call is for. A reduction has an output for each operand, the
ordering one last. -/
inductive NodeCall.Promises (graph : Graph) : NodeCall → List Shape → Prop
  | deviceData (name : String) (elementType : ElementType) (dims : List Int) :
      Promises graph (.build (.deviceData name (.array elementType dims)))
        [.array elementType dims]
  | token : Promises graph (.build .token) [.token]
  | allReduce (reduction : Reduction) {operand : Value} {shape : Shape} :
      graph.shapeOf operand = .ok shape →
      Promises graph (.build (.allReduce reduction operand)) [shape]
  | orderedAllReduce (reduction : Reduction) {operands : List Value} {ordering : Value}
      {shapes : List Shape} (pinned : Bool) :
      List.Forall₂ (fun operand shape => graph.shapeOf operand = .ok shape)
        (operands ++ [ordering]) shapes →
      Promises graph (.build (.orderedAllReduce reduction operands ordering pinned)) shapes

/-- The outputs of the node have the shapes. -/
structure Node.HasOutputs (node : Node) (shapes : List Shape) : Prop where
  outputs : node.outputs = shapes.length
  shapeAt : ∀ index shape, shapes[index]? = some shape → node.shapeAt index = .ok shape

/-- The call was answered with the next node, whose outputs have the shapes. -/
def CallRecord.Constructs (record : CallRecord) (shapes : List Shape) : Prop :=
  record.answer = .ok record.before.size ∧
    ∃ entry, record.after.entryAt? record.before.size = some entry ∧
      entry.node.outputs = shapes.length ∧
      ∀ index shape, shapes[index]? = some shape →
        record.after.shapeOf ⟨record.before.size, index⟩ = .ok shape

theorem NodeCall.Reduces.exists_promises (hgraph : graph.Shaped) (hcall : call.Reduces graph) :
    ∃ shapes, call.Promises graph shapes := by
  cases hcall with
  | deviceData name elementType dims => exact ⟨_, .deviceData name elementType dims⟩
  | token => exact ⟨_, .token⟩
  | allReduce reduction hoperand =>
      obtain ⟨shape, hshape⟩ := Graph.Regular.exists_shapeOf hgraph.regular hoperand
      exact ⟨_, .allReduce reduction hshape⟩
  | @orderedAllReduce reduction operands ordering pinned hoperands hordering =>
      obtain ⟨shapes, hshapes⟩ : ∃ shapes, List.Forall₂
          (fun operand shape => graph.shapeOf operand = .ok shape)
          (operands ++ [ordering]) shapes := by
        refine exists_forall₂ fun operand hmem =>
          Graph.Regular.exists_shapeOf hgraph.regular ?_
        rcases List.mem_append.mp hmem with hmem | hmem
        · exact hoperands operand hmem
        · exact List.mem_singleton.mp hmem ▸ hordering
      exact ⟨_, .orderedAllReduce reduction pinned hshapes⟩

theorem NodeCall.Reduces.exists_build (hcall : call.Reduces graph) :
    ∃ node, call = .build node ∧ ∀ operand ∈ node.operands, graph.HasValue operand := by
  cases hcall with
  | deviceData name elementType dims => exact ⟨_, rfl, List.forall_mem_nil _⟩
  | token => exact ⟨_, rfl, List.forall_mem_nil _⟩
  | allReduce reduction hoperand => exact ⟨_, rfl, List.forall_mem_singleton.mpr hoperand⟩
  | orderedAllReduce reduction pinned hoperands hordering =>
      exact ⟨_, rfl, List.forall_mem_append.mpr
        ⟨hoperands, List.forall_mem_singleton.mpr hordering⟩⟩

/-- A node with a single output of an array shape has that shape as output. -/
theorem Node.hasOutputs_of_not_isTuple {node : Node} (houtputs : node.outputs = 1)
    (harray : node.shape.isTuple = false) : node.HasOutputs [node.shape] where
  outputs := houtputs
  shapeAt := by
    intro index shape hshape
    obtain ⟨hindex, rfl⟩ := List.getElem?_eq_some_iff.mp hshape
    rw [List.length_singleton, ← houtputs] at hindex
    rw [List.getElem_singleton]
    exact shapeAt_of_not_isTuple hindex harray

/-- A node with a tuple for its outputs has the entries as outputs. -/
theorem Node.hasOutputs_of_tuple {node : Node} (houtputs : node.outputs = shapes.length)
    (htuple : node.shape = .tuple shapes) : node.HasOutputs shapes where
  outputs := houtputs
  shapeAt := by
    intro index shape hshape
    have hindex := (List.getElem?_eq_some_iff.mp hshape).1
    exact shapeAt_of_tuple (houtputs ▸ hindex) htuple hshape

/-- Without a cache a request over nodes of the graph succeeds if its outputs fit the shape. -/
theorem Request.exists_entryIn (graph : Graph) (request : Request)
    (hoperands : ∀ operand ∈ request.operands, operand.node < graph.size) {shape : Shape}
    (hevaluate : request.evaluate = .ok shape) (hfits : request.Fits shape) :
    ∃ digest, request.entryIn graph =
      .ok ⟨request.node shape digest, request.operation, {}⟩ := by
  obtain ⟨digest, hdigest⟩ := Graph.exists_operandsDigest hoperands request.ownDigest
  exact ⟨digest, (request.entryIn_eq_ok_iff graph _).mpr
    ⟨digest, shape, hdigest, hevaluate, hfits, rfl⟩⟩

/-- Without a cache the calls succeed, with the outputs that they promise. -/
theorem NodeCall.Promises.entryIn (hgraph : graph.Accounted ledger) (hplain : graph.PlainInputs)
    (hcall : call.Promises graph shapes) :
    ∃ entry, call.entryIn graph = .ok entry ∧ entry.node.HasOutputs shapes ∧
      ∀ name, entry.operation = .deviceData name → entry.node.shape.isTuple = false := by
  cases hcall with
  | deviceData name elementType dims =>
      obtain ⟨digest, hentry⟩ := Request.exists_entryIn graph
        (.deviceData name (.array elementType dims)) (by simp [Request.deviceData]) rfl
        ⟨Nat.one_ne_zero, rfl⟩
      exact ⟨_, hentry, Node.hasOutputs_of_not_isTuple rfl rfl, fun _ _ => rfl⟩
  | token =>
      obtain ⟨digest, hentry⟩ := Request.exists_entryIn graph .token (by simp [Request.token]) rfl
        ⟨Nat.one_ne_zero, rfl⟩
      exact ⟨_, hentry, Node.hasOutputs_of_not_isTuple rfl rfl, fun _ _ => rfl⟩
  | @allReduce reduction operand shape hshape =>
      have harray : shape.isTuple = false :=
        hgraph.shaped.not_isTuple_of_shapeOf hgraph.builtIn.wellFormed.ordered hplain hshape
      obtain ⟨digest, hentry⟩ := Request.exists_entryIn graph (.allReduce reduction operand shape)
        (List.forall_mem_singleton.mpr (Graph.hasValue_of_shapeOf hshape).node_lt) rfl
        ⟨Nat.one_ne_zero, by simp [Request.outputsFit, Request.allReduce, harray]⟩
      have hcall : (NodeCall.build (.allReduce reduction operand)).entryIn graph =
          (Request.allReduce reduction operand shape).entryIn graph := by
        rw [NodeCall.entryIn, NodeCall.requestIn, BuiltInNode.requestIn, hshape]
        rfl
      refine ⟨_, hcall.trans hentry, Node.hasOutputs_of_not_isTuple rfl harray, ?_⟩
      intro name hother
      cases hother
  | @orderedAllReduce reduction operands ordering shapes pinned hshapes =>
      have hlength : operands.length + 1 = shapes.length := by
        rw [← hshapes.length_eq, List.length_append, List.length_singleton]
      have hevaluate :
          (Request.orderedAllReduce graph reduction operands ordering pinned).evaluate =
            .ok (.tuple shapes) := by
        have hcompute := (Request.shapesOf_eq_ok_iff graph (operands ++ [ordering]) _).mpr
          ⟨shapes, hshapes, rfl⟩
        simp only [Request.evaluate, Request.orderedAllReduce, hcompute, Except.mapError]
      have hfits : (Request.orderedAllReduce graph reduction operands ordering pinned).Fits
          (.tuple shapes) := by
        refine ⟨Nat.succ_ne_zero _, ?_⟩
        rw [Request.orderedAllReduce, hlength]
        exact Request.outputsFit_tuple shapes
      obtain ⟨digest, hentry⟩ := Request.exists_entryIn graph _
        (fun operand hmem => (Graph.hasValue_of_forall₂_shapeOf hshapes operand hmem).node_lt)
        hevaluate hfits
      refine ⟨_, hentry, Node.hasOutputs_of_tuple hlength rfl, ?_⟩
      intro name hother
      cases hother

/-- Without a cache a program of inputs, tokens and reductions of them constructs all that it asks
for. -/
theorem Graph.Accounted.run_reduces (hgraph : graph.Accounted ledger)
    (hplain : graph.PlainInputs) (steps : List BuildStep)
    (hcalls : ∀ record ∈ (graph.run steps).1, record.call.Reduces record.before) :
    (∀ record ∈ (graph.run steps).1, ∃ shapes, record.call.Promises record.before shapes ∧
        record.Constructs shapes) ∧
      (graph.run steps).2.Accounted (ledger ++ demands (graph.run steps).1) ∧
      (graph.run steps).2.PlainInputs := by
  induction steps generalizing graph ledger with
  | nil => exact ⟨fun record hmem => absurd hmem List.not_mem_nil, hgraph.append _, hplain⟩
  | cons step steps ih =>
      cases step with
      | construct call =>
          rw [Graph.run_construct] at hcalls ⊢
          have hcall : (call graph).Reduces graph := hcalls _ List.mem_cons_self
          obtain ⟨shapes, hpromises⟩ := hcall.exists_promises hgraph.shaped
          obtain ⟨entry, hentry, houtputs, harray⟩ := hpromises.entryIn hgraph hplain
          obtain ⟨node, hnode, _⟩ := hcall.exists_build
          have hnext := hgraph.call node
          rw [← hnode, hentry] at hnext
          dsimp only at hcalls ⊢
          rw [hentry] at hcalls ⊢
          obtain ⟨hrecords, hfinal, hinputs⟩ := ih hnext (hplain.push harray)
            fun record hmem => hcalls record (List.mem_cons_of_mem _ hmem)
          rw [demands_cons, ← List.append_assoc]
          refine ⟨fun record hmem => ?_, hfinal, hinputs⟩
          rcases List.mem_cons.mp hmem with rfl | hmem
          · have hfound : (graph.push entry).entryAt? graph.size = some entry := by
              rw [Graph.entryAt?_push, if_pos rfl]
            refine ⟨shapes, hpromises, rfl, entry, hfound, houtputs.outputs, ?_⟩
            intro index shape hshape
            exact Graph.shapeOf_eq_shapeAt hfound (houtputs.shapeAt index shape hshape)
          · exact hrecords record hmem
      | annotate id step => exact ih (hgraph.afterStep id step) (hplain.afterStep id step) hcalls
      | clearCache => exact ih hgraph hplain hcalls

/-- A program of inputs, tokens and reductions leaves a workspace of built-in operations. -/
theorem Workspace.builtIn_run {workspace : Workspace} (hworkspace : workspace.BuiltIn)
    (steps : List BuildStep)
    (hcalls : ∀ record ∈ (workspace.run steps).1, record.call.Reduces record.before) :
    (workspace.run steps).2.BuiltIn := by
  induction steps generalizing workspace with
  | nil => exact hworkspace
  | cons step steps ih =>
      cases step with
      | construct call =>
          rw [Workspace.run_construct] at hcalls ⊢
          have hcall : (call workspace.graph).Reduces workspace.graph :=
            hcalls _ List.mem_cons_self
          obtain ⟨node, hnode, hoperands⟩ := hcall.exists_build
          have hnext : (NodeCall.run (.build node) workspace).2.BuiltIn :=
            hworkspace.step (.build node hoperands)
          rw [← hnode] at hnext
          exact ih hnext fun record hmem => hcalls record (List.mem_cons_of_mem _ hmem)
      | annotate id step => exact ih (hworkspace.step (.annotate workspace id step)) hcalls
      | clearCache => exact ih (hworkspace.step (.share workspace _)) hcalls

end Reductions

end TensorGraph
