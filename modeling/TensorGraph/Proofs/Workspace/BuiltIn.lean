import TensorGraph.Proofs.Graph.AnnotationSteps
import TensorGraph.Proofs.Graph.Identity
import TensorGraph.Proofs.Workspace.Construction

/-! # Workspaces of built-in operations

The constructors of the built-in operations and clones of their nodes are all
requests of four forms. A workspace made by them keeps a well-formed graph in
which every node carries the parts of the request that made it. Operands are
values of the graph, so every node reads outputs.
-/

namespace TensorGraph

open Effects

/-- The requests that the constructors of the built-in operations make. -/
inductive Request.IsBuiltIn : Request → Prop
  | deviceData (name : String) (shape : Shape) : IsBuiltIn (.deviceData name shape)
  | token : IsBuiltIn .token
  | allReduce (reduction : Reduction) (operand : Value) (shape : Shape) :
      IsBuiltIn (.allReduce reduction operand shape)
  | orderedAllReduce (graph : Graph) (reduction : Reduction) (operands : List Value)
      (token : Value) (pinned : Bool) :
      IsBuiltIn (.orderedAllReduce graph reduction operands token pinned)

/-- The built-in requests whose shapes are those of values of the graph. -/
inductive Request.BuiltInOver (graph : Graph) : Request → Prop
  | deviceData (name : String) (shape : Shape) : BuiltInOver graph (.deviceData name shape)
  | token : BuiltInOver graph .token
  | allReduce (reduction : Reduction) {operand : Value} {shape : Shape} :
      graph.shapeOf operand = .ok shape → BuiltInOver graph (.allReduce reduction operand shape)
  | orderedAllReduce (reduction : Reduction) (operands : List Value) (token : Value)
      (pinned : Bool) : BuiltInOver graph (.orderedAllReduce graph reduction operands token pinned)

theorem Request.BuiltInOver.isBuiltIn {graph : Graph} {request : Request}
    (hrequest : request.BuiltInOver graph) : request.IsBuiltIn := by
  cases hrequest with
  | deviceData name shape => exact .deviceData name shape
  | token => exact .token
  | allReduce reduction => exact .allReduce reduction _ _
  | orderedAllReduce reduction operands token pinned => exact .orderedAllReduce _ _ _ _ _

/-- The request made the entry, whatever was annotated since. -/
def Entry.MadeFrom (entry : Entry) (request : Request) : Prop :=
  entry.operation = request.operation ∧
    ∃ shape digest, request.Admits shape ∧ entry.node = request.node shape digest

/-- The own digest of a node is fixed by its request. -/
theorem Request.ownDigest_node {request : Request} {shape : Shape} (hadmits : request.Admits shape)
    (digest : Digest) : (request.node shape digest).ownDigest = request.ownDigest := by
  unfold Node.ownDigest Request.ownDigest Request.node
  cases hsource : request.source with
  | given given => simp [ShapeSource.given?, hadmits given hsource]
  | computed compute => simp [ShapeSource.given?]

/-- A well-formed graph in which all operations are built in and all operands are outputs. -/
structure Graph.BuiltIn (graph : Graph) : Prop where
  wellFormed : graph.WellFormed
  reads : graph.ReadsOutputs
  digested : graph.Digested
  made : ∀ id entry, graph.entryAt? id = some entry →
    ∃ request : Request, request.IsBuiltIn ∧ entry.MadeFrom request

/-- A node to be constructed with a built-in operation, by its constructor or as a clone. -/
inductive BuiltInNode where
  | deviceData (name : String) (shape : Shape)
  | token
  | allReduce (reduction : Reduction) (operand : Value)
  | orderedAllReduce (reduction : Reduction) (operands : List Value) (ordering : Value)
      (pinned : Bool)
  | clone (id : NodeId) (operands : List Value)

namespace BuiltInNode

def build : BuiltInNode → BuildM NodeId
  | .deviceData name shape => BuildM.deviceData name shape
  | .token => BuildM.token
  | .allReduce reduction operand => BuildM.allReduce reduction operand
  | .orderedAllReduce reduction operands ordering pinned =>
    BuildM.orderedAllReduce reduction operands ordering pinned
  | .clone id operands => BuildM.clone id operands

/-- What the node is to read. -/
def operands : BuiltInNode → List Value
  | .deviceData .. => []
  | .token => []
  | .allReduce _ operand => [operand]
  | .orderedAllReduce _ operands ordering _ => operands ++ [ordering]
  | .clone _ operands => operands

end BuiltInNode

/-- What may happen to a workspace of built-in operations. A node is built over values of the graph;
there are no others to build it over. The cache is shared with other graphs, so anything may happen
to it. -/
inductive Workspace.Step : Workspace → Workspace → Prop
  | build {workspace : Workspace} (node : BuiltInNode) :
      (∀ operand ∈ node.operands, workspace.graph.HasValue operand) →
      Step workspace (node.build workspace).2
  | annotate (workspace : Workspace) (id : NodeId) (step : AnnotationStep) :
      Step workspace { workspace with graph := workspace.graph.afterStep id step }
  | share (workspace : Workspace) (cache : ShapeCache) : Step workspace { workspace with cache }

/-- The workspaces in which only nodes with built-in operations were constructed. -/
inductive Workspace.BuiltIn : Workspace → Prop
  | empty (cache : ShapeCache) : BuiltIn { cache }
  | step {earlier later : Workspace} : BuiltIn earlier → earlier.Step later → BuiltIn later

section Build

/-- Makes the request, unless there is a fault already. -/
def Request.make (request? : Except Fault Request) : BuildM NodeId := do
  let request ← ofExcept request?
  return (← request.construct).id

/-- The request that a clone of the node makes. -/
def Graph.cloneRequest (graph : Graph) (id : NodeId) (operands : List Value) :
    Except Fault Request := do
  let entry ← graph.entryAt id
  let node := entry.node
  match entry.operation with
  | .deviceData name =>
    if operands.isEmpty then .ok (.deviceData name node.shape)
    else .error (.violation (.operandsOfSource node.kind))
  | .token =>
    if operands.isEmpty then .ok .token else .error (.violation (.operandsOfSource node.kind))
  | .allReduce reduction =>
    if operands.length = node.operands.length then
      match operands with
      | operand :: _ => return .allReduce reduction operand (← graph.shapeOf operand)
      | [] => .error (.violation (.listRange 0 0))
    else .error (.violation (.operandCount node.kind node.operands.length operands.length))
  | .orderedAllReduce reduction pinned =>
    if operands.length = node.operands.length then
      match operands.getLast? with
      | some token => .ok (.orderedAllReduce graph reduction operands.dropLast token pinned)
      | none => .error (.violation (.listRange 0 0))
    else .error (.violation (.operandCount node.kind node.operands.length operands.length))
  | .custom none => .error (.failure (.noCloning id))
  | .custom (some _) =>
    .ok
      { kind := node.kind
        operands
        outputs := node.outputs
        seed := node.seed
        source := .given node.shape
        operation := entry.operation }

/-- The request by which the node is constructed, which the cache has no part in. -/
def BuiltInNode.requestIn (graph : Graph) : BuiltInNode → Except Fault Request
  | .deviceData name shape => .ok (.deviceData name shape)
  | .token => .ok .token
  | .allReduce reduction operand => return .allReduce reduction operand (← graph.shapeOf operand)
  | .orderedAllReduce reduction operands ordering pinned =>
    .ok (.orderedAllReduce graph reduction operands ordering pinned)
  | .clone id operands => graph.cloneRequest id operands

theorem Request.make_ok (request : Request) (workspace : Workspace) :
    Request.make (.ok request) workspace =
      ((request.construct workspace).1.map Construction.id, (request.construct workspace).2) := by
  rw [Request.make, run_bind_ok (run_ofExcept _ _), run_bind]
  rcases request.construct workspace with ⟨_ | _, _⟩ <;> rfl

theorem Request.make_error (fault : Fault) (workspace : Workspace) :
    Request.make (.error fault) workspace = (.error fault, workspace) := by
  rw [Request.make, run_bind_error (run_ofExcept _ _)]

/-- Asking for the identifier of the constructed node alone makes the request. -/
theorem construct_id_eq_make (request : Request) :
    (do return (← request.construct).id : BuildM NodeId) = Request.make (.ok request) := rfl

/-- A node of a single operand needs the shape of it, which may not exist. -/
theorem allReduce_eq_make (reduction : Reduction) (operand : Value) (workspace : Workspace) :
    BuildM.allReduce reduction operand workspace =
      Request.make (return .allReduce reduction operand (← workspace.graph.shapeOf operand))
        workspace := by
  rw [BuildM.allReduce, run_bind_ok (run_get workspace)]
  cases workspace.graph.shapeOf operand <;> rfl

theorem clone_eq_make (id : NodeId) (operands : List Value) (workspace : Workspace) :
    BuildM.clone id operands workspace =
      Request.make (workspace.graph.cloneRequest id operands) workspace := by
  rw [BuildM.clone, run_bind_ok (run_get workspace), Graph.cloneRequest]
  cases workspace.graph.entryAt id with
  | error fault => rfl
  | ok entry =>
      rw [run_bind_ok (run_ofExcept _ _)]
      dsimp only [bind, Except.bind]
      cases entry.operation with
      | deviceData name =>
          dsimp only [BuildM.withoutOperands, BuildM.deviceData]
          split
          · rw [construct_id_eq_make]
          · rfl
      | token =>
          dsimp only [BuildM.withoutOperands, BuildM.token]
          split
          · rw [construct_id_eq_make]
          · rfl
      | allReduce reduction =>
          dsimp only [BuildM.withOperandCount]
          split
          · cases operands with
            | nil => rfl
            | cons operand rest => exact allReduce_eq_make reduction operand workspace
          · rfl
      | orderedAllReduce reduction pinned =>
          dsimp only [BuildM.withOperandCount]
          split
          · cases operands.getLast? with
            | none => rfl
            | some ordering =>
                dsimp only [BuildM.orderedAllReduce]
                rw [run_bind_ok (run_get workspace), construct_id_eq_make]
          · rfl
      | custom emitter? => cases emitter? <;> rfl

/-- Every constructor and every clone makes at most one request. -/
theorem BuiltInNode.build_eq_make (node : BuiltInNode) (workspace : Workspace) :
    node.build workspace = Request.make (node.requestIn workspace.graph) workspace := by
  cases node with
  | deviceData name shape => rw [build, BuildM.deviceData, construct_id_eq_make, requestIn]
  | token => rw [build, BuildM.token, construct_id_eq_make, requestIn]
  | allReduce reduction operand => exact allReduce_eq_make reduction operand workspace
  | orderedAllReduce reduction operands ordering pinned =>
      rw [build, BuildM.orderedAllReduce, run_bind_ok (run_get workspace), construct_id_eq_make,
        requestIn]
  | clone id operands => exact clone_eq_make id operands workspace

/-- In a graph of built-in operations every clone makes a built-in request. -/
theorem Graph.BuiltIn.builtInOver_of_cloneRequest {graph : Graph} (hgraph : graph.BuiltIn)
    {id : NodeId} {operands : List Value} {request : Request}
    (hrequest : graph.cloneRequest id operands = .ok request) : request.BuiltInOver graph := by
  rw [Graph.cloneRequest] at hrequest
  cases hfound : graph.entryAt id with
  | error fault =>
      rw [hfound] at hrequest
      cases hrequest
  | ok entry =>
      obtain ⟨source, hsource, hoperation, _⟩ :=
        hgraph.made id entry ((graph.entryAt_eq_ok_iff id entry).mp hfound)
      rw [hfound] at hrequest
      dsimp only [bind, Except.bind] at hrequest
      rw [hoperation] at hrequest
      -- the operation of the clone is that of the request the node was made from
      cases hsource with
      | deviceData name shape =>
          dsimp only [Request.deviceData] at hrequest
          split at hrequest
          · cases hrequest
            exact .deviceData _ _
          · cases hrequest
      | token =>
          dsimp only [Request.token] at hrequest
          split at hrequest
          · cases hrequest
            exact .token
          · cases hrequest
      | allReduce reduction operand shape =>
          dsimp only [Request.allReduce] at hrequest
          split at hrequest
          · cases operands with
            | nil => cases hrequest
            | cons operand rest =>
                dsimp only at hrequest
                cases hshape : graph.shapeOf operand with
                | error fault =>
                    rw [hshape] at hrequest
                    cases hrequest
                | ok shape =>
                    rw [hshape] at hrequest
                    cases hrequest
                    exact .allReduce _ hshape
          · cases hrequest
      | orderedAllReduce graph reduction others token pinned =>
          dsimp only [Request.orderedAllReduce] at hrequest
          split at hrequest
          · cases hlast : operands.getLast? with
            | none =>
                rw [hlast] at hrequest
                cases hrequest
            | some ordering =>
                rw [hlast] at hrequest
                cases hrequest
                exact .orderedAllReduce _ _ _ _
          · cases hrequest

theorem BuiltInNode.builtInOver_of_requestIn {graph : Graph} (hgraph : graph.BuiltIn)
    {node : BuiltInNode} {request : Request} (hrequest : node.requestIn graph = .ok request) :
    request.BuiltInOver graph := by
  cases node with
  | deviceData name shape =>
      cases hrequest
      exact .deviceData name shape
  | token =>
      cases hrequest
      exact .token
  | allReduce reduction operand =>
      rw [requestIn] at hrequest
      cases hshape : graph.shapeOf operand with
      | error fault =>
          rw [hshape] at hrequest
          cases hrequest
      | ok shape =>
          rw [hshape] at hrequest
          cases hrequest
          exact .allReduce _ hshape
  | orderedAllReduce reduction operands ordering pinned =>
      cases hrequest
      exact .orderedAllReduce _ _ _ _
  | clone id operands => exact hgraph.builtInOver_of_cloneRequest hrequest

/-- A clone reads the operands it is given, or none. -/
theorem Graph.mem_of_cloneRequest {graph : Graph} {id : NodeId} {operands : List Value}
    {request : Request} (hrequest : graph.cloneRequest id operands = .ok request) :
    ∀ operand ∈ request.operands, operand ∈ operands := by
  rw [Graph.cloneRequest] at hrequest
  cases hfound : graph.entryAt id with
  | error fault =>
      rw [hfound] at hrequest
      cases hrequest
  | ok entry =>
      rw [hfound] at hrequest
      dsimp only [bind, Except.bind] at hrequest
      cases hoperation : entry.operation with
      | deviceData name =>
          simp only [hoperation] at hrequest
          split at hrequest <;> cases hrequest
          exact List.forall_mem_nil _
      | token =>
          simp only [hoperation] at hrequest
          split at hrequest <;> cases hrequest
          exact List.forall_mem_nil _
      | allReduce reduction =>
          simp only [hoperation] at hrequest
          split at hrequest
          · cases operands with
            | nil => cases hrequest
            | cons operand rest =>
                dsimp only at hrequest
                cases hshape : graph.shapeOf operand with
                | error fault =>
                    rw [hshape] at hrequest
                    cases hrequest
                | ok shape =>
                    rw [hshape] at hrequest
                    cases hrequest
                    exact fun other hmem => List.mem_singleton.mp hmem ▸ List.mem_cons_self
          · cases hrequest
      | orderedAllReduce reduction pinned =>
          simp only [hoperation] at hrequest
          split at hrequest
          · cases hlast : operands.getLast? with
            | none =>
                rw [hlast] at hrequest
                cases hrequest
            | some ordering =>
                rw [hlast] at hrequest
                cases hrequest
                have hsplit := List.dropLast_append_getLast? ordering hlast
                exact fun other hmem => hsplit ▸ hmem
          · cases hrequest
      | custom emitter? =>
          cases emitter? with
          | none =>
              simp only [hoperation] at hrequest
              cases hrequest
          | some emitter =>
              simp only [hoperation] at hrequest
              cases hrequest
              exact fun other hmem => hmem

/-- The request reads nothing but what the node is to read. -/
theorem BuiltInNode.mem_of_requestIn {graph : Graph} {node : BuiltInNode} {request : Request}
    (hrequest : node.requestIn graph = .ok request) :
    ∀ operand ∈ request.operands, operand ∈ node.operands := by
  cases node with
  | deviceData name shape =>
      cases hrequest
      exact fun _ hmem => hmem
  | token =>
      cases hrequest
      exact fun _ hmem => hmem
  | allReduce reduction operand =>
      rw [requestIn] at hrequest
      cases hshape : graph.shapeOf operand with
      | error fault =>
          rw [hshape] at hrequest
          cases hrequest
      | ok shape =>
          rw [hshape] at hrequest
          cases hrequest
          exact fun _ hmem => hmem
  | orderedAllReduce reduction operands ordering pinned =>
      cases hrequest
      exact fun _ hmem => hmem
  | clone id operands => exact Graph.mem_of_cloneRequest hrequest

/-- The state after a computation that leaves the workspace alone or runs one built-in request over
values of its graph. -/
def BuildsOne (workspace after : Workspace) : Prop :=
  after = workspace ∨
    ∃ request : Request, request.IsBuiltIn ∧
      (∀ operand ∈ request.operands, workspace.graph.HasValue operand) ∧
      after = (request.construct workspace).2

theorem buildsOne_build {workspace : Workspace} (hgraph : workspace.graph.BuiltIn)
    {node : BuiltInNode} (hoperands : ∀ operand ∈ node.operands, workspace.graph.HasValue operand) :
    BuildsOne workspace (node.build workspace).2 := by
  rw [node.build_eq_make]
  cases hrequest : node.requestIn workspace.graph with
  | error fault => exact Or.inl (congrArg Prod.snd (Request.make_error fault workspace))
  | ok request =>
      exact Or.inr ⟨request, (BuiltInNode.builtInOver_of_requestIn hgraph hrequest).isBuiltIn,
        fun operand hmem => hoperands operand (BuiltInNode.mem_of_requestIn hrequest operand hmem),
        congrArg Prod.snd (request.make_ok workspace)⟩

end Build

theorem Graph.WellFormed.afterStep {graph : Graph} (hgraph : graph.WellFormed) (id : NodeId)
    (step : AnnotationStep) : (graph.afterStep id step).WellFormed :=
  afterStep_preserves WellFormed hgraph id step (hgraph.annotate id)

namespace Graph.BuiltIn

theorem empty : Graph.BuiltIn {} where
  wellFormed := .empty
  reads := .empty
  digested := .empty
  made := by intro id entry hentry; simp [entryAt?] at hentry

theorem afterStep {graph : Graph} (hgraph : graph.BuiltIn) (id : NodeId) (step : AnnotationStep) :
    (graph.afterStep id step).BuiltIn where
  wellFormed := hgraph.wellFormed.afterStep id step
  reads := afterStep_preserves ReadsOutputs hgraph.reads id step (hgraph.reads.annotate id)
  digested := hgraph.digested.afterStep id step
  made := by
    intro other found hfound
    obtain ⟨annotations, hentry⟩ := entryAt?_of_afterStep hfound
    have hmade := hgraph.made other _ hentry
    exact hmade

/-- A node made from a built-in request over values of the graph may be appended. -/
theorem push {graph : Graph} (hgraph : graph.BuiltIn) {request : Request}
    (hrequest : request.IsBuiltIn)
    (hoperands : ∀ operand ∈ request.operands, graph.HasValue operand) {shape : Shape}
    (hadmits : request.Admits shape) {digest : Digest}
    (hdigest : graph.operandsDigest request.ownDigest request.operands = .ok digest) :
    (graph.push ⟨request.node shape digest, request.operation, {}⟩).BuiltIn where
  wellFormed := by
    refine hgraph.wellFormed.push ?_
    rw [Request.ownDigest_node hadmits]
    exact hdigest
  reads := hgraph.reads.push hoperands
  digested := hgraph.digested.push _ _
  made := by
    intro id found hfound
    rw [entryAt?_push] at hfound
    split at hfound
    · obtain rfl := Option.some.inj hfound
      exact ⟨request, hrequest, rfl, shape, digest, hadmits, rfl⟩
    · exact hgraph.made id found hfound

/-- A built-in request over values of the graph keeps it built in and its nodes in place. -/
theorem construct {workspace : Workspace} (hgraph : workspace.graph.BuiltIn) {request : Request}
    (hrequest : request.IsBuiltIn)
    (hoperands : ∀ operand ∈ request.operands, workspace.graph.HasValue operand) :
    (request.construct workspace).2.graph.BuiltIn ∧
      (request.construct workspace).2.graph.Extends workspace.graph := by
  rcases request.construct_cases workspace with
    ⟨fault, cache, hfailed⟩ | ⟨digest, shape, evaluated, cache, hdigest, hadmits, _, _, hmade⟩
  · rw [hfailed]
    exact ⟨hgraph, .refl _⟩
  · rw [hmade]
    exact ⟨hgraph.push hrequest hoperands hadmits hdigest, .push _ _⟩

end Graph.BuiltIn

namespace Workspace

/-- One step keeps the graph built in and only adds to it. -/
theorem Step.grows {earlier later : Workspace} (hstep : earlier.Step later)
    (hgraph : earlier.graph.BuiltIn) :
    later.graph.BuiltIn ∧ later.graph.Extends earlier.graph := by
  cases hstep with
  | build node hoperands =>
      rcases buildsOne_build hgraph hoperands with hsame | ⟨request, hrequest, hvalues, hafter⟩
      · rw [hsame]
        exact ⟨hgraph, .refl _⟩
      · rw [hafter]
        exact hgraph.construct hrequest hvalues
  | annotate id step => exact ⟨hgraph.afterStep id step, .afterStep _ _ _⟩
  | share cache => exact ⟨hgraph, .refl _⟩

theorem BuiltIn.graph {workspace : Workspace} (hworkspace : workspace.BuiltIn) :
    workspace.graph.BuiltIn := by
  induction hworkspace with
  | empty cache => exact .empty
  | step _ hstep ih => exact (hstep.grows ih).1

end Workspace

end TensorGraph
