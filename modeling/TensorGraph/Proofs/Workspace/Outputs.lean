import TensorGraph.Graph.Description
import TensorGraph.Proofs.Workspace.Shapes

/-! # Outputs of constructed nodes

A request makes a node exactly if the shape that it obtains is one for so many outputs. So the
number of outputs of a node can be read off its shape, whatever the cache has answered, and every
value has a shape.
-/

namespace TensorGraph

open Relation

namespace Request

variable {request : Request} {cache later later' : ShapeCache} {digest : Digest}
  {outcome outcome' : Except Fault Shape}

theorem fits_iff (request : Request) (shape : Shape) :
    request.Fits shape ↔ shape.ForOutputs request.outputs :=
  (shape.forOutputs_iff request.outputs).symm

/-- A request comes by its shape in one way only. -/
theorem Resolves.unique (hresolves : request.Resolves cache digest outcome later)
    (hresolves' : request.Resolves cache digest outcome' later') :
    outcome = outcome' ∧ later = later' := by
  cases hresolves <;> cases hresolves' <;> simp_all

/-- A node is made exactly if the shape, given, cached or computed, is one for so many outputs. -/
theorem run_eq_ok_iff {workspace : Workspace}
    (hdigest : workspace.graph.operandsDigest request.ownDigest request.operands = .ok digest)
    (id : NodeId) (after : Workspace) :
    (NodeCall.make request).run workspace = (.ok id, after) ↔
      ∃ shape later, request.Resolves workspace.cache digest (.ok shape) later ∧
        shape.ForOutputs request.outputs ∧ id = workspace.graph.size ∧
        after = ⟨workspace.graph.push ⟨request.node shape digest, request.operation, {}⟩,
          later⟩ := by
  obtain ⟨outcome, later, hresolves, hmake⟩ := make_of_digest hdigest
  rw [NodeCall.run_eq_make, NodeCall.requestIn, hmake]
  constructor
  · intro hrun
    cases hentry : outcome >>= request.entryOf digest with
    | error fault =>
        rw [hentry] at hrun
        cases hrun
    | ok entry =>
        cases outcome with
        | error fault => cases hentry
        | ok shape =>
            obtain ⟨hfits, rfl⟩ := (request.entryOf_eq_ok_iff digest shape entry).mp hentry
            rw [hentry] at hrun
            obtain ⟨hid, rfl⟩ := Prod.mk.inj hrun
            exact ⟨shape, later, hresolves, (request.fits_iff shape).mp hfits,
              (Except.ok.inj hid).symm, rfl⟩
  · rintro ⟨shape, later', hresolves', hshape, rfl, rfl⟩
    obtain ⟨rfl, rfl⟩ := hresolves.unique hresolves'
    have hentry : (.ok shape >>= request.entryOf digest) = _ :=
      entryOf_of_fits ((request.fits_iff shape).mpr hshape) digest
    rw [hentry]
    rfl

end Request

namespace Node

/-- The outputs of a regular node have the shapes that its shape says. -/
theorem Regular.hasOutputs {node : Node} (hnode : node.Regular) :
    node.HasOutputs node.shape.outputShapes := by
  have houtputs := (((Shape.forOutputs_iff _ _).mpr hnode).length_outputShapes).symm
  cases hshape : node.shape with
  | array elementType dims =>
      rw [hshape] at houtputs
      have hsingle := hasOutputs_of_not_isTuple houtputs (by rw [hshape]; rfl)
      rw [hshape] at hsingle
      exact hsingle
  | tuple elements =>
      rw [hshape] at houtputs
      exact hasOutputs_of_tuple houtputs hshape

theorem shapeAt_of_le {node : Node} {index : Nat} (hindex : node.outputs ≤ index) :
    node.shapeAt index = .error (.violation (.outputRange node.kind node.outputs index)) := by
  rw [shapeAt, if_neg (Nat.not_lt.mpr hindex)]

end Node

theorem Graph.faultMessage_outputRange (graph : Graph) (kind : OpKind) (outputs index : Nat) :
    graph.faultMessage (.violation (.outputRange kind outputs index)) =
      s!"output index {index} out of range for {kind.text}" ++ s!" with {outputs} outputs" := by
  change s!"output index {index} out of range for {kind.text} with {outputs} outputs" = _
  simp only [String.append_assoc, toString]

namespace Workspace

theorem regular_construct {workspace : Workspace} (hgraph : workspace.graph.Regular)
    (request : Request) : (request.construct workspace).2.graph.Regular := by
  rcases request.construct_cases workspace with
    ⟨fault, cache, hfailed⟩ | ⟨digest, shape, _, cache, _, _, houtputs, hfit, hmade⟩
  · rw [hfailed]
    exact hgraph
  · rw [hmade]
    exact hgraph.push ⟨houtputs, hfit⟩

theorem Evolves.regular {earlier later : Workspace} (hstep : earlier.Evolves later)
    (hgraph : earlier.graph.Regular) : later.graph.Regular := by
  cases hstep with
  | construct request => exact regular_construct hgraph request
  | build node =>
      rcases constructsOne_build node earlier with hsame | ⟨request, hafter⟩
      · rw [hsame]
        exact hgraph
      · rw [hafter]
        exact regular_construct hgraph request
  | annotate id step =>
      exact Graph.afterStep_preserves Graph.Regular hgraph id step (hgraph.annotate id)
  | share cache => exact hgraph

theorem Constructed.regular {workspace : Workspace} (hworkspace : workspace.Constructed) :
    workspace.graph.Regular := by
  obtain ⟨cache, hsteps⟩ := hworkspace
  induction hsteps with
  | refl => exact .empty
  | tail _ hstep ih => exact hstep.regular ih

/-- In every workspace a request over nodes that exist makes a node, with the shape that it obtains,
exactly if that shape is an array for a single output or a tuple with an entry for each output. So
every node of a constructed workspace has as many outputs as its shape says; each has its shape,
any other index is out of range, and every accepted value has a shape and keeps it. -/
theorem outputs_fit_shapes (workspace : Workspace) :
    (∀ request : Request,
      (∀ operand ∈ request.operands, operand.node < workspace.graph.size) →
      ∃ digest,
        workspace.graph.operandsDigest request.ownDigest request.operands = .ok digest ∧
        ∀ id after, (NodeCall.make request).run workspace = (.ok id, after) ↔
          ∃ shape later, request.Resolves workspace.cache digest (.ok shape) later ∧
            shape.ForOutputs request.outputs ∧ id = workspace.graph.size ∧
            after = ⟨workspace.graph.push ⟨request.node shape digest, request.operation, {}⟩,
              later⟩) ∧
      (workspace.Constructed →
        (∀ id entry, workspace.graph.entryAt? id = some entry →
          entry.node.shape.ForOutputs entry.node.outputs ∧
          entry.node.HasOutputs entry.node.shape.outputShapes ∧
          ∀ index, entry.node.outputs ≤ index → ∃ fault,
            entry.node.shapeAt index = .error fault ∧
            workspace.graph.faultMessage fault =
              s!"output index {index} out of range for {entry.node.kind.text}" ++
                s!" with {entry.node.outputs} outputs") ∧
        ∀ id index value, workspace.graph.value id index = .ok value →
          ∃ shape, ∀ later, ReflTransGen Evolves workspace later →
            later.graph.shapeOf value = .ok shape) := by
  constructor
  · intro request hoperands
    obtain ⟨digest, hdigest⟩ := Graph.exists_operandsDigest hoperands request.ownDigest
    exact ⟨digest, hdigest, Request.run_eq_ok_iff hdigest⟩
  · intro hworkspace
    have hregular := hworkspace.regular
    constructor
    · intro id entry hentry
      have hnode := hregular id entry hentry
      refine ⟨(Shape.forOutputs_iff _ _).mpr hnode, hnode.hasOutputs, fun index hindex => ?_⟩
      exact ⟨_, Node.shapeAt_of_le hindex, workspace.graph.faultMessage_outputRange _ _ _⟩
    · intro id index value haccepted
      obtain ⟨rfl, hvalue⟩ := (workspace.graph.value_eq_ok_iff id index value).mp haccepted
      obtain ⟨shape, hshape⟩ := hregular.exists_shapeOf hvalue
      refine ⟨shape, fun later hsteps => ?_⟩
      exact (grows_of_evolves hsteps hworkspace.wellFormed).2.shapeOf hshape

/-- A request over a token with a token for each of its two outputs. -/
def tokenPair : Request where
  kind := ⟨"test", "pair"⟩
  operands := [⟨0, 0⟩]
  outputs := 2
  seed := 1
  source := .computed fun _ => .ok (.tuple [.token, .token])
  operation := .custom none

/-- The request is made twice, and the second time the shape is cached. -/
theorem outputs_fit_shapes_pair :
    let start := (BuiltInNode.token.build { cache := ⟨1, []⟩ }).2
    let workspace := ((NodeCall.make tokenPair).run start).2
    (∀ operand ∈ tokenPair.operands, operand.node < workspace.graph.size) ∧
      workspace.Constructed ∧
      (∃ after digest shape later, (NodeCall.make tokenPair).run workspace = (.ok 2, after) ∧
        tokenPair.Resolves workspace.cache digest (.ok shape) later ∧ shape.ForOutputs 2) ∧
      (∃ entry, workspace.graph.entryAt? 1 = some entry ∧ entry.node.outputs ≤ 2 ∧
        entry.node.HasOutputs [.token, .token] ∧ ∃ fault, entry.node.shapeAt 2 = .error fault ∧
          workspace.graph.faultMessage fault =
            "output index 2 out of range for test::pair with 2 outputs") ∧
      workspace.graph.value 1 1 = .ok ⟨1, 1⟩ ∧
      ∃ shape, workspace.graph.shapeOf ⟨1, 1⟩ = .ok shape := by
  intro start workspace
  have hoperands : ∀ operand ∈ tokenPair.operands, operand.node < workspace.graph.size := by
    decide +kernel
  have hconstructed : workspace.Constructed :=
    ⟨⟨1, []⟩, .head (.build _ .token) (.single (evolves_call (.make tokenPair) start))⟩
  obtain ⟨hrequests, hworkspace⟩ := outputs_fit_shapes workspace
  obtain ⟨digest, hdigest, hmade⟩ := hrequests tokenPair hoperands
  obtain ⟨hentries, hvalues⟩ := hworkspace hconstructed
  have hanswer : ((NodeCall.make tokenPair).run workspace).1.toOption = some 2 := by decide +kernel
  obtain ⟨after, hrun⟩ : ∃ after, (NodeCall.make tokenPair).run workspace = (.ok 2, after) := by
    rcases hrun : (NodeCall.make tokenPair).run workspace with ⟨fault | id, after⟩
    · rw [hrun] at hanswer
      cases hanswer
    · rw [hrun] at hanswer
      cases hanswer
      exact ⟨after, rfl⟩
  obtain ⟨found, later, hresolves, hfound, _⟩ := (hmade 2 after).mp hrun
  have hvalue : workspace.graph.value 1 1 = .ok ⟨1, 1⟩ := rfl
  obtain ⟨shape, hshape⟩ := hvalues 1 1 ⟨1, 1⟩ hvalue
  obtain ⟨_, houtputs, hrange⟩ := hentries 1 _ rfl
  obtain ⟨fault, hfault, hmessage⟩ := hrange 2 (by decide)
  exact ⟨hoperands, hconstructed, ⟨after, digest, found, later, hrun, hresolves, hfound⟩,
    ⟨_, rfl, by decide, houtputs, fault, hfault, hmessage.trans (by decide +kernel)⟩,
    hvalue, shape, hshape workspace .refl⟩

end Workspace

end TensorGraph
