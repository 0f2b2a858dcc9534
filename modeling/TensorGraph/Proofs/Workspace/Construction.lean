import TensorGraph.Proofs.Effects
import TensorGraph.Proofs.Graph.Order
import TensorGraph.Workspace.Operations

/-! # What a construction can do

A request either fails, which touches at most the shape cache, or appends one
node. The operands of the new node belong to nodes of the graph, and its digest
folds theirs; both stay true while the graph grows.
-/

namespace TensorGraph

open Effects

namespace Request

/-- The node made of the requested parts with a shape and a digest. -/
def node (request : Request) (shape : Shape) (subgraphDigest : Digest) : Node where
  kind := request.kind
  seed := request.seed
  operands := request.operands
  outputs := request.outputs
  shape
  shapeGiven := request.source.given?.isSome
  subgraphDigest

/-- The shape is the given one if the request gives any. -/
def Admits (request : Request) (shape : Shape) : Prop :=
  ∀ given, request.source = .given given → shape = given

theorem resolveShape_cases (request : Request) (digest : Digest) (workspace : Workspace) :
    (∃ fault cache, request.resolveShape digest workspace =
        (.error fault, { workspace with cache })) ∨
      ∃ shape evaluated cache, request.Admits shape ∧
        request.resolveShape digest workspace =
          (.ok (shape, evaluated), { workspace with cache }) := by
  unfold resolveShape
  cases hsource : request.source with
  | given shape =>
      refine Or.inr ⟨shape, false, workspace.cache, ?_, rfl⟩
      intro given hgiven
      rw [hsource] at hgiven
      exact ShapeSource.given.inj hgiven
  | computed compute =>
      cases houtcome : (workspace.cache.resolve digest compute).outcome with
      | error fault =>
          refine Or.inl ⟨fault.within (.inShape request.kind),
            (workspace.cache.resolve digest compute).cache, ?_⟩
          simp only [houtcome]
      | ok shape =>
          refine Or.inr ⟨shape, (workspace.cache.resolve digest compute).evaluated,
            (workspace.cache.resolve digest compute).cache, ?_, by simp only [houtcome]⟩
          intro given hgiven
          rw [hsource] at hgiven
          cases hgiven

theorem accept_cases (request : Request) (digest : Digest) (shape : Shape)
    (workspace : Workspace) :
    (∃ fault, request.accept digest shape workspace = (.error fault, workspace)) ∨
      request.outputs ≠ 0 ∧ outputsFit request.outputs shape = true ∧
        request.accept digest shape workspace =
          (.ok workspace.graph.size,
            { workspace with
              graph :=
                workspace.graph.push ⟨request.node shape digest, request.operation, {}⟩ }) := by
  unfold accept
  split
  · exact Or.inl ⟨_, rfl⟩
  next houtputs =>
    split
    · next hfit => exact Or.inr ⟨houtputs, hfit, rfl⟩
    · exact Or.inl ⟨_, rfl⟩

/-- A construction fails without a new node, or appends the requested node. -/
theorem construct_cases (request : Request) (workspace : Workspace) :
    (∃ fault cache, request.construct workspace = (.error fault, { workspace with cache })) ∨
      ∃ digest shape evaluated cache,
        workspace.graph.operandsDigest request.ownDigest request.operands = .ok digest ∧
        request.Admits shape ∧ request.outputs ≠ 0 ∧
        outputsFit request.outputs shape = true ∧
        request.construct workspace = (.ok ⟨workspace.graph.size, evaluated⟩,
          { graph := workspace.graph.push ⟨request.node shape digest, request.operation, {}⟩
            cache }) := by
  unfold construct
  rw [run_bind_ok (run_get workspace)]
  cases hdigest : workspace.graph.operandsDigest request.ownDigest request.operands with
  | error fault => exact Or.inl ⟨fault, workspace.cache, run_bind_error (run_ofExcept _ _) _⟩
  | ok digest =>
      rw [run_bind_ok (run_ofExcept _ _)]
      rcases request.resolveShape_cases digest workspace with
        ⟨fault, cache, hresolve⟩ | ⟨shape, evaluated, cache, hadmits, hresolve⟩
      · exact Or.inl ⟨fault, cache, run_bind_error hresolve _⟩
      · rw [run_bind_ok hresolve]
        rcases request.accept_cases digest shape { workspace with cache } with
          ⟨fault, haccept⟩ | ⟨houtputs, hfit, haccept⟩
        · exact Or.inl ⟨fault, cache, run_bind_error haccept _⟩
        · exact Or.inr ⟨digest, shape, evaluated, cache, rfl, hadmits, houtputs, hfit,
            run_bind_ok haccept _⟩

end Request

end TensorGraph
