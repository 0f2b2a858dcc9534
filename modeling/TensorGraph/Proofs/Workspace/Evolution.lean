import TensorGraph.Proofs.Graph.AnnotationSteps
import TensorGraph.Proofs.Workspace.BuiltIn
import Mathlib.Logic.Relation

/-! # Workspaces over time

A workspace changes by requests for nodes of any kind, by the constructors of the
built-in operations, by clones and by annotations; its cache is shared with other
graphs. All this only ever adds nodes, and what is fixed about a node stays. The
stored digests of the shardings stay in step with the shardings.
-/

namespace TensorGraph

open Effects Relation

namespace Workspace

/-- What may happen to a workspace. A request or a step that is refused counts as well. -/
inductive Evolves : Workspace → Workspace → Prop
  | construct (workspace : Workspace) (request : Request) :
      Evolves workspace (request.construct workspace).2
  | build (workspace : Workspace) (node : BuiltInNode) : Evolves workspace (node.build workspace).2
  | annotate (workspace : Workspace) (id : NodeId) (step : AnnotationStep) :
      Evolves workspace { workspace with graph := workspace.graph.afterStep id step }
  | share (workspace : Workspace) (cache : ShapeCache) : Evolves workspace { workspace with cache }

/-- The workspace came about from an empty graph. -/
def Constructed (workspace : Workspace) : Prop :=
  ∃ cache, ReflTransGen Evolves { cache } workspace

end Workspace

/-- The state after a computation that leaves the workspace alone or runs one request. -/
def ConstructsOne (workspace after : Workspace) : Prop :=
  after = workspace ∨ ∃ request : Request, after = (request.construct workspace).2

theorem constructsOne_build (node : BuiltInNode) (workspace : Workspace) :
    ConstructsOne workspace (node.build workspace).2 := by
  rw [node.build_eq_make]
  cases node.requestIn workspace.graph with
  | error fault => exact Or.inl (congrArg Prod.snd (Request.make_error fault workspace))
  | ok request => exact Or.inr ⟨request, congrArg Prod.snd (request.make_ok workspace)⟩

namespace Graph

/-- Any request keeps the graph well-formed and its nodes in place. -/
theorem WellFormed.construct {workspace : Workspace} (hgraph : workspace.graph.WellFormed)
    (request : Request) :
    (request.construct workspace).2.graph.WellFormed ∧
      (request.construct workspace).2.graph.Extends workspace.graph := by
  rcases request.construct_cases workspace with
    ⟨fault, cache, hfailed⟩ | ⟨digest, shape, evaluated, cache, hdigest, hadmits, _, _, hmade⟩
  · rw [hfailed]
    exact ⟨hgraph, .refl _⟩
  · rw [hmade]
    refine ⟨hgraph.push ?_, .push _ _⟩
    rw [Request.ownDigest_node hadmits]
    exact hdigest

theorem Digested.construct {workspace : Workspace} (hgraph : workspace.graph.Digested)
    (request : Request) : (request.construct workspace).2.graph.Digested := by
  rcases request.construct_cases workspace with
    ⟨fault, cache, hfailed⟩ | ⟨digest, shape, evaluated, cache, _, _, _, _, hmade⟩
  · rw [hfailed]
    exact hgraph
  · rw [hmade]
    exact hgraph.push _ _

end Graph

namespace Workspace

variable {earlier later : Workspace}

/-- One step keeps the graph well-formed and its nodes in place. -/
theorem Evolves.grows (hstep : earlier.Evolves later) (hgraph : earlier.graph.WellFormed) :
    later.graph.WellFormed ∧ later.graph.Extends earlier.graph := by
  cases hstep with
  | construct request => exact hgraph.construct request
  | build node =>
      rcases constructsOne_build node earlier with hsame | ⟨request, hafter⟩
      · rw [hsame]
        exact ⟨hgraph, .refl _⟩
      · rw [hafter]
        exact hgraph.construct request
  | annotate id step => exact ⟨hgraph.afterStep id step, .afterStep _ _ _⟩
  | share cache => exact ⟨hgraph, .refl _⟩

theorem grows_of_evolves (hsteps : ReflTransGen Evolves earlier later)
    (hgraph : earlier.graph.WellFormed) :
    later.graph.WellFormed ∧ later.graph.Extends earlier.graph := by
  induction hsteps with
  | refl => exact ⟨hgraph, .refl _⟩
  | tail _ hstep ih =>
      obtain ⟨hmiddle, hextends⟩ := ih
      obtain ⟨hlater, hextends'⟩ := hstep.grows hmiddle
      exact ⟨hlater, hextends'.trans hextends⟩

theorem Constructed.wellFormed {workspace : Workspace} (hworkspace : workspace.Constructed) :
    workspace.graph.WellFormed := by
  obtain ⟨cache, hsteps⟩ := hworkspace
  exact (grows_of_evolves hsteps .empty).1

/-- No step leaves a stored digest of shardings behind. -/
theorem Evolves.digested (hstep : earlier.Evolves later) (hgraph : earlier.graph.Digested) :
    later.graph.Digested := by
  cases hstep with
  | construct request => exact hgraph.construct request
  | build node =>
      rcases constructsOne_build node earlier with hsame | ⟨request, hafter⟩
      · rw [hsame]
        exact hgraph
      · rw [hafter]
        exact hgraph.construct request
  | annotate id step => exact hgraph.afterStep id step
  | share cache => exact hgraph

theorem digested_of_evolves (hsteps : ReflTransGen Evolves earlier later)
    (hgraph : earlier.graph.Digested) : later.graph.Digested := by
  induction hsteps with
  | refl => exact hgraph
  | tail _ hstep ih => exact hstep.digested ih

theorem Constructed.digested {workspace : Workspace} (hworkspace : workspace.Constructed) :
    workspace.graph.Digested := by
  obtain ⟨cache, hsteps⟩ := hworkspace
  exact digested_of_evolves hsteps .empty

end Workspace

end TensorGraph
