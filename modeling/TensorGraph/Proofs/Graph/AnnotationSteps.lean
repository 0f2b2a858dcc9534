import TensorGraph.Proofs.Graph.Order

/-! # Steps that annotate

A step attaches annotations to one node, or detaches them; an index out of range
is refused. Whatever the step, all other nodes stay as they are, and so does
everything but the annotations of the node itself. Every step keeps the stored
digest of the shardings that of the shardings.
-/

namespace TensorGraph

variable {Metadata : Type}

/-- A change of the annotations of a node. -/
inductive AnnotationStep (Metadata : Type := Provenance) where
  | setSharding (sharding : Sharding) (index : Nat)
  | clearShardings
  | markDynamic (dim : Nat)
  | setProvenance (provenance : Metadata)

/-- What the step makes of the annotations of the node. A sharding of what is no output of it
changes nothing. -/
def AnnotationStep.change (node : Node) :
    AnnotationStep Metadata → Annotations Metadata → Annotations Metadata
  | .setSharding sharding index, annotations =>
    if index < node.outputs then
      annotations.setSharding node.ownDigest node.outputs index sharding
    else annotations
  | .clearShardings, annotations => annotations.clearShardings
  | .markDynamic dim, annotations => annotations.markDynamic dim
  | .setProvenance provenance, annotations => annotations.setProvenance provenance

namespace Annotations

/-- The stored digest is that of the shardings, starting from the given one, or zero if none is
attached. -/
def Digested (annotations : Annotations Metadata) (ownDigest : Digest) : Prop :=
  annotations.shardingDigest =
    if annotations.shardings = [] then 0 else foldShardings ownDigest 0 annotations.shardings

theorem digested_empty (ownDigest : Digest) : ({} : Annotations Metadata).Digested ownDigest := rfl

theorem digested_clearShardings (annotations : Annotations Metadata) (ownDigest : Digest) :
    annotations.clearShardings.Digested ownDigest := rfl

theorem digested_setSharding (annotations : Annotations Metadata) (ownDigest : Digest)
    {outputs : Nat} (houtputs : outputs ≠ 0) (index : Nat) (sharding : Sharding) :
    (annotations.setSharding ownDigest outputs index sharding).Digested ownDigest := by
  have hattached : (annotations.setSharding ownDigest outputs index sharding).shardings ≠ [] := by
    simp only [setSharding, ne_eq, List.set_eq_nil_iff]
    split
    next => simpa using houtputs
    next hsome => exact fun hnil => hsome (List.isEmpty_iff.mpr hnil)
  rw [Digested, if_neg hattached]
  rfl

/-- Annotations with the same shardings have the same digest of them. -/
theorem Digested.shardingDigest_congr {annotations other : Annotations Metadata}
    {ownDigest : Digest} (hdigested : annotations.Digested ownDigest)
    (hother : other.Digested ownDigest) (hsame : annotations.shardings = other.shardings) :
    annotations.shardingDigest = other.shardingDigest := by
  rw [hdigested, hother, hsame]

/-- Every step stores the digest of the shardings that it leaves. -/
theorem Digested.change {node : Node} {annotations : Annotations Metadata}
    (hdigested : annotations.Digested node.ownDigest) (step : AnnotationStep Metadata) :
    (step.change node annotations).Digested node.ownDigest := by
  cases step with
  | setSharding sharding index =>
      rw [AnnotationStep.change]
      split
      next hindex =>
        exact digested_setSharding _ _ (Nat.ne_of_gt (Nat.zero_lt_of_lt hindex)) _ _
      next => exact hdigested
  | clearShardings => exact digested_clearShardings _ _
  | markDynamic dim => exact hdigested
  | setProvenance provenance => exact hdigested

end Annotations

namespace Graph

/-- Runs the step on a node. -/
def annotateBy (graph : Graph Metadata) (id : NodeId) :
    AnnotationStep Metadata → Except Fault (Graph Metadata)
  | .setSharding sharding index => graph.setSharding id sharding index
  | .clearShardings => .ok (graph.clearShardings id)
  | .markDynamic dim => .ok (graph.markDynamic id [dim])
  | .setProvenance provenance => .ok (graph.setProvenance id provenance)

/-- The graph after an attempted step, which a refusal leaves as it was. -/
def afterStep (graph : Graph Metadata) (id : NodeId) (step : AnnotationStep Metadata) :
    Graph Metadata :=
  match graph.annotateBy id step with
  | .ok later => later
  | .error _ => graph

/-- The graph after attempted steps, of which the latest comes first. -/
def afterSteps (graph : Graph Metadata) (history : List (NodeId × AnnotationStep Metadata)) :
    Graph Metadata :=
  history.foldr (fun (id, step) earlier => earlier.afterStep id step) graph

theorem setSharding_of_lt {graph : Graph Metadata} {id : NodeId} {entry : Entry Metadata}
    (hentry : graph.entryAt? id = some entry) {index : Nat} (hindex : index < entry.node.outputs)
    (sharding : Sharding) :
    graph.setSharding id sharding index = .ok (graph.annotate id fun annotations =>
      annotations.setSharding entry.node.ownDigest entry.node.outputs index sharding) := by
  simp [setSharding, entryAt, hentry, hindex, bind, Except.bind, pure, Except.pure]

theorem setSharding_of_le {graph : Graph Metadata} {id : NodeId} {entry : Entry Metadata}
    (hentry : graph.entryAt? id = some entry) {index : Nat} (hindex : entry.node.outputs ≤ index)
    (sharding : Sharding) :
    graph.setSharding id sharding index =
      .error (.violation (.shardingRange entry.node.kind entry.node.outputs index)) := by
  simp [setSharding, entryAt, hentry, Nat.not_lt.mpr hindex, bind, Except.bind, throw, throwThe,
    MonadExceptOf.throw]

theorem setSharding_of_none {graph : Graph Metadata} {id : NodeId}
    (hnone : graph.entryAt? id = none) (sharding : Sharding) (index : Nat) :
    graph.setSharding id sharding index = .error (.violation (.unknownNode id)) := by
  simp [setSharding, entryAt, hnone, bind, Except.bind]

/-- A step is refused and would have changed nothing, or changes the annotations of the node. -/
theorem afterStep_cases (graph : Graph Metadata) (id : NodeId) (step : AnnotationStep Metadata) :
    (graph.afterStep id step = graph ∧ ∀ entry, graph.entryAt? id = some entry →
        step.change entry.node entry.annotations = entry.annotations) ∨
      ∃ change, graph.afterStep id step = graph.annotate id change ∧
        ∀ entry, graph.entryAt? id = some entry →
          step.change entry.node entry.annotations = change entry.annotations := by
  cases step with
  | setSharding sharding index =>
      cases hentry : graph.entryAt? id with
      | none =>
          refine Or.inl ⟨?_, by simp⟩
          simp only [afterStep, annotateBy, setSharding_of_none hentry]
      | some entry =>
          by_cases hindex : index < entry.node.outputs
          · refine Or.inr ⟨fun annotations =>
              annotations.setSharding entry.node.ownDigest entry.node.outputs index sharding,
              ?_, ?_⟩
            · simp only [afterStep, annotateBy, setSharding_of_lt hentry hindex]
            · rintro _ ⟨⟩
              exact if_pos hindex
          · refine Or.inl ⟨?_, ?_⟩
            · simp only [afterStep, annotateBy,
                setSharding_of_le hentry (Nat.le_of_not_lt hindex)]
            · rintro _ ⟨⟩
              exact if_neg hindex
  | clearShardings => exact Or.inr ⟨Annotations.clearShardings, rfl, fun _ _ => rfl⟩
  | markDynamic dim =>
      exact Or.inr ⟨fun annotations => annotations.markDynamic dim, rfl, fun _ _ => rfl⟩
  | setProvenance provenance =>
      exact Or.inr ⟨fun annotations => annotations.setProvenance provenance, rfl, fun _ _ => rfl⟩

/-- What annotating a node preserves, a step preserves. -/
theorem afterStep_preserves (invariant : Graph Metadata → Prop) {graph : Graph Metadata}
    (hgraph : invariant graph) (id : NodeId) (step : AnnotationStep Metadata)
    (hannotate : ∀ change, invariant (graph.annotate id change)) :
    invariant (graph.afterStep id step) := by
  rcases graph.afterStep_cases id step with ⟨hsame, _⟩ | ⟨change, hsame, _⟩
  · rw [hsame]
    exact hgraph
  · rw [hsame]
    exact hannotate change

@[simp]
theorem size_afterStep (graph : Graph Metadata) (id : NodeId) (step : AnnotationStep Metadata) :
    (graph.afterStep id step).size = graph.size :=
  afterStep_preserves (fun later => later.size = graph.size) rfl id step (graph.size_annotate id)

/-- A step changes the annotations of its node and nothing else. -/
theorem entryAt?_afterStep (graph : Graph Metadata) (id : NodeId) (step : AnnotationStep Metadata)
    (other : NodeId) :
    (graph.afterStep id step).entryAt? other =
      if id = other then
        (graph.entryAt? other).map fun entry =>
          { entry with annotations := step.change entry.node entry.annotations }
      else graph.entryAt? other := by
  rcases graph.afterStep_cases id step with ⟨hsame, hchange⟩ | ⟨change, hsame, hchange⟩
  · rw [hsame]
    split
    next heq =>
      obtain rfl := heq
      cases hentry : graph.entryAt? id with
      | none => rfl
      | some entry => rw [Option.map_some, hchange entry hentry]
    next => rfl
  · rw [hsame, entryAt?_annotate]
    split
    next heq =>
      obtain rfl := heq
      exact Option.map_congr fun entry hentry => by rw [hchange entry hentry]
    next => rfl

@[simp]
theorem afterSteps_nil (graph : Graph Metadata) : graph.afterSteps [] = graph := rfl

@[simp]
theorem afterSteps_cons (graph : Graph Metadata) (id : NodeId) (step : AnnotationStep Metadata)
    (history : List (NodeId × AnnotationStep Metadata)) :
    graph.afterSteps ((id, step) :: history) = (graph.afterSteps history).afterStep id step := rfl

/-- A refused step leaves the graph as it was. -/
theorem afterStep_setSharding_of_le {graph : Graph Metadata} {id : NodeId} {entry : Entry Metadata}
    (hentry : graph.entryAt? id = some entry) {index : Nat} (hindex : entry.node.outputs ≤ index)
    (sharding : Sharding) : graph.afterStep id (.setSharding sharding index) = graph := by
  rw [afterStep, annotateBy, setSharding_of_le hentry hindex]

theorem Extends.afterStep (graph : Graph Metadata) (id : NodeId) (step : AnnotationStep Metadata) :
    (graph.afterStep id step).Extends graph := by
  intro other entry hentry
  rw [entryAt?_afterStep, hentry]
  by_cases heq : id = other
  · exact ⟨step.change entry.node entry.annotations, by simp [heq]⟩
  · exact ⟨entry.annotations, by simp [heq]⟩

/-- A step leaves every node with its operation. -/
theorem entryAt?_of_afterStep {graph : Graph Metadata} {id other : NodeId}
    {step : AnnotationStep Metadata} {found : Entry Metadata}
    (hfound : (graph.afterStep id step).entryAt? other = some found) :
    ∃ annotations, graph.entryAt? other = some { found with annotations } := by
  rcases graph.afterStep_cases id step with ⟨hsame, _⟩ | ⟨change, hsame, _⟩
  · rw [hsame] at hfound
    exact ⟨found.annotations, hfound⟩
  · rw [hsame] at hfound
    exact entryAt?_of_annotate hfound

/-- Every node stores the digest of its shardings. -/
def Digested (graph : Graph Metadata) : Prop :=
  ∀ id entry, graph.entryAt? id = some entry → entry.annotations.Digested entry.node.ownDigest

namespace Digested

variable {graph : Graph Metadata}

theorem empty : ({} : Graph Metadata).Digested := by
  intro id entry hentry
  simp [entryAt?] at hentry

/-- A node is constructed without annotations. -/
theorem push (hgraph : graph.Digested) (node : Node) (operation : Operation) :
    (graph.push ⟨node, operation, {}⟩).Digested := by
  intro id entry hentry
  rw [entryAt?_push] at hentry
  split at hentry
  next =>
    obtain rfl := Option.some.inj hentry
    exact Annotations.digested_empty _
  next => exact hgraph id entry hentry

/-- No step lets the stored digest of a node lag behind. -/
theorem afterStep (hgraph : graph.Digested) (id : NodeId) (step : AnnotationStep Metadata) :
    (graph.afterStep id step).Digested := by
  intro other entry hentry
  rw [entryAt?_afterStep] at hentry
  split at hentry
  next =>
    obtain ⟨found, hfound, rfl⟩ := Option.map_eq_some_iff.mp hentry
    exact (hgraph other found hfound).change step
  next => exact hgraph other entry hentry

end Digested

end Graph

end TensorGraph
