import TensorGraph.Proofs.Graph.AnnotationSteps
import TensorGraph.Proofs.Graph.Identity
import TensorGraph.Proofs.Sharding.Words
import TensorGraph.Proofs.Workspace.Construction

/-! # Shardings as a partial map

Whatever steps annotate a node, its shardings store the partial map from outputs to
the shardings set last since they were cleared last. The stored digest is the fold of
the words of this map, and with it the identity of the node sees nothing else of the
history. The marked dimensions form a set.
-/

namespace TensorGraph

variable {Metadata : Type}

namespace AnnotationStep

/-- The sharding that was set last for the output since the shardings were cleared last. Of the
steps the latest comes first, and those that set no output of the node do not count. -/
def assigned (outputs : Nat) : List (AnnotationStep Metadata) → Nat → Option Sharding
  | [], _ => none
  | .setSharding sharding target :: earlier, index =>
    if target = index ∧ index < outputs then some sharding else assigned outputs earlier index
  | .clearShardings :: _, _ => none
  | .markDynamic _ :: earlier, index => assigned outputs earlier index
  | .setProvenance _ :: earlier, index => assigned outputs earlier index

/-- The steps of the history that were attempted on the node. -/
def attemptedOn (id : NodeId) (history : List (NodeId × AnnotationStep Metadata)) :
    List (AnnotationStep Metadata) :=
  history.filterMap fun (other, step) => if id = other then some step else none

/-- The annotations of the node after the steps, from none on. -/
def annotationsAfter (node : Node) (steps : List (AnnotationStep Metadata)) :
    Annotations Metadata :=
  steps.foldr (change node) {}

theorem attemptedOn_cons (id other : NodeId) (step : AnnotationStep Metadata)
    (history : List (NodeId × AnnotationStep Metadata)) :
    attemptedOn id ((other, step) :: history) =
      if id = other then step :: attemptedOn id history else attemptedOn id history := by
  by_cases heq : id = other <;> simp [attemptedOn, heq]

@[simp]
theorem annotationsAfter_cons (node : Node) (step : AnnotationStep Metadata)
    (earlier : List (AnnotationStep Metadata)) :
    annotationsAfter node (step :: earlier) =
      step.change node (annotationsAfter node earlier) := rfl

theorem assigned_setSharding_of_le {outputs target : Nat} (htarget : outputs ≤ target)
    (sharding : Sharding) (earlier : List (AnnotationStep Metadata)) :
    assigned outputs (.setSharding sharding target :: earlier) = assigned outputs earlier := by
  funext index
  rw [assigned, if_neg (by omega)]

end AnnotationStep

open AnnotationStep

namespace Graph

/-- The annotations of a node come from the steps on the node alone. -/
theorem entryAt?_afterSteps {graph : Graph Metadata} {id : NodeId} {entry : Entry Metadata}
    (hentry : graph.entryAt? id = some entry) (hfresh : entry.annotations = {})
    (history : List (NodeId × AnnotationStep Metadata)) :
    (graph.afterSteps history).entryAt? id = some { entry with
      annotations := annotationsAfter entry.node (attemptedOn id history) } := by
  induction history with
  | nil =>
      rw [afterSteps_nil, hentry]
      exact congrArg (fun annotations => some { entry with annotations }) hfresh
  | cons step history ih =>
      obtain ⟨other, step⟩ := step
      rw [afterSteps_cons, entryAt?_afterStep, ih, attemptedOn_cons]
      by_cases heq : other = id
      · simp [heq]
      · simp [heq, Ne.symm heq]

end Graph

namespace Annotations

/-- The shardings are those of the map: none is attached if it is empty, and otherwise one entry
per output. -/
inductive Stores (outputs : Nat) (annotations : Annotations Metadata)
    (map : Nat → Option Sharding) : Prop
  | detached :
      (∀ index, map index = none) →
      annotations.shardings = [] →
      Stores outputs annotations map
  | attached {index : Nat} {sharding : Sharding} :
      index < outputs →
      map index = some sharding →
      annotations.shardings = (List.range outputs).map map →
      Stores outputs annotations map

section Stores

variable {outputs : Nat} {annotations : Annotations Metadata} {map : Nat → Option Sharding}

/-- The list that a sharding is written into has the entries of the map. -/
theorem Stores.entries (hstores : annotations.Stores outputs map) :
    (if annotations.shardings.isEmpty then List.replicate outputs none
      else annotations.shardings) = (List.range outputs).map map := by
  cases hstores with
  | detached hnone hempty =>
      rw [hempty, List.isEmpty_nil, if_pos rfl]
      refine (List.eq_replicate_iff.mpr ⟨by simp, ?_⟩).symm
      intro sharding? hmem
      obtain ⟨index, _, rfl⟩ := List.mem_map.mp hmem
      exact hnone index
  | attached hindex _ hshardings =>
      have hnonempty : annotations.shardings.isEmpty = false := by
        rw [hshardings, List.isEmpty_eq_false_iff, ← List.length_pos_iff]
        simpa using Nat.zero_lt_of_lt hindex
      rw [hnonempty, if_neg Bool.false_ne_true, hshardings]

/-- What is stored follows from the map. -/
theorem Stores.shardings_eq {other : Annotations Metadata}
    (hstores : annotations.Stores outputs map) (hother : other.Stores outputs map) :
    annotations.shardings = other.shardings := by
  cases hstores with
  | detached hnone hempty =>
      cases hother with
      | detached _ hempty' => rw [hempty, hempty']
      | attached _ hsome => simp [hnone] at hsome
  | attached _ hsome hshardings =>
      cases hother with
      | detached hnone => simp [hnone] at hsome
      | attached _ _ hshardings' => rw [hshardings, hshardings']

theorem Stores.length (hstores : annotations.Stores outputs map) :
    annotations.shardings = [] ∨ annotations.shardings.length = outputs := by
  cases hstores with
  | detached _ hempty => exact Or.inl hempty
  | attached _ _ hshardings => exact Or.inr (by simp [hshardings])

theorem Stores.shardingDigest_of_none (hstores : annotations.Stores outputs map)
    {ownDigest : Digest} (hdigested : annotations.Digested ownDigest)
    (hnone : ∀ index, map index = none) : annotations.shardingDigest = 0 := by
  cases hstores with
  | detached _ hempty => rw [hdigested, if_pos hempty]
  | attached _ hsome => simp [hnone] at hsome

/-- What an output adds to the digest of the shardings: its number, and then the words of its
sharding if it has one. -/
def outputWords (index : Nat) (sharding? : Option Sharding) : List Digest :=
  (Datum.unsigned32 index).digest :: (sharding?.map Sharding.words).getD []

theorem foldShardings_eq_combineAll (state : Digest) (first : Nat)
    (shardings : List (Option Sharding)) :
    foldShardings state first shardings = state.combineAll
      ((shardings.zipIdx first).flatMap fun (sharding?, index) => outputWords index sharding?) := by
  induction shardings generalizing state first with
  | nil => rfl
  | cons sharding? shardings ih =>
      rw [List.zipIdx_cons, List.flatMap_cons, Digest.combineAll_append, ← ih]
      cases sharding? with
      | none => rfl
      | some sharding =>
          rw [foldShardings, sharding.foldDigest_eq_combineAll]
          rfl

theorem zipIdx_map_range (map : Nat → Option Sharding) (outputs : Nat) :
    ((List.range outputs).map map).zipIdx = (List.range outputs).map fun index =>
      (map index, index) := by
  refine List.ext_getElem (by simp) fun position _ _ => ?_
  simp

/-- The stored digest is the fold of what the outputs add, one after the other. -/
theorem Stores.shardingDigest_of_some (hstores : annotations.Stores outputs map)
    {ownDigest : Digest} (hdigested : annotations.Digested ownDigest) {index : Nat}
    {sharding : Sharding} (hsome : map index = some sharding) :
    annotations.shardingDigest = ownDigest.combineAll
      ((List.range outputs).flatMap fun index => outputWords index (map index)) := by
  cases hstores with
  | detached hnone => simp [hnone] at hsome
  | attached hindex _ hshardings =>
      rw [hdigested, hshardings, if_neg, foldShardings_eq_combineAll, zipIdx_map_range,
        List.flatMap_map]
      rw [List.map_eq_nil_iff, List.range_eq_nil]
      exact Nat.ne_of_gt (Nat.zero_lt_of_lt hindex)

/-- Writing an entry changes the map at its index. -/
theorem set_range_map (map : Nat → Option Sharding) (outputs index : Nat)
    (sharding : Sharding) :
    ((List.range outputs).map map).set index (some sharding) =
      (List.range outputs).map fun other =>
        if index = other ∧ other < outputs then some sharding else map other := by
  refine List.ext_getElem (by simp) fun position hposition hposition' => ?_
  have hlt : position < outputs := by simpa using hposition'
  simp [List.getElem_set, hlt]

/-- Every step keeps the shardings those of the map. -/
theorem Stores.change {node : Node} {earlier : List (AnnotationStep Metadata)}
    (hstores : annotations.Stores node.outputs (assigned node.outputs earlier))
    (step : AnnotationStep Metadata) :
    (step.change node annotations).Stores node.outputs
      (assigned node.outputs (step :: earlier)) := by
  cases step with
  | setSharding sharding index =>
      by_cases hindex : index < node.outputs
      · have hset : assigned node.outputs (.setSharding sharding index :: earlier) index =
            some sharding := by
          rw [assigned, if_pos ⟨rfl, hindex⟩]
        refine .attached hindex hset ?_
        rw [AnnotationStep.change, if_pos hindex, setSharding]
        simp only [hstores.entries]
        exact set_range_map _ _ _ _
      · rw [AnnotationStep.change, if_neg hindex,
          assigned_setSharding_of_le (Nat.le_of_not_lt hindex)]
        exact hstores
  | clearShardings => exact .detached (fun _ => rfl) rfl
  | markDynamic dim =>
      cases hstores with
      | detached hnone hempty => exact .detached hnone hempty
      | attached hindex hsome hshardings => exact .attached hindex hsome hshardings
  | setProvenance provenance =>
      cases hstores with
      | detached hnone hempty => exact .detached hnone hempty
      | attached hindex hsome hshardings => exact .attached hindex hsome hshardings

/-- After any steps the shardings are those set last. -/
theorem stores_annotationsAfter (node : Node) (steps : List (AnnotationStep Metadata)) :
    (annotationsAfter node steps).Stores node.outputs (assigned node.outputs steps) := by
  induction steps with
  | nil => exact .detached (fun _ => rfl) rfl
  | cons step earlier ih => exact ih.change step

/-- After any steps the stored digest is that of the shardings. -/
theorem digested_annotationsAfter (node : Node) (steps : List (AnnotationStep Metadata)) :
    (annotationsAfter node steps).Digested node.ownDigest := by
  induction steps with
  | nil => exact digested_empty _
  | cons step earlier ih => exact ih.change step

end Stores

section Dims

theorem sorted_insertSorted (dim : Nat) {dims : List Nat} (hsorted : dims.Pairwise (· < ·)) :
    (insertSorted dim dims).Pairwise (· < ·) := by
  induction dims with
  | nil => exact List.pairwise_singleton _ _
  | cons head tail ih =>
      obtain ⟨hhead, htail⟩ := List.pairwise_cons.mp hsorted
      unfold insertSorted
      split
      next hlt =>
        refine List.pairwise_cons.mpr ⟨fun other hmem => ?_, hsorted⟩
        rcases List.mem_cons.mp hmem with rfl | hmem
        · exact hlt
        · exact Nat.lt_trans hlt (hhead other hmem)
      next hge =>
        split
        next => exact hsorted
        next hne =>
          refine List.pairwise_cons.mpr ⟨fun other hmem => ?_, ih htail⟩
          rcases (mem_insertSorted dim other tail).mp hmem with rfl | hmem
          · omega
          · exact hhead other hmem

/-- Only marking a dimension touches the marked dimensions. -/
theorem dynamicDims_change (node : Node) (step : AnnotationStep Metadata)
    (annotations : Annotations Metadata) :
    (step.change node annotations).dynamicDims =
      match step with
      | .markDynamic dim => insertSorted dim annotations.dynamicDims
      | _ => annotations.dynamicDims := by
  cases step with
  | setSharding sharding index =>
      rw [AnnotationStep.change]
      split <;> rfl
  | _ => rfl

/-- The marked dimensions are listed in increasing order. -/
theorem dynamicDims_annotationsAfter (node : Node) (steps : List (AnnotationStep Metadata)) :
    (annotationsAfter node steps).dynamicDims.Pairwise (· < ·) ∧
      ∀ dim, dim ∈ (annotationsAfter node steps).dynamicDims ↔ .markDynamic dim ∈ steps := by
  induction steps with
  | nil => simp [annotationsAfter]
  | cons step earlier ih =>
      obtain ⟨hsorted, hmem⟩ := ih
      simp only [annotationsAfter_cons, dynamicDims_change]
      cases step with
      | markDynamic marked =>
          refine ⟨sorted_insertSorted marked hsorted, fun dim => ?_⟩
          rw [mem_insertSorted, hmem, List.mem_cons, AnnotationStep.markDynamic.injEq]
      | _ => exact ⟨hsorted, fun dim => by simp [hmem]⟩

end Dims

end Annotations

namespace Graph

open Annotations

/-- An output reads its entry of the map. -/
theorem sharding?_of_stores {graph : Graph Metadata} {id : NodeId} {entry : Entry Metadata}
    (hentry : graph.entryAt? id = some entry) {map : Nat → Option Sharding}
    (hstores : entry.annotations.Stores entry.node.outputs map) {index : Nat}
    (hindex : index < entry.node.outputs) : graph.sharding? id index = .ok (map index) := by
  have hfound : graph.entryAt id = .ok entry := by rw [entryAt, hentry]
  rw [sharding?, hfound]
  cases hstores with
  | detached hnone hempty => simp [hempty, hnone, bind, Except.bind, pure, Except.pure]
  | attached _ _ hshardings =>
      have hne : entry.node.outputs ≠ 0 := Nat.ne_of_gt (Nat.zero_lt_of_lt hindex)
      simp [hshardings, hne, hindex, bind, Except.bind, pure, Except.pure]

/-- After any steps, the shardings of a node that was constructed without annotations are those set
last since they were cleared last. The stored digest is zero or the fold of their words, and digest
and identity see nothing else of the history. -/
theorem shardings_refine_assigned {graph : Graph Metadata} {id : NodeId} {entry : Entry Metadata}
    (hentry : graph.entryAt? id = some entry) (hfresh : entry.annotations = {})
    (history : List (NodeId × AnnotationStep Metadata)) :
    let node := entry.node
    let map := assigned node.outputs (attemptedOn id history)
    let after := graph.afterSteps history
    ∃ found, after.entryAt? id = some found ∧ found.node = node ∧
      (found.annotations.shardings = [] ∨
        found.annotations.shardings.length = node.outputs) ∧
      (∀ index < node.outputs, after.sharding? id index = .ok (map index)) ∧
      ((∀ index, map index = none) → found.annotations.shardingDigest = 0) ∧
      (∀ index sharding, map index = some sharding →
        found.annotations.shardingDigest = node.ownDigest.combineAll
          ((List.range node.outputs).flatMap fun index => outputWords index (map index))) ∧
      (∀ other, assigned node.outputs (attemptedOn id other) = map →
        ∃ found', (graph.afterSteps other).entryAt? id = some found' ∧
          found'.annotations.shardingDigest = found.annotations.shardingDigest ∧
          found'.identity = found.identity) ∧
      (∃ cleared, (after.afterStep id .clearShardings).entryAt? id = some cleared ∧
        cleared.identity = node.subgraphDigest) ∧
      (∀ sharding index, node.outputs ≤ index →
        after.setSharding id sharding index =
            .error (.violation (.shardingRange node.kind node.outputs index)) ∧
          after.afterStep id (.setSharding sharding index) = after) ∧
      found.annotations.dynamicDims.Pairwise (· < ·) ∧
      ∀ dim, dim ∈ found.annotations.dynamicDims ↔ .markDynamic dim ∈ attemptedOn id history := by
  intro node map after
  have hfound := entryAt?_afterSteps hentry hfresh history
  have hstores := stores_annotationsAfter node (attemptedOn id history)
  have hdigested := digested_annotationsAfter node (attemptedOn id history)
  refine ⟨_, hfound, rfl, hstores.length, ?_, ?_, ?_, ?_, ?_, ?_,
    dynamicDims_annotationsAfter node (attemptedOn id history)⟩
  · exact fun index hindex => sharding?_of_stores hfound hstores hindex
  · exact hstores.shardingDigest_of_none hdigested
  · exact fun index sharding => hstores.shardingDigest_of_some hdigested
  · intro other hmap
    have hstores' := stores_annotationsAfter node (attemptedOn id other)
    rw [hmap] at hstores'
    have hdigest := (digested_annotationsAfter node (attemptedOn id other)).shardingDigest_congr
      hdigested (hstores'.shardings_eq hstores)
    exact ⟨_, entryAt?_afterSteps hentry hfresh other, hdigest, Entry.identity_congr rfl hdigest⟩
  · refine ⟨_, entryAt?_afterSteps hentry hfresh ((id, .clearShardings) :: history), ?_⟩
    rw [attemptedOn_cons, if_pos rfl]
    exact Entry.identity_of_zero rfl
  · intro sharding index hindex
    exact ⟨setSharding_of_le hfound hindex sharding,
      afterStep_setSharding_of_le hfound hindex sharding⟩

/-- Shardings are set, cleared, set again in another order, and set out of range. -/
theorem shardings_refine_assigned_pair :
    let request : Request :=
      { kind := ⟨"test", "pair"⟩
        outputs := 2
        seed := .seed
        source := .given (.tuple [.token, .token])
        operation := .custom none }
    let graph := (request.construct { cache := ⟨1, []⟩ }).2.graph
    let history : List (NodeId × AnnotationStep) :=
      [(0, .setSharding .manual 0), (0, .markDynamic 3), (0, .setSharding .manual 2),
        (0, .setSharding .replicated 1), (0, .clearShardings), (0, .setSharding .manual 1)]
    let other : List (NodeId × AnnotationStep) :=
      [(0, .setSharding .replicated 1), (0, .setSharding .manual 0)]
    (graph.afterSteps history).sharding? 0 0 = .ok (some .manual) ∧
      (graph.afterSteps history).sharding? 0 1 = .ok (some .replicated) ∧
      ∃ found found', (graph.afterSteps history).entryAt? 0 = some found ∧
        (graph.afterSteps other).entryAt? 0 = some found' ∧
        found.annotations.shardingDigest = found.node.ownDigest.combineAll
          (outputWords 0 (some .manual) ++ outputWords 1 (some .replicated)) ∧
        found'.annotations.shardingDigest = found.annotations.shardingDigest ∧
        found'.identity = found.identity := by
  intro request graph history other
  have hentry : graph.entryAt? 0 = some ⟨request.node (.tuple [.token, .token]) _, _, {}⟩ := rfl
  obtain ⟨found, hfound, hnode, _, hreads, _, hdigest, hsame, _⟩ :=
    shardings_refine_assigned hentry rfl history
  have hmap : assigned 2 (attemptedOn 0 other) = assigned 2 (attemptedOn 0 history) := by
    funext index
    rcases index with _ | _ | index <;> simp [other, history, attemptedOn, assigned]
  obtain ⟨found', hfound', hdigests⟩ := hsame other hmap
  refine ⟨hreads 0 (by decide), hreads 1 (by decide), found, found', hfound, hfound', ?_, hdigests⟩
  rw [hnode]
  exact hdigest 0 .manual rfl

end Graph

end TensorGraph
