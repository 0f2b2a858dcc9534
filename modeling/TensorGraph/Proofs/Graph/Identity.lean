import TensorGraph.Proofs.Effects
import TensorGraph.Proofs.Graph.Order
import TensorGraph.Proofs.ListRelations

/-! # Digests of operands

The digest of a node folds the digests of its operands into the node's own. All
of them are fixed at construction, so a graph that grows never changes one.
-/

namespace TensorGraph

variable {Metadata : Type}

/-- Of the annotations only the digest of the shardings enters the identity. -/
theorem Entry.identity_congr {entry other : Entry Metadata} (hnode : entry.node = other.node)
    (hdigest : entry.shardingDigest = other.shardingDigest) : entry.identity = other.identity := by
  rw [identity, identity, hdigest, hnode]

theorem Entry.identity_of_zero {entry : Entry Metadata} (hzero : entry.shardingDigest = 0) :
    entry.identity = entry.node.subgraphDigest := by
  rw [identity, if_neg (not_not_intro hzero)]

namespace Graph

open Effects

/-- Nodes read earlier nodes, and their digests are those of their operands. -/
structure WellFormed (graph : Graph Metadata) : Prop where
  ordered : graph.Ordered
  digests : ∀ id entry, graph.entryAt? id = some entry →
    graph.operandsDigest entry.node.ownDigest entry.node.operands =
      .ok entry.node.subgraphDigest

theorem subgraphDigestOf_eq_ok_iff (graph : Graph Metadata) (value : Value) (digest : Digest) :
    graph.subgraphDigestOf value = .ok digest ↔
      ∃ entry, graph.entryAt? value.node = some entry ∧
        entry.node.subgraphDigest.combine (.ofIndex value.index) = digest := by
  rw [subgraphDigestOf, entryAt]
  cases hentry : graph.entryAt? value.node <;> simp [bind, Except.bind, pure, Except.pure]

theorem subgraphDigestOf_of_some {graph : Graph Metadata} {value : Value} {entry : Entry Metadata}
    (hentry : graph.entryAt? value.node = some entry) :
    graph.subgraphDigestOf value =
      .ok (entry.node.subgraphDigest.combine (.ofIndex value.index)) :=
  (graph.subgraphDigestOf_eq_ok_iff value _).mpr ⟨entry, hentry, rfl⟩

theorem operandsDigest_eq_ok_iff (graph : Graph Metadata) (own digest : Digest)
    (operands : List Value) :
    graph.operandsDigest own operands = .ok digest ↔
      ∃ digests, List.Forall₂ (fun operand digest => graph.subgraphDigestOf operand = .ok digest)
        operands digests ∧ own.combineAll digests = digest := by
  rw [operandsDigest]
  cases hdigests : operands.mapM graph.subgraphDigestOf with
  | error fault =>
      simp only [bind, Except.bind, reduceCtorEq, false_iff, not_exists, not_and]
      intro digests hforall
      rw [(mapM_eq_ok_iff _ _ _).mpr hforall] at hdigests
      cases hdigests
  | ok digests =>
      simp only [bind, Except.bind, pure, Except.pure, Except.ok.injEq]
      constructor
      · exact fun heq => ⟨digests, (mapM_eq_ok_iff _ _ _).mp hdigests, heq⟩
      · rintro ⟨others, hforall, heq⟩
        rw [(mapM_eq_ok_iff _ _ _).mpr hforall] at hdigests
        cases hdigests
        exact heq

theorem node_lt_of_operandsDigest {graph : Graph Metadata} {own digest : Digest}
    {operands : List Value} (hdigest : graph.operandsDigest own operands = .ok digest) :
    ∀ operand ∈ operands, operand.node < graph.size := by
  obtain ⟨digests, hforall, _⟩ := (graph.operandsDigest_eq_ok_iff own digest operands).mp hdigest
  intro operand hmem
  obtain ⟨position, hposition, rfl⟩ := List.getElem_of_mem hmem
  have hoperand := hforall.get hposition (hforall.length_eq ▸ hposition)
  obtain ⟨entry, hentry, _⟩ := (graph.subgraphDigestOf_eq_ok_iff _ _).mp hoperand
  exact entryAt?_lt hentry

/-- Values of existing nodes can be folded into a digest, whether or not they are outputs. -/
theorem exists_operandsDigest {graph : Graph Metadata} {operands : List Value}
    (hoperands : ∀ operand ∈ operands, operand.node < graph.size) (own : Digest) :
    ∃ digest, graph.operandsDigest own operands = .ok digest := by
  obtain ⟨digests, hdigests⟩ : ∃ digests, List.Forall₂
      (fun operand digest => graph.subgraphDigestOf operand = .ok digest) operands digests := by
    refine ListRelations.exists_forall₂ fun operand hmem => ?_
    obtain ⟨entry, hentry⟩ := exists_entryAt? (hoperands operand hmem)
    exact ⟨_, subgraphDigestOf_of_some hentry⟩
  exact ⟨_, (graph.operandsDigest_eq_ok_iff own _ operands).mpr ⟨digests, hdigests, rfl⟩⟩

theorem identityOf_of_some {graph : Graph Metadata} {value : Value} {entry : Entry Metadata}
    (hentry : graph.entryAt? value.node = some entry) :
    graph.identityOf value = .ok (entry.identity.combine (.ofIndex value.index)) := by
  rw [identityOf, entryAt, hentry]
  rfl

/-- Roots of pairwise the same identity have the same digest. -/
theorem exists_digest {left right : Graph Metadata} {roots roots' : List Value}
    (hroots : List.Forall₂ (fun root root' => ∃ identity,
      left.identityOf root = .ok identity ∧ right.identityOf root' = .ok identity) roots roots') :
    ∃ digest, left.digest roots = .ok digest ∧ right.digest roots' = .ok digest := by
  obtain ⟨identities, hleft, hright⟩ := ListRelations.exists_between hroots
  refine ⟨Digest.seed.combineAll identities, ?_, ?_⟩
  · rw [Graph.digest, (mapM_eq_ok_iff left.identityOf roots identities).mpr hleft]
    rfl
  · rw [Graph.digest, (mapM_eq_ok_iff right.identityOf roots' identities).mpr hright]
    rfl

namespace Extends

variable {later earlier : Graph Metadata}

theorem subgraphDigestOf (hextends : later.Extends earlier) {value : Value} {digest : Digest}
    (hdigest : earlier.subgraphDigestOf value = .ok digest) :
    later.subgraphDigestOf value = .ok digest := by
  obtain ⟨entry, hentry, heq⟩ := (earlier.subgraphDigestOf_eq_ok_iff _ _).mp hdigest
  obtain ⟨annotations, hlater⟩ := hextends _ _ hentry
  exact (later.subgraphDigestOf_eq_ok_iff _ _).mpr ⟨_, hlater, heq⟩

theorem operandsDigest (hextends : later.Extends earlier) {own digest : Digest}
    {operands : List Value} (hdigest : earlier.operandsDigest own operands = .ok digest) :
    later.operandsDigest own operands = .ok digest := by
  obtain ⟨digests, hforall, heq⟩ := (earlier.operandsDigest_eq_ok_iff _ _ _).mp hdigest
  exact (later.operandsDigest_eq_ok_iff _ _ _).mpr
    ⟨digests, hforall.imp fun _ _ => hextends.subgraphDigestOf, heq⟩

end Extends

namespace WellFormed

theorem empty : WellFormed ({} : Graph Metadata) where
  ordered := by intro id entry hentry; simp [entryAt?] at hentry
  digests := by intro id entry hentry; simp [entryAt?] at hentry

/-- A node over nodes of the graph with the digest of its operands may be appended. -/
theorem push {graph : Graph Metadata} (hgraph : graph.WellFormed) {entry : Entry Metadata}
    (hdigest : graph.operandsDigest entry.node.ownDigest entry.node.operands =
      .ok entry.node.subgraphDigest) : (graph.push entry).WellFormed where
  ordered := by
    intro id found hfound operand hmem
    rw [entryAt?_push] at hfound
    split at hfound
    next heq =>
      obtain rfl := Option.some.inj hfound
      -- what has a digest belongs to a node of the graph so far
      rw [heq]
      exact node_lt_of_operandsDigest hdigest operand hmem
    next => exact hgraph.ordered id found hfound operand hmem
  digests := by
    intro id found hfound
    have hextends := Extends.push graph entry
    rw [entryAt?_push] at hfound
    split at hfound
    next =>
      obtain rfl := Option.some.inj hfound
      exact hextends.operandsDigest hdigest
    next => exact hextends.operandsDigest (hgraph.digests id found hfound)

theorem annotate {graph : Graph Metadata} (hgraph : graph.WellFormed) (id : NodeId)
    (change : Annotations Metadata → Annotations Metadata) :
    (graph.annotate id change).WellFormed where
  ordered := by
    intro other found hfound operand hmem
    obtain ⟨annotations, hentry⟩ := entryAt?_of_annotate hfound
    exact hgraph.ordered other _ hentry operand hmem
  digests := by
    intro other found hfound
    obtain ⟨annotations, hentry⟩ := entryAt?_of_annotate hfound
    have hdigest := hgraph.digests other _ hentry
    exact (Extends.annotate graph id change).operandsDigest hdigest

end WellFormed

end Graph

end TensorGraph
