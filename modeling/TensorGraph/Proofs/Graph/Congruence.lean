import TensorGraph.Proofs.Graph.Structure
import TensorGraph.Proofs.Workspace.Evolution

/-! # Identity is a congruence

Nodes made from the same parts over operands made from the same parts have the
same digests, whichever graph they stand in and whatever happened to it. What is
annotated later touches no digest; only the shardings of the roots themselves
enter the identity of a computation.
-/

namespace TensorGraph

open Effects Relation

/-- Kind, seed and the text of a given shape fix the own digest. -/
theorem Node.ownDigest_congr {node node' : Node} (hkind : node.kind.text = node'.kind.text)
    (hseed : node.seed = node'.seed) (hgiven : node.shapeGiven = node'.shapeGiven)
    (hshape : node.shapeGiven = true → node.shape.text = node'.shape.text) :
    node.ownDigest = node'.ownDigest := by
  rw [ownDigest, ownDigest, ← hgiven, hseed]
  cases hcase : node.shapeGiven with
  | true =>
      simp only [↓reduceIte, digestOf, OpKind.digest]
      rw [hkind, hshape hcase]
  | false =>
      simp only [Bool.false_eq_true, ↓reduceIte, digestOf, OpKind.digest]
      rw [hkind]

namespace Graph

/-- The nodes have the same kind and seed, were both given a shape, of the same text, or both
computed theirs, and read the same outputs of congruent nodes. -/
inductive Congruent (left right : Graph) : NodeId → NodeId → Prop
  | intro {id other : NodeId} {entry entry' : Entry} :
      left.entryAt? id = some entry →
      right.entryAt? other = some entry' →
      entry.node.kind.text = entry'.node.kind.text →
      entry.node.seed = entry'.node.seed →
      entry.node.shapeGiven = entry'.node.shapeGiven →
      (entry.node.shapeGiven = true → entry.node.shape.text = entry'.node.shape.text) →
      entry.node.operands.map Value.index = entry'.node.operands.map Value.index →
      (∀ operand operand', (operand, operand') ∈ entry.node.operands.zip entry'.node.operands →
        Congruent left right operand.node operand'.node) →
      Congruent left right id other

/-- The shardings of a node. -/
def shardingsAt (graph : Graph) (id : NodeId) : List (Option Sharding) :=
  ((graph.entryAt? id).map fun entry => entry.annotations.shardings).getD []

section Congruent

variable {left right : Graph}

/-- Congruent nodes have the same digests. The induction is on the congruence: the operands have the
same digests, and they are folded into the same own digest. -/
theorem Congruent.digests_eq (hleft : left.WellFormed) (hright : right.WellFormed)
    {id other : NodeId} (hcongruent : Congruent left right id other) :
    ∃ entry entry', left.entryAt? id = some entry ∧ right.entryAt? other = some entry' ∧
      entry.node.ownDigest = entry'.node.ownDigest ∧
      entry.node.subgraphDigest = entry'.node.subgraphDigest := by
  induction hcongruent with
  | @intro id other entry entry' hentry hentry' hkind hseed hgiven hshape hindices _ ih =>
      have hown := Node.ownDigest_congr hkind hseed hgiven hshape
      refine ⟨entry, entry', hentry, hentry', hown, ?_⟩
      have hlength : entry.node.operands.length = entry'.node.operands.length := by
        simpa using congrArg List.length hindices
      have hoperands : List.Forall₂ (fun operand operand' =>
          left.subgraphDigestOf operand = right.subgraphDigestOf operand')
          entry.node.operands entry'.node.operands := by
        have hindex := List.forall₂_map_left_iff.mp
          (List.forall₂_map_right_iff.mp (List.forall₂_eq_eq_eq ▸ hindices))
        refine List.forall₂_iff_zip.mpr ⟨hlength, fun {operand operand'} hmem => ?_⟩
        obtain ⟨found, found', hfound, hfound', _, hdigest⟩ := ih operand operand' hmem
        rw [subgraphDigestOf_of_some hfound, subgraphDigestOf_of_some hfound', hdigest,
          List.forall₂_zip hindex hmem]
      have hfolds := hleft.digests id entry hentry
      rw [operandsDigest_congr hown hoperands, hright.digests other entry' hentry'] at hfolds
      exact (Except.ok.inj hfolds).symm

end Congruent

/-- The digest of roots that keep their shardings stays the same in a later graph, as the stored
digests follow the shardings. -/
theorem Extends.digest_eq {later earlier : Graph} (hextends : later.Extends earlier)
    (hlater : later.Digested) (hearlier : earlier.Digested) {roots : List Value}
    (hroots : ∀ root ∈ roots, root.node < earlier.size)
    (hshardings : ∀ root ∈ roots, later.shardingsAt root.node = earlier.shardingsAt root.node) :
    ∃ digest, earlier.digest roots = .ok digest ∧ later.digest roots = .ok digest := by
  refine exists_digest (List.forall₂_same.mpr fun root hroot => ?_)
  obtain ⟨entry, hentry⟩ := exists_entryAt? (hroots root hroot)
  obtain ⟨annotations, hfound⟩ := hextends _ _ hentry
  have hsame := hshardings root hroot
  rw [shardingsAt, shardingsAt, hentry, hfound] at hsame
  have hdigest : annotations.shardingDigest = entry.annotations.shardingDigest :=
    Annotations.Digested.shardingDigest_congr (hlater _ _ hfound) (hearlier _ _ hentry) hsame
  have hidentity : { entry with annotations : Entry }.identity = entry.identity :=
    Entry.identity_congr rfl hdigest
  refine ⟨_, identityOf_of_some hentry, ?_⟩
  rw [identityOf_of_some hfound, hidentity]

end Graph

namespace Workspace

/-- Congruent nodes have the same digests, in whatever way both graphs came about. No later step
changes a digest of a node, and the digest of a computation stays the same as long as its roots
keep their shardings. -/
theorem congruent_digests {left right : Workspace} (hleft : left.Constructed)
    (hright : right.Constructed) :
    (∀ id other, left.graph.Congruent right.graph id other →
      ∃ entry entry', left.graph.entryAt? id = some entry ∧
        right.graph.entryAt? other = some entry' ∧
        entry.node.ownDigest = entry'.node.ownDigest ∧
        entry.node.subgraphDigest = entry'.node.subgraphDigest) ∧
      ∀ later, ReflTransGen Evolves left later →
        (∀ id entry, left.graph.entryAt? id = some entry →
          ∃ found, later.graph.entryAt? id = some found ∧
            found.node.ownDigest = entry.node.ownDigest ∧
            found.node.subgraphDigest = entry.node.subgraphDigest) ∧
        ∀ roots : List Value, (∀ root ∈ roots, root.node < left.graph.size) →
          (∀ root ∈ roots,
            later.graph.shardingsAt root.node = left.graph.shardingsAt root.node) →
          ∃ digest, left.graph.digest roots = .ok digest ∧
            later.graph.digest roots = .ok digest := by
  refine ⟨fun id other hcongruent =>
    hcongruent.digests_eq hleft.wellFormed hright.wellFormed, fun later hsteps => ?_⟩
  obtain ⟨_, hextends⟩ := grows_of_evolves hsteps hleft.wellFormed
  refine ⟨fun id entry hentry => ?_, fun roots hroots hshardings => ?_⟩
  · obtain ⟨annotations, hlater⟩ := hextends id entry hentry
    exact ⟨_, hlater, rfl, rfl⟩
  · exact hextends.digest_eq (digested_of_evolves hsteps hleft.digested) hleft.digested hroots
      hshardings

/-- The same reduction of the same input in two graphs. In one of them the input comes second and
has a sharding, and in the other it is sharded afterwards. -/
theorem congruent_digests_reduction :
    let input := BuiltInNode.deviceData "x" (.scalar .float32)
    let reduction : Reduction := ⟨.sum, .one, []⟩
    let left := ((BuiltInNode.allReduce reduction ⟨0, 0⟩).build
      (input.build { cache := ⟨1, []⟩ }).2).2
    let second := (input.build (BuiltInNode.token.build { cache := ⟨2, []⟩ }).2).2
    let sharded : Workspace :=
      { second with graph := second.graph.afterStep 1 (.setSharding .replicated 0) }
    let right := ((BuiltInNode.allReduce reduction ⟨1, 0⟩).build sharded).2
    let later : Workspace :=
      { left with graph := left.graph.afterStep 0 (.setSharding .manual 0) }
    left.graph.Congruent right.graph 1 2 ∧
      (∃ entry entry', left.graph.entryAt? 1 = some entry ∧
        right.graph.entryAt? 2 = some entry' ∧ entry.node.ownDigest = entry'.node.ownDigest ∧
        entry.node.subgraphDigest = entry'.node.subgraphDigest) ∧
      later.graph.shardingsAt 0 ≠ left.graph.shardingsAt 0 ∧
      ∃ digest, left.graph.digest [⟨1, 0⟩] = .ok digest ∧
        later.graph.digest [⟨1, 0⟩] = .ok digest := by
  intro input reduction left second sharded right later
  have hleft : left.Constructed :=
    ⟨_, .tail (.single (.build _ input)) (.build _ (.allReduce reduction ⟨0, 0⟩))⟩
  have hright : right.Constructed :=
    ⟨_, .tail (.tail (.tail (.single (.build _ .token)) (.build _ input))
      (.annotate _ 1 (.setSharding .replicated 0))) (.build _ (.allReduce reduction ⟨1, 0⟩))⟩
  have hinputs : left.graph.Congruent right.graph 0 1 :=
    .intro rfl rfl rfl rfl rfl (fun _ => rfl) rfl fun _ _ hmem => absurd hmem List.not_mem_nil
  have hcongruent : left.graph.Congruent right.graph 1 2 := by
    refine .intro rfl rfl rfl rfl rfl (fun _ => rfl) rfl fun operand operand' hmem => ?_
    obtain ⟨rfl, rfl⟩ := Prod.mk.inj (List.mem_singleton.mp hmem)
    exact hinputs
  obtain ⟨hdigests, hlater⟩ := congruent_digests hleft hright
  refine ⟨hcongruent, hdigests 1 2 hcongruent, by decide, ?_⟩
  refine (hlater later (.single (.annotate _ 0 (.setSharding .manual 0)))).2 _ ?_ ?_
  · intro root hroot
    obtain rfl := List.mem_singleton.mp hroot
    decide
  · intro root hroot
    obtain rfl := List.mem_singleton.mp hroot
    rfl

end Workspace

end TensorGraph
