import TensorGraph.Proofs.Digest
import TensorGraph.Proofs.Graph.Congruence

/-! # Digests tell the last part apart

Whatever is folded into a digest last is told apart by it: the index of a value, the
last operand of a node, the seed under a kind and a shape, and the digest of the
shardings. Everything folded in before has to agree.
-/

namespace TensorGraph

open ListRelations Relation

/-- Kind and shape leave the seed visible in the own digest. -/
theorem Node.ownDigest_eq_iff_seed {node node' : Node} (hkind : node.kind.text = node'.kind.text)
    (hgiven : node.shapeGiven = node'.shapeGiven)
    (hshape : node.shapeGiven = true → node.shape.text = node'.shape.text) :
    node.ownDigest = node'.ownDigest ↔ node.seed = node'.seed := by
  refine ⟨fun hsame => ?_, fun hseed => ownDigest_congr hkind hseed hgiven hshape⟩
  rw [ownDigest, ownDigest, ← hgiven] at hsame
  cases hcase : node.shapeGiven with
  | true =>
      simp only [hcase, ↓reduceIte, digestOf, OpKind.digest, hkind, hshape hcase] at hsame
      exact (Digest.combine_inj _ _ _).mp ((Digest.combine_inj _ _ _).mp hsame)
  | false =>
      simp only [hcase, Bool.false_eq_true, ↓reduceIte, digestOf, OpKind.digest, hkind] at hsame
      exact (Digest.combine_inj _ _ _).mp hsame

namespace Entry

variable {entry other : Entry}

theorem identity_of_sharded (hsharded : entry.shardingDigest ≠ 0) :
    entry.identity = entry.node.subgraphDigest.combine entry.shardingDigest :=
  if_pos hsharded

/-- The identity of a sharded node tells the digests of its shardings apart. -/
theorem identity_eq_iff (hnode : entry.node = other.node) (hsharded : entry.shardingDigest ≠ 0)
    (hsharded' : other.shardingDigest ≠ 0) :
    entry.identity = other.identity ↔ entry.shardingDigest = other.shardingDigest := by
  rw [identity_of_sharded hsharded, identity_of_sharded hsharded', hnode, Digest.combine_inj]

end Entry

namespace Graph

/-- The nodes have the same own digest, and operands of the same digests in front of their last
ones. -/
inductive AlikeUpToLast (left right : Graph) : Entry → Entry → Value → Value → Prop
  | intro {entry entry' : Entry} {front front' : List Value} {last last' : Value} :
      entry.node.ownDigest = entry'.node.ownDigest →
      entry.node.operands = front ++ [last] →
      entry'.node.operands = front' ++ [last'] →
      List.Forall₂ (fun operand operand' =>
        left.subgraphDigestOf operand = right.subgraphDigestOf operand') front front' →
      AlikeUpToLast left right entry entry' last last'

variable {graph left right : Graph} {id other : NodeId} {entry entry' : Entry}

/-- The outputs of a node are told apart by both digests of a value. -/
theorem output_digests (hentry : graph.entryAt? id = some entry) {index index' : UInt64}
    (hne : index ≠ index') :
    ∃ digest digest' identity identity',
      graph.subgraphDigestOf ⟨id, index.toNat⟩ = .ok digest ∧
      graph.subgraphDigestOf ⟨id, index'.toNat⟩ = .ok digest' ∧ digest ≠ digest' ∧
      graph.identityOf ⟨id, index.toNat⟩ = .ok identity ∧
      graph.identityOf ⟨id, index'.toNat⟩ = .ok identity' ∧ identity ≠ identity' := by
  have hindices (state : Digest) : state.combine (.ofIndex index.toNat) ≠
      state.combine (.ofIndex index'.toNat) := by
    rw [Ne, Digest.combine_inj, Digest.ofIndex_toNat_inj]
    exact hne
  exact ⟨_, _, _, _, subgraphDigestOf_of_some hentry, subgraphDigestOf_of_some hentry, hindices _,
    identityOf_of_some hentry, identityOf_of_some hentry, hindices _⟩

/-- The digest of a node folds the digests of its operands in front and then the last one. -/
theorem WellFormed.exists_last_digest (hgraph : graph.WellFormed)
    (hentry : graph.entryAt? id = some entry) {front : List Value} {last : Value}
    (hoperands : entry.node.operands = front ++ [last]) :
    ∃ digests digest, List.Forall₂ (fun operand digest =>
        graph.subgraphDigestOf operand = .ok digest) front digests ∧
      graph.subgraphDigestOf last = .ok digest ∧
      entry.node.subgraphDigest =
        (entry.node.ownDigest.combineAll digests).combine digest := by
  have hfolds := hgraph.digests id entry hentry
  rw [hoperands, operandsDigest_eq_ok_iff] at hfolds
  obtain ⟨all, hall, hfold⟩ := hfolds
  obtain ⟨digests, digest, hfront, hlast, rfl⟩ := (forall₂_concat_iff front last all).mp hall
  exact ⟨digests, digest, hfront, hlast, by rw [← hfold, Digest.combineAll_concat]⟩

/-- Nodes that are alike up to their last operands are told apart exactly if these are. -/
theorem AlikeUpToLast.digest_eq_iff {last last' : Value} (hleft : left.WellFormed)
    (hright : right.WellFormed) (hentry : left.entryAt? id = some entry)
    (hentry' : right.entryAt? other = some entry')
    (halike : AlikeUpToLast left right entry entry' last last') :
    entry.node.subgraphDigest = entry'.node.subgraphDigest ↔
      left.subgraphDigestOf last = right.subgraphDigestOf last' := by
  obtain ⟨hown, hoperands, hoperands', hfront⟩ := halike
  obtain ⟨digests, digest, hdigests, hlast, hfold⟩ := hleft.exists_last_digest hentry hoperands
  obtain ⟨digests', digest', hdigests', hlast', hfold'⟩ :=
    hright.exists_last_digest hentry' hoperands'
  obtain rfl : digests = digests' := by
    refine forall₂_unique hdigests hdigests' (hfront.imp fun operand operand' hsame => ?_)
    intro found found' hfound hfound'
    exact Except.ok.inj (hfound.symm.trans (hsame.trans hfound'))
  rw [hfold, hfold', hown, Digest.combine_inj, hlast, hlast', Except.ok.injEq]

/-- Nodes that read different outputs of a node last are told apart. -/
theorem AlikeUpToLast.digest_ne {producer : NodeId} {index index' : UInt64}
    (hgraph : graph.WellFormed) (hentry : graph.entryAt? id = some entry)
    (hentry' : graph.entryAt? other = some entry')
    (halike : AlikeUpToLast graph graph entry entry' ⟨producer, index.toNat⟩
      ⟨producer, index'.toNat⟩) (hne : index ≠ index') :
    entry.node.subgraphDigest ≠ entry'.node.subgraphDigest := by
  rw [Ne, halike.digest_eq_iff hgraph hgraph hentry hentry']
  obtain ⟨_, hoperands, _, _⟩ := halike
  obtain ⟨_, _, _, hlast, _⟩ := hgraph.exists_last_digest hentry hoperands
  obtain ⟨found, hfound, _⟩ := (graph.subgraphDigestOf_eq_ok_iff _ _).mp hlast
  obtain ⟨digest, digest', _, _, hdigest, hdigest', hdiffer, _⟩ := output_digests hfound hne
  rw [hdigest, hdigest', Except.ok.injEq]
  exact hdiffer

/-- A node without operands has no digest but its own. -/
theorem WellFormed.subgraphDigest_of_nil (hgraph : graph.WellFormed)
    (hentry : graph.entryAt? id = some entry) (hoperands : entry.node.operands = []) :
    entry.node.subgraphDigest = entry.node.ownDigest := by
  have hfolds := hgraph.digests id entry hentry
  rw [hoperands] at hfolds
  exact (Except.ok.inj hfolds).symm

end Graph

namespace Workspace

/-- In constructed workspaces, the outputs of a node have different digests and identities. Nodes
that are alike up to their last operand have the same digest exactly if these operands have, so
never if they are different outputs of a node. Nodes of the same kind and shape have the same own
digest, and without operands the same digest, exactly if they have the same seed. In the states of
a node that is sharded the identity tells the digests of the shardings apart, and for at most one
of these it is the digest without shardings. -/
theorem digests_separate_last {left right : Workspace} (hleft : left.Constructed)
    (hright : right.Constructed) :
    (∀ id entry, left.graph.entryAt? id = some entry → ∀ index index' : UInt64, index ≠ index' →
      ∃ digest digest' identity identity',
        left.graph.subgraphDigestOf ⟨id, index.toNat⟩ = .ok digest ∧
        left.graph.subgraphDigestOf ⟨id, index'.toNat⟩ = .ok digest' ∧ digest ≠ digest' ∧
        left.graph.identityOf ⟨id, index.toNat⟩ = .ok identity ∧
        left.graph.identityOf ⟨id, index'.toNat⟩ = .ok identity' ∧ identity ≠ identity') ∧
      (∀ id other entry entry', left.graph.entryAt? id = some entry →
        right.graph.entryAt? other = some entry' →
        (∀ last last', Graph.AlikeUpToLast left.graph right.graph entry entry' last last' →
          (entry.node.subgraphDigest = entry'.node.subgraphDigest ↔
            left.graph.subgraphDigestOf last = right.graph.subgraphDigestOf last')) ∧
        (entry.node.kind.text = entry'.node.kind.text →
          entry.node.shapeGiven = entry'.node.shapeGiven →
          (entry.node.shapeGiven = true → entry.node.shape.text = entry'.node.shape.text) →
          (entry.node.ownDigest = entry'.node.ownDigest ↔ entry.node.seed = entry'.node.seed) ∧
          (entry.node.operands = [] → entry'.node.operands = [] →
            (entry.node.subgraphDigest = entry'.node.subgraphDigest ↔
              entry.node.seed = entry'.node.seed)))) ∧
      (∀ id other entry entry', left.graph.entryAt? id = some entry →
        left.graph.entryAt? other = some entry' → ∀ producer, ∀ index index' : UInt64,
        Graph.AlikeUpToLast left.graph left.graph entry entry' ⟨producer, index.toNat⟩
          ⟨producer, index'.toNat⟩ →
        index ≠ index' → entry.node.subgraphDigest ≠ entry'.node.subgraphDigest) ∧
      ∀ later later', ReflTransGen Evolves left later → ReflTransGen Evolves left later' →
        ∀ id entry found found', left.graph.entryAt? id = some entry →
          later.graph.entryAt? id = some found → later'.graph.entryAt? id = some found' →
          found.shardingDigest ≠ 0 → found'.shardingDigest ≠ 0 →
          (found.identity = found'.identity ↔ found.shardingDigest = found'.shardingDigest) ∧
          (found.identity = found.node.subgraphDigest →
            found'.identity = found'.node.subgraphDigest →
            found.shardingDigest = found'.shardingDigest) := by
  have hgraph := hleft.wellFormed
  have hgraph' := hright.wellFormed
  refine ⟨fun id entry hentry index index' => Graph.output_digests hentry, ?_, ?_, ?_⟩
  · intro id other entry entry' hentry hentry'
    refine ⟨fun last last' halike => halike.digest_eq_iff hgraph hgraph' hentry hentry', ?_⟩
    intro hkind hgiven hshape
    have hseed := Node.ownDigest_eq_iff_seed hkind hgiven hshape
    refine ⟨hseed, fun hnil hnil' => ?_⟩
    rw [hgraph.subgraphDigest_of_nil hentry hnil, hgraph'.subgraphDigest_of_nil hentry' hnil',
      hseed]
  · intro id other entry entry' hentry hentry' producer index index' halike hne
    exact halike.digest_ne hgraph hentry hentry' hne
  · intro later later' hsteps hsteps' id entry found found' hentry hfound hfound' hsharded hsharded'
    obtain ⟨annotations, hlater⟩ := (grows_of_evolves hsteps hgraph).2 id entry hentry
    obtain ⟨annotations', hlater'⟩ := (grows_of_evolves hsteps' hgraph).2 id entry hentry
    have hnode : found.node = found'.node := by
      rw [Option.some.inj (hfound.symm.trans hlater), Option.some.inj (hfound'.symm.trans hlater')]
    have hidentity := Entry.identity_eq_iff hnode hsharded hsharded'
    refine ⟨hidentity, fun hsame hsame' => hidentity.mp ?_⟩
    rw [hsame, hsame', hnode]

/-- A leaf with two outputs, sharded in two ways, a user of each output, and a leaf with another
seed. -/
theorem digests_separate_last_pair :
    let leaf (seed : Digest) : Request :=
      { kind := ⟨"test", "pair"⟩
        outputs := 2
        seed
        source := .given (.tuple [.token, .token])
        operation := .custom none }
    let user (index : Nat) : Request :=
      { kind := ⟨"test", "user"⟩
        operands := [⟨0, index⟩]
        seed := 0
        source := .given .token
        operation := .custom none }
    let leafEntry (seed : Digest) : Entry :=
      ⟨(leaf seed).node (.tuple [.token, .token]) (leaf seed).ownDigest, .custom none, {}⟩
    let userEntry (index : Nat) : Entry :=
      ⟨(user index).node .token ((user index).ownDigest.combine
        ((leaf 1).ownDigest.combine (.ofIndex index))), .custom none, {}⟩
    let workspace (entries : Array Entry) : Workspace := { graph := ⟨entries⟩, cache := ⟨1, []⟩ }
    let left := workspace #[leafEntry 1, userEntry 0, userEntry 1]
    let right := workspace #[leafEntry 2]
    let sharded (sharding : Sharding) : Workspace :=
      { left with graph := left.graph.afterStep 0 (.setSharding sharding 0) }
    left.Constructed ∧ right.Constructed ∧
      (∃ digest digest', left.graph.subgraphDigestOf ⟨0, 0⟩ = .ok digest ∧
        left.graph.subgraphDigestOf ⟨0, 1⟩ = .ok digest' ∧ digest ≠ digest') ∧
      Graph.AlikeUpToLast left.graph left.graph (userEntry 0) (userEntry 1) ⟨0, 0⟩ ⟨0, 1⟩ ∧
      (userEntry 0).node.subgraphDigest ≠ (userEntry 1).node.subgraphDigest ∧
      (leafEntry 1).node.subgraphDigest ≠ (leafEntry 2).node.subgraphDigest ∧
      ∃ found found', (sharded .replicated).graph.entryAt? 0 = some found ∧
        (sharded .manual).graph.entryAt? 0 = some found' ∧ found.shardingDigest ≠ 0 ∧
        found'.shardingDigest ≠ 0 ∧ found.identity ≠ found'.identity := by
  intro leaf user leafEntry userEntry workspace left right sharded
  have hleft : left.Constructed :=
    ⟨_, .tail (.tail (.single (.construct (workspace #[]) (leaf 1)))
      (.construct (workspace #[leafEntry 1]) (user 0)))
      (.construct (workspace #[leafEntry 1, userEntry 0]) (user 1))⟩
  have hright : right.Constructed := ⟨_, .single (.construct (workspace #[]) (leaf 2))⟩
  obtain ⟨houtputs, hnodes, husers, hstates⟩ := digests_separate_last hleft hright
  obtain ⟨digest, digest', _, _, hdigest, hdigest', hdiffer, _⟩ :=
    houtputs 0 (leafEntry 1) rfl 0 1 (by decide)
  have hown : (userEntry 0).node.ownDigest = (userEntry 1).node.ownDigest := by decide +kernel
  have halike :
      Graph.AlikeUpToLast left.graph left.graph (userEntry 0) (userEntry 1) ⟨0, 0⟩ ⟨0, 1⟩ :=
    @Graph.AlikeUpToLast.intro _ _ _ _ [] [] _ _ hown rfl rfl .nil
  have hkind (seed : Digest) : (leafEntry seed).node.kind = ⟨"test", "pair"⟩ := rfl
  have hgiven (seed : Digest) : (leafEntry seed).node.shapeGiven = true := rfl
  have hshape (seed : Digest) : (leafEntry seed).node.shape = .tuple [.token, .token] := rfl
  have hseeds := ((hnodes 0 0 (leafEntry 1) (leafEntry 2) rfl rfl).2 (by rw [hkind, hkind])
    (by rw [hgiven, hgiven]) fun _ => by rw [hshape, hshape]).2 rfl rfl
  have hstate (sharding : Sharding) : ∃ found,
      (sharded sharding).graph.entryAt? 0 = some found ∧
        found = { leafEntry 1 with
          annotations := Annotations.setSharding {} (leafEntry 1).node.ownDigest 2 0 sharding } :=
    ⟨_, rfl, rfl⟩
  obtain ⟨found, hfound, hreplicated⟩ := hstate .replicated
  obtain ⟨found', hfound', hmanual⟩ := hstate .manual
  have hne : found.shardingDigest ≠ 0 := by rw [hreplicated]; decide +kernel
  have hne' : found'.shardingDigest ≠ 0 := by rw [hmanual]; decide +kernel
  have hdigests : found.shardingDigest ≠ found'.shardingDigest := by
    rw [hreplicated, hmanual]
    decide +kernel
  have hsharded := (hstates (sharded .replicated) (sharded .manual)
    (.single (.annotate left 0 _)) (.single (.annotate left 0 _)) 0 (leafEntry 1) found found' rfl
    hfound hfound' hne hne').1
  exact ⟨hleft, hright, ⟨digest, digest', hdigest, hdigest', hdiffer⟩, halike,
    husers 1 2 (userEntry 0) (userEntry 1) rfl rfl 0 0 1 halike (by decide),
    mt hseeds.mp (by decide), found, found', hfound, hfound', hne, hne', mt hsharded.mp hdigests⟩

end Workspace

end TensorGraph
