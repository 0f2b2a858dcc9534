import TensorGraph.Proofs.Emission.Block
import TensorGraph.Proofs.Graph.PostOrder
import TensorGraph.Proofs.Workspace.BuiltIn

/-! # Graphs of the same structure

Two values have the same structure if they unfold to the same operations with the
same parameters and shapes. This does not see in which order the nodes were
constructed, nor which of them are shared; neither does the digest. What it pairs
with each other are the counterparts below two lists of roots.
-/

namespace TensorGraph.Graph

open Effects ListRelations Relation

/-- The values are the same outputs of nodes with the same operation and shape, whose operands have
pairwise the same structure. -/
inductive SameValue (left right : Graph) : Value → Value → Prop
  | intro {id other : NodeId} {entry entry' : Entry} (index : Nat) :
      left.entryAt? id = some entry →
      right.entryAt? other = some entry' →
      entry.operation = entry'.operation →
      entry.node.shape = entry'.node.shape →
      entry.node.operands.length = entry'.node.operands.length →
      (∀ operand operand', (operand, operand') ∈ entry.node.operands.zip entry'.node.operands →
        SameValue left right operand operand') →
      SameValue left right ⟨id, index⟩ ⟨other, index⟩

/-- The nodes have the same operation, shape and structure of operands. -/
structure SameEntry (left right : Graph) (entry entry' : Entry) : Prop where
  operation : entry.operation = entry'.operation
  shape : entry.node.shape = entry'.node.shape
  operands : List.Forall₂ (SameValue left right) entry.node.operands entry'.node.operands

/-- Two lists of roots of the same structure in graphs of built-in operations. -/
structure SameRoots (left right : Graph) (roots roots' : List Value) : Prop where
  builtIn : left.BuiltIn
  builtIn' : right.BuiltIn
  values : ∀ root ∈ roots, left.HasValue root
  values' : ∀ root ∈ roots', right.HasValue root
  same : List.Forall₂ (SameValue left right) roots roots'

/-- The nodes are reached from roots at the same position through operands at the same positions. -/
inductive Counterparts (left right : Graph) (roots roots' : List Value) : NodeId → NodeId → Prop
  | root {root root' : Value} :
      (root, root') ∈ roots.zip roots' →
      Counterparts left right roots roots' root.node root'.node
  | operand {id other : NodeId} {entry entry' : Entry} {operand operand' : Value} :
      Counterparts left right roots roots' id other →
      left.entryAt? id = some entry →
      right.entryAt? other = some entry' →
      (operand, operand') ∈ entry.node.operands.zip entry'.node.operands →
      Counterparts left right roots roots' operand.node operand'.node

/-- The counterparts were constructed in the same order, and shared alike. -/
def InStep (left right : Graph) (roots roots' : List Value) : Prop :=
  ∀ id other id' other', Counterparts left right roots roots' id other →
    Counterparts left right roots roots' id' other' → (id < id' ↔ other < other')

/-- No node has a sharding. -/
def Unsharded (graph : Graph) : Prop :=
  ∀ id entry, graph.entryAt? id = some entry → entry.annotations.shardings = []

section Same

variable {left right : Graph} {roots roots' : List Value}

theorem SameValue.index_eq {value value' : Value} (hsame : SameValue left right value value') :
    value.index = value'.index := by
  cases hsame with
  | intro => rfl

theorem SameValue.entries {value value' : Value} (hsame : SameValue left right value value') :
    ∃ entry entry', left.entryAt? value.node = some entry ∧
      right.entryAt? value'.node = some entry' ∧ SameEntry left right entry entry' := by
  cases hsame with
  | intro index hentry hentry' hoperation hshape hlength hoperands =>
      refine ⟨_, _, hentry, hentry', hoperation, hshape, ?_⟩
      exact List.forall₂_iff_zip.mpr ⟨hlength, fun hmem => hoperands _ _ hmem⟩

theorem SameValue.sameEntry {value value' : Value} (hsame : SameValue left right value value')
    {entry entry' : Entry} (hentry : left.entryAt? value.node = some entry)
    (hentry' : right.entryAt? value'.node = some entry') : SameEntry left right entry entry' := by
  obtain ⟨found, found', hfound, hfound', hentries⟩ := hsame.entries
  obtain rfl : found = entry := Option.some.inj (hfound.symm.trans hentry)
  obtain rfl : found' = entry' := Option.some.inj (hfound'.symm.trans hentry')
  exact hentries

theorem SameValue.swap {value value' : Value} (hsame : SameValue left right value value') :
    SameValue right left value' value := by
  induction hsame with
  | intro index hentry hentry' hoperation hshape hlength _ ih =>
      refine .intro index hentry' hentry hoperation.symm hshape.symm hlength.symm ?_
      exact fun operand' operand hmem => ih operand operand' (mem_zip_swap.mp hmem)

theorem SameRoots.swap (hroots : SameRoots left right roots roots') :
    SameRoots right left roots' roots where
  builtIn := hroots.builtIn'
  builtIn' := hroots.builtIn
  values := hroots.values'
  values' := hroots.values
  same := (hroots.same.imp fun _ _ hsame => hsame.swap).flip

/-- The number of outputs follows from what is the same. -/
theorem SameEntry.outputs_eq {entry entry' : Entry} (hsame : SameEntry left right entry entry')
    (hfits : entry.operation.Fits entry.node) (hfits' : entry'.operation.Fits entry'.node) :
    entry.node.outputs = entry'.node.outputs :=
  hfits.outputs_eq (hsame.operation ▸ hfits') hsame.operands.length_eq

namespace Counterparts

variable {id other : NodeId}

theorem swap (hcounterparts : Counterparts left right roots roots' id other) :
    Counterparts right left roots' roots other id := by
  induction hcounterparts with
  | root hmem => exact .root (mem_zip_swap.mp hmem)
  | operand _ hentry hentry' hmem ih => exact .operand ih hentry' hentry (mem_zip_swap.mp hmem)

/-- Counterparts are paired by values of the same structure. -/
theorem exists_sameValue (hroots : SameRoots left right roots roots')
    (hcounterparts : Counterparts left right roots roots' id other) :
    ∃ value value', value.node = id ∧ value'.node = other ∧
      SameValue left right value value' := by
  induction hcounterparts with
  | root hmem => exact ⟨_, _, rfl, rfl, List.forall₂_zip hroots.same hmem⟩
  | operand _ hentry hentry' hmem ih =>
      obtain ⟨value, value', rfl, rfl, hsame⟩ := ih
      have hoperands := (hsame.sameEntry hentry hentry').operands
      exact ⟨_, _, rfl, rfl, List.forall₂_zip hoperands hmem⟩

theorem entries (hroots : SameRoots left right roots roots')
    (hcounterparts : Counterparts left right roots roots' id other) :
    ∃ entry entry', left.entryAt? id = some entry ∧ right.entryAt? other = some entry' ∧
      SameEntry left right entry entry' := by
  obtain ⟨value, value', rfl, rfl, hsame⟩ := hcounterparts.exists_sameValue hroots
  exact hsame.entries

theorem sameEntry (hroots : SameRoots left right roots roots')
    (hcounterparts : Counterparts left right roots roots' id other) {entry entry' : Entry}
    (hentry : left.entryAt? id = some entry) (hentry' : right.entryAt? other = some entry') :
    SameEntry left right entry entry' := by
  obtain ⟨value, value', rfl, rfl, hsame⟩ := hcounterparts.exists_sameValue hroots
  exact hsame.sameEntry hentry hentry'

theorem mem_postOrder (hroots : SameRoots left right roots roots')
    (hcounterparts : Counterparts left right roots roots' id other) :
    id ∈ left.postOrder roots := by
  have hordered := hroots.builtIn.wellFormed.ordered
  induction hcounterparts with
  | root hmem =>
      have hroot := (List.of_mem_zip hmem).1
      exact root_mem_postOrder hordered hroot (hroots.values _ hroot)
  | operand _ hentry _ hmem ih =>
      exact operand_mem_postOrder hordered ih (.of_mem hentry (List.of_mem_zip hmem).1)

end Counterparts

/-- Everything below the roots has a counterpart. -/
theorem exists_counterpart (hroots : SameRoots left right roots roots') {id : NodeId}
    (hmem : id ∈ left.postOrder roots) :
    ∃ other, Counterparts left right roots roots' id other := by
  have hordered := hroots.builtIn.wellFormed.ordered
  obtain ⟨root, hroot, _, hreaches⟩ := (mem_postOrder hordered roots id).mp hmem
  clear hmem
  induction hreaches with
  | refl =>
      obtain ⟨root', hzip⟩ := exists_mem_zip hroots.same.length_eq hroot
      exact ⟨root'.node, .root hzip⟩
  | tail _ hreads ih =>
      obtain ⟨other, hcounterparts⟩ := ih
      obtain ⟨entry, entry', hentry, hentry', hsame⟩ := hcounterparts.entries hroots
      obtain ⟨value, hvalue, rfl⟩ := List.mem_map.mp hreads
      rw [operandsOf_eq hentry] at hvalue
      obtain ⟨value', hzip⟩ := exists_mem_zip hsame.operands.length_eq hvalue
      exact ⟨value'.node, hcounterparts.operand hentry hentry' hzip⟩

namespace InStep

/-- In step, a node has one counterpart and is the counterpart of one node. -/
theorem eq_iff (hinStep : InStep left right roots roots') {id other id' other' : NodeId}
    (hfirst : Counterparts left right roots roots' id other)
    (hsecond : Counterparts left right roots roots' id' other') : id = id' ↔ other = other' := by
  have hlt := hinStep _ _ _ _ hfirst hsecond
  have hgt := hinStep _ _ _ _ hsecond hfirst
  constructor
  · rintro rfl
    refine Nat.le_antisymm (Nat.le_of_not_lt fun h => ?_) (Nat.le_of_not_lt fun h => ?_)
    · exact Nat.lt_irrefl _ (hgt.mpr h)
    · exact Nat.lt_irrefl _ (hlt.mpr h)
  · rintro rfl
    refine Nat.le_antisymm (Nat.le_of_not_lt fun h => ?_) (Nat.le_of_not_lt fun h => ?_)
    · exact Nat.lt_irrefl _ (hgt.mp h)
    · exact Nat.lt_irrefl _ (hlt.mp h)

/-- In step, the nodes below the roots are visited as pairs of counterparts. -/
theorem postOrder (hinStep : InStep left right roots roots')
    (hroots : SameRoots left right roots roots') :
    List.Forall₂ (Counterparts left right roots roots') (left.postOrder roots)
      (right.postOrder roots') := by
  refine forall₂_of_sorted (postOrder_sorted roots) (postOrder_sorted roots') ?_ ?_ hinStep
  · intro id hid
    obtain ⟨other, hcounterparts⟩ := exists_counterpart hroots hid
    exact ⟨other, hcounterparts.swap.mem_postOrder hroots.swap, hcounterparts⟩
  · intro other hother
    obtain ⟨id, hcounterparts⟩ := exists_counterpart hroots.swap hother
    exact ⟨id, hcounterparts.swap.mem_postOrder hroots, hcounterparts.swap⟩

end InStep

end Same

end TensorGraph.Graph

namespace TensorGraph

open Effects ListRelations

/-- The own digest of a built-in node of the given shape; a computed shape does not enter it. -/
def Operation.ownDigest (operation : Operation) (shape : Shape) : Digest :=
  match operation with
  | .deviceData name => Node.digestOf .deviceData (.ofData [.text name]) (some shape)
  | .token => Node.digestOf .createToken .seed (some shape)
  | .allReduce reduction => Node.digestOf .crossReplicaSum (.ofData reduction.data) (some shape)
  | .orderedAllReduce reduction pinned =>
    Node.digestOf .crossReplicaSum (.ofData (reduction.data ++ [.flag pinned])) none
  | .custom _ => 0

/-- The own digest of a built-in node follows from its operation and shape. -/
theorem Entry.MadeFrom.ownDigest {entry : Entry} {request : Request}
    (hrequest : request.IsBuiltIn) (hmade : entry.MadeFrom request) :
    entry.node.ownDigest = entry.operation.ownDigest entry.node.shape := by
  obtain ⟨hoperation, shape, digest, _, hnode⟩ := hmade
  rw [hoperation, hnode]
  cases hrequest <;> rfl

namespace Graph

variable {left right : Graph}

theorem operandsDigest_congr {own own' : Digest} (hown : own = own')
    {operands operands' : List Value} (hoperands : List.Forall₂ (fun operand operand' =>
      left.subgraphDigestOf operand = right.subgraphDigestOf operand') operands operands') :
    left.operandsDigest own operands = right.operandsDigest own' operands' := by
  rw [Graph.operandsDigest, Graph.operandsDigest, mapM_congr_forall₂ hoperands, hown]

/-- Values of the same structure have the same digest. The induction is on the structure; the own
digests agree by operation and shape, those of the operands by induction. -/
theorem SameValue.subgraphDigestOf (hleft : left.BuiltIn) (hright : right.BuiltIn)
    {value value' : Value} (hsame : SameValue left right value value') :
    left.subgraphDigestOf value = right.subgraphDigestOf value' := by
  induction hsame with
  | @intro id other entry entry' index hentry hentry' hoperation hshape hlength _ ih =>
      obtain ⟨request, hrequest, hmade⟩ := hleft.made id entry hentry
      obtain ⟨request', hrequest', hmade'⟩ := hright.made other entry' hentry'
      -- a shape that was computed enters neither digest, and one that was given is the same
      have hown : entry.node.ownDigest = entry'.node.ownDigest := by
        rw [hmade.ownDigest hrequest, hmade'.ownDigest hrequest', hoperation, hshape]
      have hoperands : List.Forall₂ (fun operand operand' =>
          left.subgraphDigestOf operand = right.subgraphDigestOf operand')
          entry.node.operands entry'.node.operands :=
        List.forall₂_iff_zip.mpr ⟨hlength, fun hmem => ih _ _ hmem⟩
      have hdigest : entry.node.subgraphDigest = entry'.node.subgraphDigest := by
        have hfolds := hleft.wellFormed.digests id entry hentry
        have hfolds' := hright.wellFormed.digests other entry' hentry'
        rw [operandsDigest_congr hown hoperands, hfolds'] at hfolds
        exact (Except.ok.inj hfolds).symm
      rw [subgraphDigestOf_of_some hentry, subgraphDigestOf_of_some hentry', hdigest]

/-- Without shardings the identity of a value is the digest of its subgraph. -/
theorem Unsharded.identityOf {graph : Graph} (hunsharded : graph.Unsharded)
    (hdigested : graph.Digested) {value : Value} {entry : Entry}
    (hentry : graph.entryAt? value.node = some entry) :
    graph.identityOf value = graph.subgraphDigestOf value := by
  have hzero : entry.shardingDigest = 0 := by
    rw [Entry.shardingDigest, hdigested _ entry hentry, if_pos (hunsharded _ entry hentry)]
  rw [identityOf_of_some hentry, subgraphDigestOf_of_some hentry, Entry.identity_of_zero hzero]

/-- Roots of the same structure have the same digest. -/
theorem SameRoots.digest {roots roots' : List Value} (hroots : SameRoots left right roots roots')
    (hunsharded : left.Unsharded) (hunsharded' : right.Unsharded) :
    ∃ digest, left.digest roots = .ok digest ∧ right.digest roots' = .ok digest := by
  refine exists_digest (hroots.same.imp fun root root' hsame => ?_)
  obtain ⟨entry, entry', hentry, hentry', _⟩ := hsame.entries
  have hdigest := subgraphDigestOf_of_some hentry
  rw [hunsharded.identityOf hroots.builtIn.digested hentry,
    hunsharded'.identityOf hroots.builtIn'.digested hentry',
    ← hsame.subgraphDigestOf hroots.builtIn hroots.builtIn']
  exact ⟨_, hdigest, hdigest⟩

end Graph

end TensorGraph
