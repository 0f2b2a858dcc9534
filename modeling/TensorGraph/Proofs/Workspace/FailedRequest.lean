import TensorGraph.Proofs.Workspace.Transparency

/-! # What a failed request leaves behind

A request that fails adds no node. Its computation may have succeeded nevertheless:
then the shape is cached, although it does not fit the outputs. This is the only
trace of the request, and nobody notices it whose computation under the same digest
has the same result.
-/

namespace TensorGraph

open Effects

/-- The cached shapes as results of computations. -/
def ShapeCache.ledger (cache : ShapeCache) : List ShapeDemand :=
  cache.entries.map fun entry => ⟨entry.1, .ok entry.2⟩

theorem ShapeCache.backed_ledger (cache : ShapeCache) : cache.Backed cache.ledger :=
  fun _ _ hmem => List.mem_map.mpr ⟨_, hmem, rfl⟩

namespace Request

/-- Requests whose computed shapes are cached under the same digest. -/
structure SharesDigest (request other : Request) : Prop where
  kind : request.kind = other.kind
  operands : request.operands = other.operands
  seed : request.seed = other.seed

/-- What a request for a computed shape leaves behind if it fails. -/
structure LeavesBehind (request : Request) (compute : Unit → Except Fault Shape) (digest : Digest)
    (workspace after : Workspace) : Prop where
  /-- There is no new node. -/
  graph : after.graph = workspace.graph
  /-- A cached shape that does not fit stays the only one of its digest. -/
  found : ∀ shape, workspace.cache.find? digest = some shape →
    ¬ request.Fits shape ∧ after.cache.entries.Perm workspace.cache.entries
  /-- A computation that fails changes nothing at all. -/
  failed : ∀ cause, workspace.cache.find? digest = none → compute () = .error cause →
    after = workspace
  /-- A computed shape is stored before it turns out not to fit. -/
  stored : ∀ shape, workspace.cache.find? digest = none → compute () = .ok shape →
    ¬ request.Fits shape ∧ after.cache = workspace.cache.store digest shape

/-- The failed request goes unnoticed, as far as what is computed under one digest agrees. -/
structure Unnoticed (request : Request) (compute : Unit → Except Fault Shape) (digest : Digest)
    (workspace after : Workspace) : Prop where
  /-- A later request under the same digest is answered as before the failed one, which cannot have
  stored another shape than the later one computes. If nothing was cached, it gets that shape. -/
  request : ∀ later compute' shape, later.SharesDigest request →
    later.source = .computed compute' → compute' () = .ok shape → later.Fits shape →
    (∀ stored, workspace.cache.find? digest = none → compute () = .ok stored → stored = shape) →
    ((NodeCall.make later).run after).1 = ((NodeCall.make later).run workspace).1 ∧
      ((NodeCall.make later).run after).2.graph =
        ((NodeCall.make later).run workspace).2.graph ∧
      (workspace.cache.find? digest = none →
        ((NodeCall.make later).run after).1 = .ok workspace.graph.size ∧
          ((NodeCall.make later).run after).2.graph =
            workspace.graph.push ⟨later.node shape digest, later.operation, {}⟩)
  /-- A program whose computations agree with the failed one and with what was cached runs as
  before. -/
  program : ∀ steps, Agreeing (workspace.cache.ledger ++
      ⟨digest, compute ()⟩ :: demands (workspace.run steps).1) →
    (after.run steps).1 = (workspace.run steps).1 ∧
      (after.run steps).2.graph = (workspace.run steps).2.graph

theorem SharesDigest.ownDigest_eq {request other : Request} (hshares : request.SharesDigest other)
    {compute compute' : Unit → Except Fault Shape} (hsource : request.source = .computed compute)
    (hsource' : other.source = .computed compute') : request.ownDigest = other.ownDigest := by
  rw [ownDigest, ownDigest, hshares.kind, hshares.seed, hsource, hsource']
  rfl

section Run

variable {request : Request} {compute : Unit → Except Fault Shape} {workspace after : Workspace}
  {digest : Digest} {shape : Shape}

/-- A node that was not appended did not fit its shape, and the graph is the same. -/
theorem of_append_error {graph : Graph} {fault : Fault}
    (hfault : (graph.append (request.entryOf digest shape)).1 = .error fault) :
    ¬ request.Fits shape ∧ (graph.append (request.entryOf digest shape)).2 = graph := by
  cases hentry : request.entryOf digest shape with
  | ok entry =>
      rw [hentry] at hfault
      cases hfault
  | error cause =>
      refine ⟨fun hfits => ?_, rfl⟩
      rw [entryOf_of_fits hfits] at hentry
      cases hentry

theorem leavesBehind (hcache : workspace.cache.WellFormed)
    (hsource : request.source = .computed compute)
    (hdigest : workspace.graph.operandsDigest request.ownDigest request.operands = .ok digest)
    {fault : Fault} (hfailed : (NodeCall.make request).run workspace = (.error fault, after)) :
    request.LeavesBehind compute digest workspace after := by
  cases hfind : workspace.cache.find? digest with
  | some shape =>
      rw [run_of_found hsource hdigest hfind] at hfailed
      obtain ⟨hfault, rfl⟩ := Prod.mk.inj hfailed
      obtain ⟨hmisfit, hgraph⟩ := of_append_error hfault
      refine ⟨hgraph, ?_, ?_, ?_⟩
      · intro other hsome
        obtain rfl := Option.some.inj (hfind.symm.trans hsome)
        exact ⟨hmisfit, hcache.perm_store hfind⟩
      · intro cause hnone
        cases hfind.symm.trans hnone
      · intro other hnone
        cases hfind.symm.trans hnone
  | none =>
      cases hcompute : compute () with
      | error cause =>
          rw [run_of_failed hsource hdigest hfind hcompute] at hfailed
          obtain ⟨-, rfl⟩ := Prod.mk.inj hfailed
          refine ⟨rfl, ?_, fun _ _ _ => rfl, ?_⟩
          · intro shape hsome
            cases hfind.symm.trans hsome
          · intro shape _ hshape
            cases hcompute.symm.trans hshape
      | ok shape =>
          rw [run_of_computed hsource hdigest hfind hcompute] at hfailed
          obtain ⟨hfault, rfl⟩ := Prod.mk.inj hfailed
          obtain ⟨hmisfit, hgraph⟩ := of_append_error hfault
          refine ⟨hgraph, ?_, ?_, ?_⟩
          · intro other hsome
            cases hfind.symm.trans hsome
          · intro cause _ hcause
            cases hcompute.symm.trans hcause
          · intro other _ hother
            obtain rfl := Except.ok.inj (hcompute.symm.trans hother)
            exact ⟨hmisfit, rfl⟩

/-- If the cache has no other shape for it, a request gets the shape that it would compute. -/
theorem run_of_agreeing (hsource : request.source = .computed compute)
    (hdigest : workspace.graph.operandsDigest request.ownDigest request.operands = .ok digest)
    (hcompute : compute () = .ok shape)
    (hcached : ∀ found, workspace.cache.find? digest = some found → found = shape) :
    ((NodeCall.make request).run workspace).1 =
        (workspace.graph.append (request.entryOf digest shape)).1 ∧
      ((NodeCall.make request).run workspace).2.graph =
        (workspace.graph.append (request.entryOf digest shape)).2 := by
  cases hfind : workspace.cache.find? digest with
  | some found =>
      obtain rfl := hcached found hfind
      rw [run_of_found hsource hdigest hfind]
      exact ⟨rfl, rfl⟩
  | none =>
      rw [run_of_computed hsource hdigest hfind hcompute]
      exact ⟨rfl, rfl⟩

end Run

namespace LeavesBehind

variable {request later : Request} {compute compute' : Unit → Except Fault Shape} {digest : Digest}
  {workspace after : Workspace} {shape : Shape}

/-- A later request under the same digest does not notice the failed one, unless that has stored
another shape than the later one computes. -/
theorem run_eq (hleaves : request.LeavesBehind compute digest workspace after)
    (hcache : workspace.cache.WellFormed)
    (hdigest : workspace.graph.operandsDigest later.ownDigest later.operands = .ok digest)
    (hsource : later.source = .computed compute') (hcompute : compute' () = .ok shape)
    (hstored : ∀ stored, workspace.cache.find? digest = none → compute () = .ok stored →
      stored = shape) :
    ((NodeCall.make later).run after).1 = ((NodeCall.make later).run workspace).1 ∧
      ((NodeCall.make later).run after).2.graph =
        ((NodeCall.make later).run workspace).2.graph := by
  have hdigest' : after.graph.operandsDigest later.ownDigest later.operands = .ok digest :=
    hleaves.graph ▸ hdigest
  cases hfind : workspace.cache.find? digest with
  | some found =>
      have hperm := (hleaves.found found hfind).2
      have hfind' : after.cache.find? digest = some found :=
        (hcache.find?_eq_of_perm hperm digest).trans hfind
      rw [run_of_found hsource hdigest hfind, run_of_found hsource hdigest' hfind', hleaves.graph]
      exact ⟨rfl, rfl⟩
  | none =>
      cases hfailed : compute () with
      | error cause =>
          rw [hleaves.failed cause hfind hfailed]
          exact ⟨rfl, rfl⟩
      | ok stored =>
          obtain rfl := hstored stored hfind hfailed
          have hcached : ∀ found, after.cache.find? digest = some found → found = stored := by
            rw [(hleaves.stored stored hfind hfailed).2]
            exact fun found => ShapeCache.eq_of_find?_store
          obtain ⟨hanswer, hgraph⟩ := run_of_agreeing hsource hdigest' hcompute hcached
          obtain ⟨hanswer', hgraph'⟩ := run_of_agreeing hsource hdigest hcompute
            (by simp [hfind])
          rw [hanswer, hgraph, hanswer', hgraph', hleaves.graph]
          exact ⟨rfl, rfl⟩

end LeavesBehind

end Request

namespace Workspace

variable {workspace after : Workspace} {request : Request} {compute : Unit → Except Fault Shape}
  {digest : Digest} {fault : Fault}

/-- All programs keep the cache well-formed. -/
theorem wellFormed_run (hcache : workspace.cache.WellFormed) (steps : List BuildStep) :
    (workspace.run steps).2.cache.WellFormed := by
  induction steps generalizing workspace with
  | nil => exact hcache
  | cons step steps ih =>
      cases step with
      | construct call => exact ih (NodeCall.wellFormed_run hcache _)
      | annotate id step => exact ih hcache
      | clearCache => exact ih (.empty _)

/-- If what was cached, what the failed request computed and what a program demands agree, then the
program runs as if the failed request had not been made. -/
theorem run_after_failed (hsource : request.source = .computed compute)
    (hdigest : workspace.graph.operandsDigest request.ownDigest request.operands = .ok digest)
    (hfailed : (NodeCall.make request).run workspace = (.error fault, after))
    (hgraph : after.graph = workspace.graph) (steps : List BuildStep)
    (hagree : Agreeing (workspace.cache.ledger ++
      ⟨digest, compute ()⟩ :: demands (workspace.run steps).1)) :
    (after.run steps).1 = (workspace.run steps).1 ∧
      (after.run steps).2.graph = (workspace.run steps).2.graph := by
  have hdemand : (NodeCall.make request).demand? workspace.graph = some ⟨digest, compute ()⟩ :=
    Request.demand?_eq_some hsource hdigest
  have hbacked : workspace.cache.Backed (workspace.cache.ledger ++ [⟨digest, compute ()⟩]) :=
    workspace.cache.backed_ledger.append _
  have hbacked' : after.cache.Backed (workspace.cache.ledger ++ [⟨digest, compute ()⟩]) := by
    have hcall := workspace.cache.backed_ledger.run_call (.make request)
    rw [hdemand, hfailed] at hcall
    exact hcall
  rw [List.append_cons] at hagree
  obtain ⟨hrecords, hfinal, _⟩ := run_eq_of_backed steps hbacked (Or.inl rfl) hagree
  rw [hrecords, ← hgraph] at hagree
  obtain ⟨hrecords', hfinal', _⟩ := run_eq_of_backed steps hbacked' (Or.inr rfl) hagree
  rw [hrecords', hfinal', hrecords, hfinal, hgraph]
  exact ⟨rfl, rfl⟩

/-- A failed request for a computed shape adds no node. If it computed a shape that does not fit,
the cache is left as after a successful construction, a full one without its least recently used
entry; otherwise the cache keeps its entries. Later requests do not notice the failed one, unless
they compute another shape than the one it has stored. -/
theorem failed_request_leaves (hcache : workspace.cache.WellFormed)
    (hsource : request.source = .computed compute)
    (hoperands : ∀ operand ∈ request.operands, operand.node < workspace.graph.size)
    (hfailed : (NodeCall.make request).run workspace = (.error fault, after)) :
    ∃ digest, workspace.graph.operandsDigest request.ownDigest request.operands = .ok digest ∧
      request.LeavesBehind compute digest workspace after ∧
      request.Unnoticed compute digest workspace after := by
  obtain ⟨digest, hdigest⟩ := Graph.exists_operandsDigest hoperands request.ownDigest
  have hleaves := Request.leavesBehind hcache hsource hdigest hfailed
  refine ⟨digest, hdigest, hleaves, ?_, fun steps =>
    run_after_failed hsource hdigest hfailed hleaves.graph steps⟩
  intro later compute' shape hshares hlater hcompute hfits hstored
  have hdigest' : workspace.graph.operandsDigest later.ownDigest later.operands = .ok digest := by
    rw [hshares.ownDigest_eq hlater hsource, hshares.operands]
    exact hdigest
  obtain ⟨hanswer, hgraph⟩ := hleaves.run_eq hcache hdigest' hlater hcompute hstored
  refine ⟨hanswer, hgraph, fun hfind => ?_⟩
  rw [hanswer, hgraph, Request.run_of_computed hlater hdigest' hfind hcompute,
    Request.entryOf_of_fits hfits]
  exact ⟨rfl, rfl⟩

/-- A request over a token whose two outputs do not fit the computed shape. -/
def misfit : Request where
  kind := ⟨"test", "pair"⟩
  operands := [⟨0, 0⟩]
  outputs := 2
  seed := 1
  source := .computed fun _ => .ok .token
  operation := .custom none

theorem failed_request_leaves_misfit :
    let workspace := (BuiltInNode.token.build { cache := ⟨2, []⟩ }).2
    workspace.cache.WellFormed ∧
      (∀ operand ∈ misfit.operands, operand.node < workspace.graph.size) ∧
      ∃ fault after, (NodeCall.make misfit).run workspace = (.error fault, after) ∧
        ∃ digest, workspace.graph.operandsDigest misfit.ownDigest misfit.operands = .ok digest ∧
          misfit.LeavesBehind (fun _ => .ok .token) digest workspace after ∧
          misfit.Unnoticed (fun _ => .ok .token) digest workspace after := by
  intro workspace
  have hcache : workspace.cache.WellFormed := .empty 2
  have hoperands : ∀ operand ∈ misfit.operands, operand.node < workspace.graph.size := by decide
  have hfailed : (NodeCall.make misfit).run workspace =
      (.error (.violation (.outputsMismatch misfit.kind 2 .token)), _) := rfl
  exact ⟨hcache, hoperands, _, _, hfailed,
    failed_request_leaves hcache rfl hoperands hfailed⟩

/-- A request that fails as its shape does not fit leaves the shape in the empty cache. A request
under the same digest that would have succeeded fails afterwards. -/
theorem misfit_is_stored :
    let pair : Request := { misfit with
      operands := []
      outputs := 1
      source := .computed fun _ => .ok (.tuple [.token, .token]) }
    let single : Request := { pair with source := .computed fun _ => .ok .token }
    let workspace : Workspace := { cache := ⟨2, []⟩ }
    let after := ((NodeCall.make pair).run workspace).2
    (((NodeCall.make pair).run workspace).1.toOption = none ∧ workspace.cache.size = 0 ∧
      after.cache.size = 1) ∧
      ((NodeCall.make single).run workspace).1.toOption = some 0 ∧
      ((NodeCall.make single).run after).1.toOption = none := by
  decide +kernel

end Workspace

end TensorGraph
