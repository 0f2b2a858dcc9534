import TensorGraph.Proofs.ShapeCache
import TensorGraph.Proofs.Workspace.BuiltIn

/-! # Requests without a cache

What a request does if every shape is computed anew, and what it demands of the
cache to save that. As long as the cache only answers what would be computed, the
outcome of the request and the graph after it are those without a cache.
-/

namespace TensorGraph

open Effects

/-- A computation of a shape, with the digest under which its result is cached. -/
structure ShapeDemand where
  digest : Digest
  result : Except Fault Shape

/-- Appends the node, unless there is a fault already. -/
def Graph.append (graph : Graph) : Except Fault Entry → Except Fault NodeId × Graph
  | .ok entry => (.ok graph.size, graph.push entry)
  | .error fault => (.error fault, graph)

namespace Request

/-- The shape of the new node, computed unless it is given. -/
def evaluate (request : Request) : Except Fault Shape :=
  match request.source with
  | .given shape => .ok shape
  | .computed compute => (compute ()).mapError (Fault.within (.inShape request.kind))

/-- There are outputs, and the shape is one for so many of them. -/
def Fits (request : Request) (shape : Shape) : Prop :=
  request.outputs ≠ 0 ∧ outputsFit request.outputs shape = true

/-- The new node with a shape, if its outputs fit the shape. -/
def entryOf (request : Request) (digest : Digest) (shape : Shape) : Except Fault Entry :=
  if request.outputs = 0 then .error (.violation (.noOutputs request.kind))
  else if outputsFit request.outputs shape then
    .ok ⟨request.node shape digest, request.operation, {}⟩
  else .error (.violation (.outputsMismatch request.kind request.outputs shape))

/-- The new node if the request finds nothing in a cache. -/
def entryIn (graph : Graph) (request : Request) : Except Fault Entry := do
  let digest ← graph.operandsDigest request.ownDigest request.operands
  let shape ← request.evaluate
  request.entryOf digest shape

/-- The computation that the cache may save, if the request gets as far as to need one. -/
def demand? (graph : Graph) (request : Request) : Option ShapeDemand :=
  match request.source, graph.operandsDigest request.ownDigest request.operands with
  | .computed compute, .ok digest => some ⟨digest, compute ()⟩
  | _, _ => none

theorem entryOf_of_fits {request : Request} {shape : Shape} (hfits : request.Fits shape)
    (digest : Digest) :
    request.entryOf digest shape = .ok ⟨request.node shape digest, request.operation, {}⟩ := by
  rw [entryOf, if_neg hfits.1, if_pos hfits.2]

theorem entryOf_eq_ok_iff (request : Request) (digest : Digest) (shape : Shape) (entry : Entry) :
    request.entryOf digest shape = .ok entry ↔
      request.Fits shape ∧ entry = ⟨request.node shape digest, request.operation, {}⟩ := by
  constructor
  · intro hentry
    by_cases hfits : request.Fits shape
    · rw [entryOf_of_fits hfits] at hentry
      exact ⟨hfits, (Except.ok.inj hentry).symm⟩
    · rw [entryOf] at hentry
      split at hentry
      · cases hentry
      next houtputs =>
        split at hentry
        next hfit => exact absurd ⟨houtputs, hfit⟩ hfits
        next => cases hentry
  · rintro ⟨hfits, rfl⟩
    exact entryOf_of_fits hfits digest

theorem entryIn_eq_ok_iff (request : Request) (graph : Graph) (entry : Entry) :
    request.entryIn graph = .ok entry ↔
      ∃ digest shape, graph.operandsDigest request.ownDigest request.operands = .ok digest ∧
        request.evaluate = .ok shape ∧ request.Fits shape ∧
        entry = ⟨request.node shape digest, request.operation, {}⟩ := by
  rw [entryIn]
  cases graph.operandsDigest request.ownDigest request.operands with
  | error fault => simp [bind, Except.bind]
  | ok digest =>
      cases request.evaluate with
      | error fault => simp [bind, Except.bind]
      | ok shape => simp [bind, Except.bind, entryOf_eq_ok_iff]

/-- The ways in which a request comes by a shape, with the cache after it. -/
inductive Resolves (request : Request) (cache : ShapeCache) (digest : Digest) :
    Except Fault Shape → ShapeCache → Prop
  | given {shape : Shape} : request.source = .given shape →
      Resolves request cache digest (.ok shape) cache
  | cached {compute : Unit → Except Fault Shape} {shape : Shape} :
      request.source = .computed compute → cache.find? digest = some shape →
      Resolves request cache digest (.ok shape) (cache.store digest shape)
  | computed {compute : Unit → Except Fault Shape} {shape : Shape} :
      request.source = .computed compute → cache.find? digest = none → compute () = .ok shape →
      Resolves request cache digest (.ok shape) (cache.store digest shape)
  | failed {compute : Unit → Except Fault Shape} {fault : Fault} :
      request.source = .computed compute → cache.find? digest = none →
      compute () = .error fault →
      Resolves request cache digest (.error (fault.within (.inShape request.kind))) cache

theorem resolves (request : Request) (digest : Digest) (workspace : Workspace) :
    ∃ outcome evaluated cache, request.Resolves workspace.cache digest outcome cache ∧
      request.resolveShape digest workspace =
        (outcome.map fun shape => (shape, evaluated), { workspace with cache }) := by
  unfold resolveShape
  cases hsource : request.source with
  | given shape => exact ⟨.ok shape, false, workspace.cache, .given hsource, rfl⟩
  | computed compute =>
      cases hfind : workspace.cache.find? digest with
      | some shape =>
          refine ⟨.ok shape, false, _, .cached hsource hfind, ?_⟩
          simp only [ShapeCache.resolve, hfind]
          rfl
      | none =>
          cases hcompute : compute () with
          | ok shape =>
              refine ⟨.ok shape, true, _, .computed hsource hfind hcompute, ?_⟩
              simp only [ShapeCache.resolve, hfind, hcompute]
              rfl
          | error fault =>
              refine ⟨_, true, _, .failed hsource hfind hcompute, ?_⟩
              simp only [ShapeCache.resolve, hfind, hcompute]
              rfl

theorem accept_eq (request : Request) (digest : Digest) (shape : Shape) (workspace : Workspace) :
    request.accept digest shape workspace =
      ((workspace.graph.append (request.entryOf digest shape)).1,
        { workspace with graph := (workspace.graph.append (request.entryOf digest shape)).2 }) := by
  unfold accept entryOf
  split
  · rfl
  · split <;> rfl

/-- A request whose operands exist comes by a shape and then adds its node to the graph. -/
theorem make_of_digest {request : Request} {workspace : Workspace} {digest : Digest}
    (hdigest : workspace.graph.operandsDigest request.ownDigest request.operands = .ok digest) :
    ∃ outcome cache, request.Resolves workspace.cache digest outcome cache ∧
      make (.ok request) workspace =
        ((workspace.graph.append (outcome >>= request.entryOf digest)).1,
          { graph := (workspace.graph.append (outcome >>= request.entryOf digest)).2, cache }) := by
  obtain ⟨outcome, evaluated, cache, hresolves, hresolve⟩ := request.resolves digest workspace
  refine ⟨outcome, cache, hresolves, ?_⟩
  rw [make_ok, construct, run_bind_ok (run_get workspace), hdigest,
    run_bind_ok (run_ofExcept _ _)]
  cases outcome with
  | error fault =>
      rw [run_bind_error hresolve]
      rfl
  | ok shape =>
      have hentry : (.ok shape >>= request.entryOf digest) = request.entryOf digest shape := rfl
      rw [run_bind_ok hresolve, hentry]
      dsimp only
      rw [run_bind, request.accept_eq]
      dsimp only
      cases (workspace.graph.append (request.entryOf digest shape)).1 <;> rfl

theorem make_of_dangling {request : Request} {workspace : Workspace} {fault : Fault}
    (hdigest : workspace.graph.operandsDigest request.ownDigest request.operands = .error fault) :
    make (.ok request) workspace = (.error fault, workspace) := by
  rw [make_ok, construct, run_bind_ok (run_get workspace), hdigest,
    run_bind_error (run_ofExcept _ _)]
  rfl

/-- If the cache could only answer with what is computed, the shape is the computed one. -/
theorem Resolves.eq_evaluate {request : Request} {cache later : ShapeCache} {digest : Digest}
    {outcome : Except Fault Shape} (hresolves : request.Resolves cache digest outcome later)
    (hanswers : ∀ compute shape, request.source = .computed compute →
      cache.find? digest = some shape → compute () = .ok shape) :
    outcome = request.evaluate := by
  unfold evaluate
  cases hresolves with
  | given hsource => rw [hsource]
  | cached hsource hfind =>
      rw [hsource]
      simp only [hanswers _ _ hsource hfind, Except.mapError]
  | computed hsource _ hcompute =>
      rw [hsource]
      simp only [hcompute, Except.mapError]
  | failed hsource _ hcompute =>
      rw [hsource]
      simp only [hcompute, Except.mapError]

/-- A request whose shape is computed leaves the cache that has answered it. -/
theorem Resolves.cache_eq {request : Request} {cache later : ShapeCache} {digest : Digest}
    {outcome : Except Fault Shape} (hresolves : request.Resolves cache digest outcome later)
    {compute : Unit → Except Fault Shape} (hsource : request.source = .computed compute) :
    later = (cache.resolve digest compute).cache := by
  cases hresolves with
  | given hgiven => cases hsource.symm.trans hgiven
  | cached _ hfind => simp only [ShapeCache.resolve, hfind]
  | computed hcomputed hfind hcompute =>
      obtain rfl := ShapeSource.computed.inj (hsource.symm.trans hcomputed)
      simp only [ShapeCache.resolve, hfind, hcompute]
  | failed hcomputed hfind hcompute =>
      obtain rfl := ShapeSource.computed.inj (hsource.symm.trans hcomputed)
      simp only [ShapeCache.resolve, hfind, hcompute]

/-- A request whose shape is given takes that shape and leaves the cache alone. -/
theorem Resolves.of_given {request : Request} {cache later : ShapeCache} {digest : Digest}
    {outcome : Except Fault Shape} (hresolves : request.Resolves cache digest outcome later)
    {shape : Shape} (hsource : request.source = .given shape) :
    outcome = .ok shape ∧ later = cache := by
  cases hresolves with
  | given hgiven =>
      obtain rfl := ShapeSource.given.inj (hsource.symm.trans hgiven)
      exact ⟨rfl, rfl⟩
  | cached hcomputed => cases hsource.symm.trans hcomputed
  | computed hcomputed => cases hsource.symm.trans hcomputed
  | failed hcomputed => cases hsource.symm.trans hcomputed

section Resolves

variable {request : Request} {compute : Unit → Except Fault Shape} {cache later : ShapeCache}
  {digest : Digest} {outcome : Except Fault Shape}

theorem Resolves.of_found (hresolves : request.Resolves cache digest outcome later)
    (hsource : request.source = .computed compute) {shape : Shape}
    (hfind : cache.find? digest = some shape) :
    outcome = .ok shape ∧ later = cache.store digest shape := by
  cases hresolves with
  | given hgiven => cases hsource.symm.trans hgiven
  | cached _ hfound =>
      obtain rfl := Option.some.inj (hfind.symm.trans hfound)
      exact ⟨rfl, rfl⟩
  | computed _ hmissing => cases hfind.symm.trans hmissing
  | failed _ hmissing => cases hfind.symm.trans hmissing

theorem Resolves.of_missing (hresolves : request.Resolves cache digest outcome later)
    (hsource : request.source = .computed compute) (hfind : cache.find? digest = none) :
    outcome = (compute ()).mapError (Fault.within (.inShape request.kind)) ∧
      later = match compute () with
        | .ok shape => cache.store digest shape
        | .error _ => cache := by
  cases hresolves with
  | given hgiven => cases hsource.symm.trans hgiven
  | cached _ hfound => cases hfind.symm.trans hfound
  | computed hcomputed _ hcompute =>
      obtain rfl := ShapeSource.computed.inj (hsource.symm.trans hcomputed)
      rw [hcompute]
      exact ⟨rfl, rfl⟩
  | failed hcomputed _ hcompute =>
      obtain rfl := ShapeSource.computed.inj (hsource.symm.trans hcomputed)
      rw [hcompute]
      exact ⟨rfl, rfl⟩

end Resolves

theorem demand?_eq_some {request : Request} {graph : Graph} {digest : Digest}
    {compute : Unit → Except Fault Shape} (hsource : request.source = .computed compute)
    (hdigest : graph.operandsDigest request.ownDigest request.operands = .ok digest) :
    request.demand? graph = some ⟨digest, compute ()⟩ := by
  simp only [demand?, hsource, hdigest]

theorem demand?_of_given {request : Request} {shape : Shape}
    (hsource : request.source = .given shape) (graph : Graph) : request.demand? graph = none := by
  simp only [demand?, hsource]

theorem demand?_of_dangling {request : Request} {graph : Graph} {fault : Fault}
    (hdigest : graph.operandsDigest request.ownDigest request.operands = .error fault) :
    request.demand? graph = none := by
  rw [demand?, hdigest]
  cases request.source <;> rfl

end Request

/-- A call that constructs a node: any request, or a constructor or clone of a built-in node. -/
inductive NodeCall where
  | make (request : Request)
  | build (node : BuiltInNode)

namespace NodeCall

def run : NodeCall → BuildM NodeId
  | .make request => return (← request.construct).id
  | .build node => node.build

/-- The one request that the call makes. -/
def requestIn (graph : Graph) : NodeCall → Except Fault Request
  | .make request => .ok request
  | .build node => node.requestIn graph

/-- The new node if every shape is computed. -/
def entryIn (graph : Graph) (call : NodeCall) : Except Fault Entry := do
  (← call.requestIn graph).entryIn graph

/-- The computation that the cache may save. -/
def demand? (graph : Graph) (call : NodeCall) : Option ShapeDemand :=
  match call.requestIn graph with
  | .ok request => request.demand? graph
  | .error _ => none

theorem run_eq_make (call : NodeCall) (workspace : Workspace) :
    call.run workspace = Request.make (call.requestIn workspace.graph) workspace := by
  cases call with
  | make request => rw [run, construct_id_eq_make, requestIn]
  | build node => exact node.build_eq_make workspace

end NodeCall

namespace Request

section Run

variable {request : Request} {compute : Unit → Except Fault Shape} {workspace : Workspace}
  {digest : Digest} {shape : Shape}

theorem run_of_found (hsource : request.source = .computed compute)
    (hdigest : workspace.graph.operandsDigest request.ownDigest request.operands = .ok digest)
    (hfind : workspace.cache.find? digest = some shape) :
    (NodeCall.make request).run workspace =
      ((workspace.graph.append (request.entryOf digest shape)).1,
        { graph := (workspace.graph.append (request.entryOf digest shape)).2
          cache := workspace.cache.store digest shape }) := by
  obtain ⟨outcome, cache, hresolves, hmake⟩ := make_of_digest hdigest
  obtain ⟨rfl, rfl⟩ := hresolves.of_found hsource hfind
  rw [NodeCall.run_eq_make]
  exact hmake

theorem run_of_computed (hsource : request.source = .computed compute)
    (hdigest : workspace.graph.operandsDigest request.ownDigest request.operands = .ok digest)
    (hfind : workspace.cache.find? digest = none) (hcompute : compute () = .ok shape) :
    (NodeCall.make request).run workspace =
      ((workspace.graph.append (request.entryOf digest shape)).1,
        { graph := (workspace.graph.append (request.entryOf digest shape)).2
          cache := workspace.cache.store digest shape }) := by
  obtain ⟨outcome, cache, hresolves, hmake⟩ := make_of_digest hdigest
  obtain ⟨rfl, rfl⟩ := hresolves.of_missing hsource hfind
  rw [NodeCall.run_eq_make]
  rw [hcompute] at hmake
  exact hmake

theorem run_of_failed (hsource : request.source = .computed compute)
    (hdigest : workspace.graph.operandsDigest request.ownDigest request.operands = .ok digest)
    (hfind : workspace.cache.find? digest = none) {cause : Fault}
    (hcompute : compute () = .error cause) :
    (NodeCall.make request).run workspace =
      (.error (cause.within (.inShape request.kind)), workspace) := by
  obtain ⟨outcome, cache, hresolves, hmake⟩ := make_of_digest hdigest
  obtain ⟨rfl, rfl⟩ := hresolves.of_missing hsource hfind
  rw [NodeCall.run_eq_make]
  rw [hcompute] at hmake
  exact hmake

end Run

end Request

namespace NodeCall

/-- A call that makes no request over values of the graph is refused and touches nothing. Any other
call comes by a shape and then adds its node to the graph. -/
theorem run_cases (call : NodeCall) (workspace : Workspace) :
    (∃ fault, call.run workspace = (.error fault, workspace) ∧
        call.entryIn workspace.graph = .error fault ∧ call.demand? workspace.graph = none) ∨
      ∃ request digest outcome cache, call.requestIn workspace.graph = .ok request ∧
        workspace.graph.operandsDigest request.ownDigest request.operands = .ok digest ∧
        request.Resolves workspace.cache digest outcome cache ∧
        call.run workspace = ((workspace.graph.append (outcome >>= request.entryOf digest)).1,
          { graph := (workspace.graph.append (outcome >>= request.entryOf digest)).2, cache }) := by
  rw [run_eq_make, entryIn, demand?]
  cases hrequest : call.requestIn workspace.graph with
  | error fault =>
      rw [Request.make_error]
      exact Or.inl ⟨fault, rfl, rfl, rfl⟩
  | ok request =>
      cases hdigest : workspace.graph.operandsDigest request.ownDigest request.operands with
      | error fault =>
          have hentry : request.entryIn workspace.graph = .error fault := by
            rw [Request.entryIn, hdigest]
            rfl
          exact Or.inl ⟨fault, Request.make_of_dangling hdigest, hentry,
            Request.demand?_of_dangling hdigest⟩
      | ok digest =>
          obtain ⟨outcome, cache, hresolves, hmake⟩ := Request.make_of_digest hdigest
          exact Or.inr ⟨request, digest, outcome, cache, rfl, hdigest, hresolves, hmake⟩

variable {call : NodeCall} {workspace : Workspace}

/-- A call whose demand the cache answers with what would be computed, if at all, has the outcome
that it has without a cache, and leaves the same graph. -/
theorem run_uncached (hanswers : ∀ demand, call.demand? workspace.graph = some demand →
      ∀ shape, workspace.cache.find? demand.digest = some shape → demand.result = .ok shape) :
    (call.run workspace).1 = (workspace.graph.append (call.entryIn workspace.graph)).1 ∧
      (call.run workspace).2.graph =
        (workspace.graph.append (call.entryIn workspace.graph)).2 := by
  rcases call.run_cases workspace with
    ⟨fault, hrun, hentry, -⟩ | ⟨request, digest, outcome, cache, hrequest, hdigest, hresolves, hrun⟩
  · rw [hrun, hentry]
    exact ⟨rfl, rfl⟩
  · rw [demand?, hrequest] at hanswers
    have hevaluate := hresolves.eq_evaluate fun compute shape hsource hfind =>
      hanswers _ (Request.demand?_eq_some hsource hdigest) shape hfind
    have hentry : call.entryIn workspace.graph = outcome >>= request.entryOf digest := by
      rw [entryIn, hrequest, hevaluate]
      change request.entryIn workspace.graph = _
      rw [Request.entryIn, hdigest]
      rfl
    rw [hrun, hentry]
    exact ⟨rfl, rfl⟩

/-- A call leaves the cache that has answered its demand. -/
theorem cache_run (call : NodeCall) (workspace : Workspace) :
    (call.run workspace).2.cache = match call.demand? workspace.graph with
      | some demand => (workspace.cache.resolve demand.digest fun _ => demand.result).cache
      | none => workspace.cache := by
  rcases call.run_cases workspace with
    ⟨fault, hrun, -, hdemand⟩ |
      ⟨request, digest, outcome, cache, hrequest, hdigest, hresolves, hrun⟩
  · rw [hrun, hdemand]
  · rw [hrun, demand?, hrequest]
    cases hsource : request.source with
    | given shape =>
        rw [(hresolves.of_given hsource).2]
        simp only [Request.demand?_of_given hsource]
    | computed compute =>
        rw [hresolves.cache_eq hsource]
        simp only [Request.demand?_eq_some hsource hdigest]

/-- After a call the cache holds only what it held before and what the call demanded. -/
theorem mem_cache_run {entry : Digest × Shape}
    (hmem : entry ∈ (call.run workspace).2.cache.entries) :
    entry ∈ workspace.cache.entries ∨
      call.demand? workspace.graph = some ⟨entry.1, .ok entry.2⟩ := by
  rw [cache_run] at hmem
  cases hdemand : call.demand? workspace.graph with
  | none =>
      rw [hdemand] at hmem
      exact Or.inl hmem
  | some demand =>
      rw [hdemand] at hmem
      refine (ShapeCache.mem_of_mem_resolve hmem).imp_right ?_
      rintro ⟨hkey, hresult⟩
      rw [hkey, ← hresult]

theorem wellFormed_run (hcache : workspace.cache.WellFormed) (call : NodeCall) :
    (call.run workspace).2.cache.WellFormed := by
  rw [cache_run]
  cases call.demand? workspace.graph with
  | none => exact hcache
  | some demand => exact hcache.resolve _ _

end NodeCall

end TensorGraph
