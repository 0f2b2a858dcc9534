import TensorGraph.Proofs.ShapeCache.Recency
import TensorGraph.Proofs.Workspace.Transparency

/-! # Which shapes a program computes

A call that demands a shape looks it up in the cache, and computes it if it is not there. All
lookups of a program are those of one sequence of demands in one cache. So a shape is computed
exactly if its digest was not looked up before, or too many others were since.

To compute a shape is to invoke the function of the request: the request goes on with what it
returns. A request whose shape is found has the same outcome with any other function in its place.
-/

namespace TensorGraph

open Effects

/-- What the call looks up in the cache of the workspace, if the call demands a shape. -/
def NodeCall.lookup? (workspace : Workspace) (call : NodeCall) : Option Lookup :=
  (call.demand? workspace.graph).map fun demand =>
    ⟨demand.digest, (workspace.cache.resolve demand.digest fun _ => demand.result).evaluated⟩

/-- Everything that a program looks up. -/
def Workspace.lookups : List BuildStep → Workspace → List Lookup
  | [], _ => []
  | .construct call :: steps, workspace =>
    ((call workspace.graph).lookup? workspace).toList ++
      ((call workspace.graph).run workspace).2.lookups steps
  | .annotate id step :: steps, workspace =>
    { workspace with graph := workspace.graph.afterStep id step }.lookups steps
  | .clearCache :: steps, workspace => workspace.clearCache.lookups steps

namespace Request

/-- The request goes on with what its function has returned: a failure of the function fails it,
and a shape becomes that of the node and is stored. -/
structure GoesOnWith (request : Request) (result : Except Fault Shape) (digest : Digest)
    (workspace : Workspace) : Prop where
  failed : ∀ fault, result = .error fault →
    (NodeCall.make request).run workspace =
      (.error (fault.within (.inShape request.kind)), workspace)
  computed : ∀ shape, result = .ok shape →
    (NodeCall.make request).run workspace =
      ((workspace.graph.append (request.entryOf digest shape)).1,
        { graph := (workspace.graph.append (request.entryOf digest shape)).2
          cache := workspace.cache.store digest shape })

/-- The request with another function for its shape. -/
def computing (request : Request) (compute : Unit → Except Fault Shape) : Request :=
  { request with source := .computed compute }

/-- The request does not invoke its function: no other one makes a difference. -/
def IgnoresFunction (request : Request) (workspace : Workspace) : Prop :=
  ∀ other, (NodeCall.make (request.computing other)).run workspace =
    (NodeCall.make request).run workspace

variable {request : Request} {workspace after : Workspace} {construction : Construction}

/-- A construction reports what it was told when it obtained the shape. -/
theorem exists_resolveShape
    (hrun : request.construct workspace = (.ok construction, after)) :
    ∃ digest shape middle,
      workspace.graph.operandsDigest request.ownDigest request.operands = .ok digest ∧
      request.resolveShape digest workspace = (.ok (shape, construction.evaluated), middle) := by
  rw [construct, run_bind_ok (run_get workspace)] at hrun
  obtain ⟨digest, same, hfolded, hrun⟩ := run_bind_eq_ok_iff.mp hrun
  obtain ⟨⟨shape, evaluated⟩, middle, hresolve, hrun⟩ := run_bind_eq_ok_iff.mp hrun
  obtain ⟨id, final, -, hanswer⟩ := run_bind_eq_ok_iff.mp hrun
  rw [run_ofExcept] at hfolded
  obtain ⟨hdigest, rfl⟩ := Prod.mk.inj hfolded
  cases hanswer
  exact ⟨digest, shape, middle, hdigest, hresolve⟩

/-- A construction reports whether its lookup had to compute the shape. -/
theorem evaluated_construct
    (hrun : request.construct workspace = (.ok construction, after)) :
    construction.evaluated = true ↔
      ∃ digest, (NodeCall.make request).lookup? workspace = some ⟨digest, true⟩ := by
  obtain ⟨digest, shape, middle, hdigest, hresolve⟩ := exists_resolveShape hrun
  have hlookup : (NodeCall.make request).lookup? workspace =
      (request.demand? workspace.graph).map fun demand =>
        ⟨demand.digest, (workspace.cache.resolve demand.digest fun _ => demand.result).evaluated⟩ :=
    rfl
  cases hsource : request.source with
  | given given =>
      rw [resolveShape, hsource] at hresolve
      obtain ⟨_, hevaluated⟩ := Prod.mk.inj (Except.ok.inj (Prod.mk.inj hresolve).1)
      rw [hlookup, demand?_of_given hsource, ← hevaluated]
      simp
  | computed compute =>
      have hevaluated : construction.evaluated =
          (workspace.cache.resolve digest compute).evaluated := by
        rw [resolveShape, hsource] at hresolve
        dsimp only at hresolve
        cases houtcome : (workspace.cache.resolve digest compute).outcome with
        | error fault =>
            rw [houtcome] at hresolve
            cases hresolve
        | ok found =>
            rw [houtcome] at hresolve
            exact (Prod.mk.inj (Except.ok.inj (Prod.mk.inj hresolve).1)).2.symm
      rw [hlookup, demand?_eq_some hsource hdigest, hevaluated]
      simp

section Invocation

variable {compute : Unit → Except Fault Shape} {digest : Digest} {lookup : Lookup}

/-- A request for a computed shape looks it up under its digest. -/
theorem of_lookup? (hsource : request.source = .computed compute)
    (hlookup : (NodeCall.make request).lookup? workspace = some lookup) :
    workspace.graph.operandsDigest request.ownDigest request.operands = .ok lookup.digest ∧
      lookup.evaluated = (workspace.cache.find? lookup.digest).isNone := by
  obtain ⟨demand, hdemand, rfl⟩ := Option.map_eq_some_iff.mp hlookup
  refine ⟨?_, workspace.cache.evaluated_resolve _ _⟩
  have hdemand : request.demand? workspace.graph = some demand := hdemand
  cases hdigest : workspace.graph.operandsDigest request.ownDigest request.operands with
  | error fault =>
      rw [demand?_of_dangling hdigest] at hdemand
      cases hdemand
  | ok digest =>
      rw [demand?_eq_some hsource hdigest] at hdemand
      obtain rfl := Option.some.inj hdemand
      rfl

theorem goesOnWith (hsource : request.source = .computed compute)
    (hdigest : workspace.graph.operandsDigest request.ownDigest request.operands = .ok digest)
    (hfind : workspace.cache.find? digest = none) :
    request.GoesOnWith (compute ()) digest workspace where
  failed _ hcompute := run_of_failed hsource hdigest hfind hcompute
  computed _ hcompute := run_of_computed hsource hdigest hfind hcompute

/-- The digest of a request for a computed shape is the same with any other function. -/
theorem ownDigest_computing (hsource : request.source = .computed compute)
    (other : Unit → Except Fault Shape) :
    (request.computing other).ownDigest = request.ownDigest := by
  rw [ownDigest, ownDigest, hsource]
  rfl

theorem entryOf_computing (hsource : request.source = .computed compute)
    (other : Unit → Except Fault Shape) :
    (request.computing other).entryOf = request.entryOf := by
  funext digest shape
  rw [entryOf, entryOf, node, node, hsource]
  rfl

/-- A request ignores its function exactly if its shape is found. If none is found, two functions
that fail in different ways make it fail in different ways. -/
theorem ignoresFunction_iff (hsource : request.source = .computed compute)
    (hdigest : workspace.graph.operandsDigest request.ownDigest request.operands = .ok digest) :
    request.IgnoresFunction workspace ↔ workspace.cache.find? digest ≠ none := by
  have hdigest' (other : Unit → Except Fault Shape) :
      workspace.graph.operandsDigest (request.computing other).ownDigest
        (request.computing other).operands = .ok digest := by
    rw [ownDigest_computing hsource]
    exact hdigest
  constructor
  · intro hignores hfind
    have hfails (fault : Fault) : (NodeCall.make request).run workspace =
        (.error (fault.within (.inShape request.kind)), workspace) := by
      rw [← hignores fun _ => .error fault]
      exact run_of_failed rfl (hdigest' _) hfind rfl
    have hsame := (hfails (.violation .cacheCapacity)).symm.trans
      (hfails (.failure (.reported "")))
    cases hsame
  · intro hfind other
    obtain ⟨shape, hfound⟩ := Option.ne_none_iff_exists'.mp hfind
    rw [run_of_found hsource hdigest hfound, run_of_found rfl (hdigest' other) hfound,
      entryOf_computing hsource]

end Invocation

end Request

namespace Workspace

/-- What a program looks up is what it demands, one after the other in the same cache. -/
theorem lookups_eq (steps : List BuildStep) (hkeeps : .clearCache ∉ steps)
    (workspace : Workspace) :
    workspace.lookups steps = workspace.cache.lookups (demands (workspace.run steps).1) := by
  induction steps generalizing workspace with
  | nil => rfl
  | cons step steps ih =>
      have hrest := List.not_mem_of_not_mem_cons hkeeps
      cases step with
      | construct call =>
          have hcache := (call workspace.graph).cache_run workspace
          rw [lookups, ih hrest, run_construct]
          dsimp only
          rw [demands_cons]
          have hdemand : CallRecord.demand? ⟨call workspace.graph, workspace.graph,
              ((call workspace.graph).run workspace).1,
              ((call workspace.graph).run workspace).2.graph⟩ =
              (call workspace.graph).demand? workspace.graph := rfl
          rw [hdemand, NodeCall.lookup?]
          cases hsome : (call workspace.graph).demand? workspace.graph with
          | none =>
              rw [hsome] at hcache
              rw [hcache]
              rfl
          | some demand =>
              rw [hsome] at hcache
              rw [hcache]
              rfl
      | annotate id step => exact ih hrest _
      | clearCache => exact absurd List.mem_cons_self hkeeps

/-- A program that demands the same under the same digest demands the same with any capacity. -/
theorem demands_eq_of_agreeing {capacity : Nat} {graph : Graph} {steps : List BuildStep}
    (hagree : Agreeing (demands (Workspace.run steps { graph, cache := { capacity } }).1))
    (other : Nat) :
    demands (Workspace.run steps { graph, cache := ⟨other, []⟩ }).1 =
      demands (Workspace.run steps { graph, cache := { capacity } }).1 := by
  have hrecords := (run_eq_of_agreeing capacity graph steps rfl hagree).1
  rw [hrecords] at hagree
  have hother : ({ graph, cache := ⟨other, []⟩ } : Workspace).cache.Backed [] := .empty other []
  rw [(run_eq_of_backed steps hother (Or.inr rfl) hagree).1, hrecords]

/-- Suppose that all shapes that a program demands can be computed, and that it starts with an empty
cache and never clears it. Then a shape is computed exactly if its digest was not looked up before,
or at least as many other digests as the cache has room for were looked up since. So what a larger
cache has to compute for the same demands, a smaller one has to compute too, and as long as all
digests fit, each of them is computed for once. Constructions report what their lookups say. What is
computed is what the function of the request returns, and otherwise the function is ignored. -/
theorem evaluates_what_is_missed (capacity : Nat) (graph : Graph) (steps : List BuildStep)
    (hkeeps : .clearCache ∉ steps)
    (hanswers : ∀ demand ∈ demands (Workspace.run steps { graph, cache := { capacity } }).1,
      ∃ shape, demand.result = .ok shape) :
    let demanded := demands (Workspace.run steps { graph, cache := { capacity } }).1
    let looked := Workspace.lookups steps { graph, cache := { capacity } }
    (∀ (request : Request) workspace construction after,
        request.construct workspace = (.ok construction, after) →
        (construction.evaluated = true ↔
          ∃ digest, (NodeCall.make request).lookup? workspace = some ⟨digest, true⟩)) ∧
      (∀ (request : Request) compute workspace lookup, request.source = .computed compute →
        (NodeCall.make request).lookup? workspace = some lookup →
        (lookup.evaluated = true →
          request.GoesOnWith (compute ()) lookup.digest workspace) ∧
        (lookup.evaluated = false ↔ request.IgnoresFunction workspace)) ∧
      looked.map Lookup.digest = demanded.map ShapeDemand.digest ∧
      (∀ front lookup rest, looked = front ++ lookup :: rest →
        (lookup.evaluated = true ↔ Misses capacity (front.map Lookup.digest) lookup.digest)) ∧
      (∀ larger, capacity ≤ larger →
        (Agreeing demanded →
          demands (Workspace.run steps { graph, cache := ⟨larger, []⟩ }).1 = demanded) ∧
        ∀ graph' steps', .clearCache ∉ steps' →
          demands (Workspace.run steps' { graph := graph', cache := ⟨larger, []⟩ }).1 = demanded →
          List.Forall₂ (fun one other => one.digest = other.digest ∧
              (one.evaluated = true → other.evaluated = true))
            (Workspace.lookups steps' { graph := graph', cache := ⟨larger, []⟩ }) looked) ∧
      ∀ front rest, looked = front ++ rest →
        (front.map Lookup.digest).toFinset.card ≤ capacity →
        ∀ digest ∈ front.map Lookup.digest, front.count ⟨digest, true⟩ = 1 := by
  intro demanded looked
  have hlooked : looked = ShapeCache.lookups ⟨capacity, []⟩ demanded := lookups_eq steps hkeeps _
  have hempty := ShapeCache.HoldsLatest.empty capacity
  have hmisses : ∀ front lookup rest, looked = front ++ lookup :: rest →
      (lookup.evaluated = true ↔ Misses capacity (front.map Lookup.digest) lookup.digest) :=
    fun front lookup rest hposition =>
      ShapeCache.evaluated_iff_misses hempty hanswers (hlooked.symm.trans hposition)
  refine ⟨fun request workspace construction after => Request.evaluated_construct, ?_,
    by rw [hlooked, ShapeCache.digests_lookups], hmisses, fun larger hle => ⟨?_, ?_⟩, ?_⟩
  · intro request compute workspace lookup hsource hlookup
    obtain ⟨hdigest, hevaluated⟩ := Request.of_lookup? hsource hlookup
    rw [hevaluated, Option.isNone_iff_eq_none, Option.isNone_eq_false_iff,
      Option.isSome_iff_ne_none]
    exact ⟨Request.goesOnWith hsource hdigest, (Request.ignoresFunction_iff hsource hdigest).symm⟩
  · exact fun hagree => demands_eq_of_agreeing hagree larger
  · intro graph' steps' hkeeps' hdemands
    rw [lookups_eq steps' hkeeps', hdemands, hlooked]
    exact ShapeCache.evaluated_lookups_of_le hempty (.empty larger) hle hanswers
  · intro front rest hfront hfew digest hdigest
    refine ShapeCache.count_evaluated (fun earlier lookup later hearlier => ?_) hdigest
    have hsplit : looked = earlier ++ lookup :: (later ++ rest) := by
      rw [hfront, hearlier, List.append_assoc, List.cons_append]
    rw [hmisses earlier lookup _ hsplit]
    refine misses_iff_notMem (Nat.le_trans (Finset.card_le_card ?_) hfew)
    -- what comes earlier is of the same part of the program
    rw [hearlier, List.map_append, List.toFinset_append]
    exact Finset.subset_union_left

/-- A request for a token with the given seed, whose shape is computed. -/
def tokenRequest (seed : Digest) : Request where
  kind := ⟨"test", "token"⟩
  seed
  source := .computed fun _ => .ok .token
  operation := .custom none

def tokenProgram (seeds : List Digest) : List BuildStep :=
  seeds.map fun seed => .construct fun _ => .make (tokenRequest seed)

/-- A cache for two shapes has lost the second shape when it is needed again, one for three has it.
After two requests the first is repeated without its function, and a third invokes its own. -/
theorem evaluates_what_is_missed_tokens :
    let steps := tokenProgram [1, 2, 1, 3, 2]
    let demanded := demands (Workspace.run steps { cache := ⟨2, []⟩ }).1
    let looked := Workspace.lookups steps { cache := ⟨2, []⟩ }
    let lookedLarger := Workspace.lookups steps { cache := ⟨3, []⟩ }
    let middle := (Workspace.run (tokenProgram [1, 2]) { cache := ⟨2, []⟩ }).2
    .clearCache ∉ steps ∧ (∀ demand ∈ demanded, ∃ shape, demand.result = .ok shape) ∧
      Agreeing demanded ∧
      (tokenRequest 1).IgnoresFunction middle ∧
      (tokenRequest 3).GoesOnWith (.ok .token) (tokenRequest 3).ownDigest middle ∧
      looked.map Lookup.evaluated = [true, true, false, true, true] ∧
      lookedLarger.map Lookup.evaluated = [true, true, false, true, false] ∧
      (∀ front lookup rest, looked = front ++ lookup :: rest →
        (lookup.evaluated = true ↔ Misses 2 (front.map Lookup.digest) lookup.digest)) ∧
      List.Forall₂ (fun one other => one.digest = other.digest ∧
        (one.evaluated = true → other.evaluated = true)) lookedLarger looked ∧
      ∀ digest ∈ (looked.take 3).map Lookup.digest, (looked.take 3).count ⟨digest, true⟩ = 1 := by
  intro steps demanded looked lookedLarger middle
  have hkeeps : .clearCache ∉ steps := by simp [steps, tokenProgram]
  have hcomputed : demanded.all fun demand => demand.result.toOption.isSome := by decide +kernel
  have hanswers : ∀ demand ∈ demanded, ∃ shape, demand.result = .ok shape := by
    intro demand hmem
    have hsome := List.all_eq_true.mp hcomputed demand hmem
    cases hresult : demand.result with
    | ok shape => exact ⟨shape, rfl⟩
    | error fault =>
        rw [hresult] at hsome
        cases hsome
  have hagree : Agreeing demanded := by decide +kernel
  have hrepeated : (NodeCall.make (tokenRequest 1)).lookup? middle =
      some ⟨(tokenRequest 1).ownDigest, false⟩ := by decide +kernel
  have hfresh : (NodeCall.make (tokenRequest 3)).lookup? middle =
      some ⟨(tokenRequest 3).ownDigest, true⟩ := by decide +kernel
  obtain ⟨_, hinvokes, _, hmisses, hlarger, honce⟩ :=
    evaluates_what_is_missed 2 {} steps hkeeps hanswers
  obtain ⟨hsame, hinclusion⟩ := hlarger 3 (by decide)
  exact ⟨hkeeps, hanswers, hagree, (hinvokes _ _ _ _ rfl hrepeated).2.mp rfl,
    (hinvokes _ _ _ _ rfl hfresh).1 rfl, by decide +kernel, by decide +kernel, hmisses,
    hinclusion {} steps hkeeps (hsame hagree),
    honce (looked.take 3) (looked.drop 3) (List.take_append_drop 3 looked).symm
      (by decide +kernel)⟩

end Workspace

end TensorGraph
