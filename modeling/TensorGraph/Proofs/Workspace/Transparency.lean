import TensorGraph.Proofs.Workspace.Evolution
import TensorGraph.Proofs.Workspace.Uncached

/-! # The shape cache is transparent

A program constructs nodes, annotates them and clears the cache. If computations
demanded under the same digest have the same result, the program cannot tell
whether there is a cache: whatever the capacity and whenever entries were dropped,
a cached shape is the result of an earlier demand under its digest.
-/

namespace TensorGraph

/-- A step of a program. A call may use all nodes constructed before. -/
inductive BuildStep where
  | construct (call : Graph → NodeCall)
  | annotate (id : NodeId) (step : AnnotationStep)
  | clearCache

/-- A call with its answer and the graphs around it. -/
structure CallRecord where
  call : NodeCall
  before : Graph
  answer : Except Fault NodeId
  after : Graph

def CallRecord.demand? (record : CallRecord) : Option ShapeDemand :=
  record.call.demand? record.before

/-- The computations that were demanded. -/
def demands (records : List CallRecord) : List ShapeDemand := records.filterMap CallRecord.demand?

/-- Computations demanded under the same digest have the same shape as result, or both fail. -/
def Agreeing (demands : List ShapeDemand) : Prop :=
  ∀ one ∈ demands, ∀ other ∈ demands, one.digest = other.digest →
    one.result.toOption = other.result.toOption

instance (demands : List ShapeDemand) : Decidable (Agreeing demands) :=
  inferInstanceAs (Decidable (∀ one ∈ demands, ∀ other ∈ demands, _ → _))

/-- Runs the program with the cache of the workspace and records its calls. -/
def Workspace.run : List BuildStep → Workspace → List CallRecord × Workspace
  | [], workspace => ([], workspace)
  | .construct call :: steps, workspace =>
    let (answer, later) := (call workspace.graph).run workspace
    let (records, final) := later.run steps
    (⟨call workspace.graph, workspace.graph, answer, later.graph⟩ :: records, final)
  | .annotate id step :: steps, workspace =>
    { workspace with graph := workspace.graph.afterStep id step }.run steps
  | .clearCache :: steps, workspace => workspace.clearCache.run steps

/-- Runs the program without a cache: every demanded shape is computed. -/
def Graph.run : List BuildStep → Graph → List CallRecord × Graph
  | [], graph => ([], graph)
  | .construct call :: steps, graph =>
    let (answer, later) := graph.append ((call graph).entryIn graph)
    let (records, final) := later.run steps
    (⟨call graph, graph, answer, later⟩ :: records, final)
  | .annotate id step :: steps, graph => (graph.afterStep id step).run steps
  | .clearCache :: steps, graph => graph.run steps

/-- Every cached shape is the result of a computation in the ledger. -/
def ShapeCache.Backed (cache : ShapeCache) (ledger : List ShapeDemand) : Prop :=
  ∀ digest shape, (digest, shape) ∈ cache.entries → ⟨digest, .ok shape⟩ ∈ ledger

theorem Workspace.run_construct (call : Graph → NodeCall) (steps : List BuildStep)
    (workspace : Workspace) :
    workspace.run (.construct call :: steps) =
      let result := (call workspace.graph).run workspace
      (⟨call workspace.graph, workspace.graph, result.1, result.2.graph⟩ ::
        (result.2.run steps).1, (result.2.run steps).2) := rfl

theorem Graph.run_construct (call : Graph → NodeCall) (steps : List BuildStep) (graph : Graph) :
    graph.run (.construct call :: steps) =
      let result := graph.append ((call graph).entryIn graph)
      (⟨call graph, graph, result.1, result.2⟩ :: (result.2.run steps).1,
        (result.2.run steps).2) := rfl

/-- A call is a step in the life of its workspace. -/
theorem Workspace.evolves_call (call : NodeCall) (workspace : Workspace) :
    workspace.Evolves (call.run workspace).2 := by
  cases call with
  | make request =>
      have hconstruct : ((NodeCall.make request).run workspace).2 =
          (request.construct workspace).2 := congrArg Prod.snd (request.make_ok workspace)
      rw [hconstruct]
      exact .construct workspace request
  | build node => exact .build workspace node

theorem Workspace.evolves_run (steps : List BuildStep) (workspace : Workspace) :
    Relation.ReflTransGen Evolves workspace (workspace.run steps).2 := by
  induction steps generalizing workspace with
  | nil => exact .refl
  | cons step steps ih =>
      cases step with
      | construct call => exact .head (evolves_call _ workspace) (ih _)
      | annotate id step => exact .head (.annotate workspace id step) (ih _)
      | clearCache => exact .head (.share workspace _) (ih _)

/-- Whatever program constructed a workspace, its graph is well-formed. -/
theorem Workspace.constructed_run (steps : List BuildStep) (cache : ShapeCache) :
    (Workspace.run steps { cache }).2.Constructed :=
  ⟨cache, evolves_run steps { cache }⟩

theorem demands_cons (record : CallRecord) (records : List CallRecord) :
    demands (record :: records) = record.demand?.toList ++ demands records := by
  unfold demands
  cases hdemand : record.demand? with
  | none => rw [List.filterMap_cons_none hdemand, Option.toList_none, List.nil_append]
  | some demand => rw [List.filterMap_cons_some hdemand, Option.toList_some, List.singleton_append]

/-- A result that agrees with a shape is that shape. -/
theorem Agreeing.result_eq {ledger : List ShapeDemand} (hagree : Agreeing ledger)
    {demand : ShapeDemand} (hdemand : demand ∈ ledger) {shape : Shape}
    (hshape : ⟨demand.digest, .ok shape⟩ ∈ ledger) : demand.result = .ok shape := by
  have hsame := hagree demand hdemand _ hshape rfl
  cases hresult : demand.result with
  | error fault =>
      rw [hresult] at hsame
      cases hsame
  | ok found =>
      rw [hresult] at hsame
      exact congrArg Except.ok (Option.some.inj hsame)

namespace ShapeCache.Backed

variable {cache : ShapeCache} {ledger : List ShapeDemand}

theorem empty (capacity : Nat) (ledger : List ShapeDemand) :
    ShapeCache.Backed { capacity } ledger := by
  intro digest shape hmem
  cases hmem

theorem clear (cache : ShapeCache) (ledger : List ShapeDemand) : cache.clear.Backed ledger := by
  intro digest shape hmem
  cases hmem

theorem mono (hbacked : cache.Backed ledger) {later : List ShapeDemand} (hledger : ledger ⊆ later) :
    cache.Backed later :=
  fun digest shape hmem => hledger (hbacked digest shape hmem)

theorem append (hbacked : cache.Backed ledger) (later : List ShapeDemand) :
    cache.Backed (ledger ++ later) :=
  hbacked.mono (List.subset_append_left ledger later)

/-- If its demand agrees with the ledger, a call cannot tell that there is a cache. -/
theorem run_eq {workspace : Workspace} (hbacked : workspace.cache.Backed ledger)
    (call : NodeCall) (hagree : ∀ demand, call.demand? workspace.graph = some demand →
      ∀ shape, ⟨demand.digest, .ok shape⟩ ∈ ledger → demand.result = .ok shape) :
    (call.run workspace).1 = (workspace.graph.append (call.entryIn workspace.graph)).1 ∧
      (call.run workspace).2.graph =
        (workspace.graph.append (call.entryIn workspace.graph)).2 :=
  NodeCall.run_uncached fun demand hdemand shape hfind =>
    hagree demand hdemand shape (hbacked _ _ (ShapeCache.mem_of_find? hfind))

/-- What a call adds to the cache is backed by its demand. -/
theorem run_call {workspace : Workspace} (hbacked : workspace.cache.Backed ledger)
    (call : NodeCall) :
    (call.run workspace).2.cache.Backed (ledger ++ (call.demand? workspace.graph).toList) := by
  intro digest shape hmem
  rcases NodeCall.mem_cache_run hmem with hmem | hdemand
  · exact List.mem_append_left _ (hbacked digest shape hmem)
  · rw [hdemand]
    exact List.mem_append_right _ List.mem_cons_self

end ShapeCache.Backed

namespace Workspace

/-- A run over a cache backed by a ledger is the run without a cache, as long as what either of
them demands agrees with the ledger. Each call extends the ledger by its demand. -/
theorem run_eq_of_backed (steps : List BuildStep) {workspace : Workspace}
    {ledger : List ShapeDemand} (hbacked : workspace.cache.Backed ledger)
    {records : List CallRecord} (hrecords : records = (workspace.run steps).1 ∨
      records = (workspace.graph.run steps).1)
    (hagree : Agreeing (ledger ++ demands records)) :
    (workspace.run steps).1 = (workspace.graph.run steps).1 ∧
      (workspace.run steps).2.graph = (workspace.graph.run steps).2 ∧
      (workspace.run steps).2.cache.Backed (ledger ++ demands (workspace.run steps).1) := by
  induction steps generalizing workspace ledger records with
  | nil => exact ⟨rfl, rfl, hbacked.append _⟩
  | cons step steps ih =>
      cases step with
      | construct call =>
          obtain ⟨rest, hrest, hdemands⟩ : ∃ rest,
              (rest = (((call workspace.graph).run workspace).2.run steps).1 ∨
                rest = ((workspace.graph.append
                  ((call workspace.graph).entryIn workspace.graph)).2.run steps).1) ∧
              demands records =
                ((call workspace.graph).demand? workspace.graph).toList ++ demands rest := by
            rcases hrecords with rfl | rfl
            · exact ⟨_, Or.inl rfl, demands_cons _ _⟩
            · exact ⟨_, Or.inr rfl, demands_cons _ _⟩
          rw [hdemands] at hagree
          obtain ⟨hanswer, hgraph⟩ := hbacked.run_eq (call workspace.graph)
            fun demand hdemand shape hshape => by
              rw [hdemand] at hagree
              refine hagree.result_eq ?_ (List.mem_append_left _ hshape)
              exact List.mem_append_right _ (List.mem_append_left _ List.mem_cons_self)
          rw [← List.append_assoc] at hagree
          rw [← hgraph] at hrest
          obtain ⟨hcalls, hfinal, hcache⟩ :=
            ih (hbacked.run_call (call workspace.graph)) hrest hagree
          rw [Workspace.run_construct, Graph.run_construct]
          dsimp only
          rw [← hanswer, ← hgraph, hcalls, demands_cons, ← hcalls, ← List.append_assoc]
          exact ⟨rfl, hfinal, hcache⟩
      | annotate id step => exact ih hbacked hrecords hagree
      | clearCache => exact ih (.clear _ _) hrecords hagree

/-- From an empty cache, a program whose demands agree runs as without a cache. -/
theorem run_eq_of_agreeing (capacity : Nat) (graph : Graph) (steps : List BuildStep)
    {records : List CallRecord} {workspace : Workspace}
    (hrun : Workspace.run steps { graph, cache := { capacity } } = (records, workspace))
    (hagree : Agreeing (demands records)) :
    records = (graph.run steps).1 ∧ workspace.graph = (graph.run steps).2 ∧
      workspace.cache.Backed (demands records) := by
  have hbacked : ({ graph, cache := { capacity } } : Workspace).cache.Backed [] :=
    .empty capacity []
  have hsame := run_eq_of_backed steps hbacked (Or.inl rfl) (hrun ▸ hagree)
  rw [hrun] at hsame
  exact hsame

/-- A program has the same answers, and constructs the same nodes with the same shapes and digests,
as without a cache: whatever the capacity, and wherever in the program the cache is cleared. -/
theorem cache_transparent (capacity : Nat) (graph : Graph) (steps : List BuildStep)
    (hagree : Agreeing (demands (Workspace.run steps { graph, cache := { capacity } }).1)) :
    (Workspace.run steps { graph, cache := { capacity } }).1 = (graph.run steps).1 ∧
      (Workspace.run steps { graph, cache := { capacity } }).2.graph = (graph.run steps).2 := by
  obtain ⟨hrecords, hgraph, _⟩ := run_eq_of_agreeing capacity graph steps rfl hagree
  exact ⟨hrecords, hgraph⟩

/-- An ordered reduction and a clone of it, another one that takes its place in a cache for a single
shape, and requests that fail, one of them with a shape that does not fit. -/
def reductionProgram : List BuildStep :=
  [.construct fun _ => .build (.deviceData "x" (.scalar .float32)),
    .construct fun _ => .build .token,
    .construct fun _ => .build (.orderedAllReduce ⟨.sum, .one, []⟩ [⟨0, 0⟩] ⟨1, 0⟩ true),
    .construct fun _ => .build (.clone 2 [⟨0, 0⟩, ⟨1, 0⟩]),
    .construct fun _ => .build (.orderedAllReduce ⟨.sum, .one, []⟩ [⟨0, 0⟩] ⟨2, 1⟩ false),
    .construct fun _ => .build (.clone 2 [⟨0, 0⟩, ⟨1, 0⟩]),
    .clearCache,
    .construct fun _ => .build (.clone 2 [⟨0, 0⟩, ⟨1, 0⟩]),
    .construct fun _ => .make
      { kind := ⟨"test", "broken"⟩
        seed := 1
        source := .computed fun _ => .error (.failure (.reported "rank mismatch"))
        operation := .custom none },
    .construct fun _ => .make
      { kind := ⟨"test", "pair"⟩
        outputs := 2
        seed := 2
        source := .computed fun _ => .ok .token
        operation := .custom none }]

theorem cache_transparent_reduction :
    Agreeing (demands (Workspace.run reductionProgram { cache := ⟨1, []⟩ }).1) ∧
      (Workspace.run reductionProgram { cache := ⟨1, []⟩ }).1 = (Graph.run reductionProgram {}).1 ∧
      (Workspace.run reductionProgram { cache := ⟨1, []⟩ }).2.graph =
        (Graph.run reductionProgram {}).2 := by
  have hagree : Agreeing (demands (Workspace.run reductionProgram { cache := ⟨1, []⟩ }).1) := by
    decide +kernel
  exact ⟨hagree, cache_transparent 1 {} reductionProgram hagree⟩

end Workspace

end TensorGraph
