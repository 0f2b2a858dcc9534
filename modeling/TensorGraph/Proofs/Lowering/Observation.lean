import TensorGraph.Proofs.Lowering.Node

/-! # Observing the invocations of operations

A lowering calls operations that are defined elsewhere, and how often it does so
does not show in its results. An observed lowering is the same computation with a
note of every call; forgetting the notes gives back the lowering.
-/

namespace TensorGraph

open Effects

/-- A call of a node's operation and what it returned. -/
structure Invocation where
  node : NodeId
  /-- The number of outputs of the node. -/
  outputs : Nat
  result : Except Fault (List Handle)

namespace Invocation

/-- The operation returned these handles. -/
def Returned (invocation : Invocation) (handles : List Handle) : Prop :=
  invocation.result = .ok handles

/-- The operation returned one handle per output. -/
def Completed (invocation : Invocation) : Prop :=
  ∃ handles, invocation.Returned handles ∧ handles.length = invocation.outputs

/-- The operation returned handles, but not one per output. -/
def Miscounted (invocation : Invocation) (handles : List Handle) : Prop :=
  invocation.Returned handles ∧ handles.length ≠ invocation.outputs

end Invocation

/-- A lowering with the invocations so far, the latest last. -/
structure Observed where
  lowering : Lowering := {}
  invocations : List Invocation := []

/-- A computation that lowers and is observed. -/
abbrev ObserveM := ExceptT Fault (StateM Observed)

namespace Observed

/-- Runs a part of a lowering that invokes no operation. -/
def silently {α : Type} (part : LowerM α) : ObserveM α := fun observed =>
  let (result, lowering) := part observed.lowering
  (result, { observed with lowering })

/-- Invokes the operation of the node and notes the invocation. -/
def emitNode (graph : Graph) (id : NodeId) : ObserveM (List Handle) := do
  let entry ← ofExcept (graph.entryAt id)
  fun observed =>
    let (result, lowering) :=
      Lowering.runEmission (entry.operation.emit id entry.node) observed.lowering
    (result,
      { lowering, invocations := observed.invocations ++ [⟨id, entry.node.outputs, result⟩] })

/-- `Lowering.lowerNode`, observed. -/
def lowerNode (graph : Graph) (id : NodeId) : ObserveM (List Handle) := do
  let node := (← ofExcept (graph.entryAt id)).node
  if (← silently get).isLowered id then
    silently ((List.range node.outputs).mapM (Lowering.recorded id))
  else
    silently (Lowering.checkOperands id node)
    let handles ← ExceptT.adapt (Fault.within (.inLowering id)) (emitNode graph id)
    if handles.length = node.outputs then
      silently (Lowering.complete id)
      return handles
    else
      throw (.failure (.handleCount id handles.length))

/-- `Lowering.lowerAll`, observed. -/
def lowerAll (graph : Graph) : List NodeId → ObserveM Unit
  | [] => return ()
  | id :: ids => do
    let _ ← lowerNode graph id
    lowerAll graph ids

/-- `Lowering.lowerValues`, observed. -/
def lowerValues (graph : Graph) (roots : List Value) : ObserveM (List Handle) := do
  lowerAll graph (graph.postOrder roots)
  silently (roots.mapM Lowering.handleOf)

section Forgetting

variable {α β : Type}

/-- Without the notes, the observed computation is the plain one. -/
def Forgets (observing : ObserveM α) (plain : LowerM α) : Prop :=
  ∀ observed, plain observed.lowering =
    ((observing observed).1, (observing observed).2.lowering)

theorem forgets_silently (part : LowerM α) : Forgets (silently part) part := fun _ => rfl

theorem forgets_pure (value : α) : Forgets (pure value) (pure value) := fun _ => rfl

theorem forgets_throw (fault : Fault) :
    Forgets (throw fault : ObserveM α) (throw fault) := fun _ => rfl

theorem forgets_ofExcept (result : Except Fault α) :
    Forgets (ofExcept result) (ofExcept result) := by
  intro observed
  rw [run_ofExcept, run_ofExcept]

namespace Forgets

theorem bind {observing : ObserveM α} {plain : LowerM α} {next : α → ObserveM β}
    {plainNext : α → LowerM β} (hfirst : Forgets observing plain)
    (hnext : ∀ value, Forgets (next value) (plainNext value)) :
    Forgets (observing >>= next) (plain >>= plainNext) := by
  intro observed
  have hstart := hfirst observed
  rcases hrun : observing observed with ⟨fault | value, after⟩
  · rw [hrun] at hstart
    rw [run_bind_error hrun, run_bind_error hstart]
  · rw [hrun] at hstart
    rw [run_bind_ok hrun, run_bind_ok hstart]
    exact hnext value after

theorem adapt {observing : ObserveM α} {plain : LowerM α} (hforgets : Forgets observing plain)
    (context : Fault → Fault) :
    Forgets (ExceptT.adapt context observing) (ExceptT.adapt context plain) := by
  intro observed
  rw [run_adapt, run_adapt, hforgets observed]

end Forgets

theorem forgets_emitNode (graph : Graph) (id : NodeId) :
    Forgets (emitNode graph id) (Lowering.emitNode graph id) :=
  (forgets_ofExcept _).bind fun _ _ => rfl

theorem forgets_lowerNode (graph : Graph) (id : NodeId) :
    Forgets (lowerNode graph id) (Lowering.lowerNode graph id) := by
  refine (forgets_ofExcept _).bind fun entry => (forgets_silently get).bind fun lowering => ?_
  split
  · exact forgets_silently _
  · refine (forgets_silently _).bind fun _ =>
      ((forgets_emitNode graph id).adapt _).bind fun handles => ?_
    split
    · exact (forgets_silently _).bind fun _ => forgets_pure handles
    · exact forgets_throw _

theorem forgets_lowerAll (graph : Graph) (ids : List NodeId) :
    Forgets (lowerAll graph ids) (Lowering.lowerAll graph ids) := by
  induction ids with
  | nil => exact forgets_pure ()
  | cons id ids ih => exact (forgets_lowerNode graph id).bind fun _ => ih

/-- An observed lowering answers and emits as the lowering does. -/
theorem forgets_lowerValues (graph : Graph) (roots : List Value) :
    Forgets (lowerValues graph roots) (Lowering.lowerValues graph roots) :=
  (forgets_lowerAll graph _).bind fun _ => forgets_silently _

end Forgetting

/-- What an observed lowering of a node can do. Which case it is depends on the state before it. -/
inductive NodeRun (graph : Graph) (id : NodeId) (observed : Observed) :
    Except Fault (List Handle) × Observed → Prop
  | unknown :
      graph.entryAt? id = none →
      NodeRun graph id observed (.error (.violation (.unknownNode id)), observed)
  | repeated {entry : Entry} :
      graph.entryAt? id = some entry →
      id ∈ observed.lowering.lowered →
      NodeRun graph id observed
        (((List.range entry.node.outputs).mapM (Lowering.recorded id) observed.lowering).1,
          observed)
  | blocked {entry : Entry} {operand : Value} :
      graph.entryAt? id = some entry →
      id ∉ observed.lowering.lowered →
      operand ∈ entry.node.operands →
      observed.lowering.emission.handle? operand = none →
      NodeRun graph id observed (.error (.failure (.operandNotLowered operand id)), observed)
  | failed {entry : Entry} {fault : Fault} {emission : Emission} :
      graph.entryAt? id = some entry →
      id ∉ observed.lowering.lowered →
      (∀ operand ∈ entry.node.operands, observed.lowering.emission.handle? operand ≠ none) →
      entry.operation.emit id entry.node observed.lowering.emission = (.error fault, emission) →
      NodeRun graph id observed
        (.error (fault.within (.inLowering id)),
          { lowering := { observed.lowering with emission }
            invocations := observed.invocations ++ [⟨id, entry.node.outputs, .error fault⟩] })
  | miscounted {entry : Entry} {handles : List Handle} {emission : Emission} :
      graph.entryAt? id = some entry →
      id ∉ observed.lowering.lowered →
      (∀ operand ∈ entry.node.operands, observed.lowering.emission.handle? operand ≠ none) →
      entry.operation.emit id entry.node observed.lowering.emission = (.ok handles, emission) →
      handles.length ≠ entry.node.outputs →
      NodeRun graph id observed
        (.error (.failure (.handleCount id handles.length)),
          { lowering := { observed.lowering with emission }
            invocations := observed.invocations ++ [⟨id, entry.node.outputs, .ok handles⟩] })
  | completed {entry : Entry} {handles : List Handle} {emission : Emission} :
      graph.entryAt? id = some entry →
      id ∉ observed.lowering.lowered →
      (∀ operand ∈ entry.node.operands, observed.lowering.emission.handle? operand ≠ none) →
      entry.operation.emit id entry.node observed.lowering.emission = (.ok handles, emission) →
      handles.length = entry.node.outputs →
      NodeRun graph id observed
        (.ok handles,
          { lowering := { emission, lowered := id :: observed.lowering.lowered }
            invocations := observed.invocations ++ [⟨id, entry.node.outputs, .ok handles⟩] })

section Run

variable {graph : Graph} {id : NodeId} {observed : Observed}

theorem run_silently {α : Type} {part : LowerM α} {result : Except Fault α} {after : Lowering}
    (hpart : part observed.lowering = (result, after)) :
    silently part observed = (result, { observed with lowering := after }) := by
  rw [silently, hpart]

theorem state_silently {α : Type} {part : LowerM α}
    (hpart : (part observed.lowering).2 = observed.lowering) :
    (silently part observed).2 = observed := by
  change { observed with lowering := (part observed.lowering).2 } = observed
  rw [hpart]

theorem run_emitNode {entry : Entry} (hentry : graph.entryAt? id = some entry)
    {result : Except Fault (List Handle)} {emission : Emission}
    (hemit : entry.operation.emit id entry.node observed.lowering.emission = (result, emission)) :
    emitNode graph id observed =
      (result,
        { lowering := { observed.lowering with emission }
          invocations := observed.invocations ++ [⟨id, entry.node.outputs, result⟩] }) := by
  rw [emitNode, Lowering.entryAt_of_some hentry, run_bind_ok (run_ofExcept _ _)]
  simp only [Lowering.runEmission, hemit]

/-- The cases are split in the order in which the lowering checks them. -/
theorem nodeRun_lowerNode (graph : Graph) (id : NodeId) (observed : Observed) :
    NodeRun graph id observed (lowerNode graph id observed) := by
  unfold lowerNode
  cases hentry : graph.entryAt? id with
  | none =>
      have hfault : graph.entryAt id = .error (.violation (.unknownNode id)) := by
        rw [Graph.entryAt, hentry]
      rw [hfault, run_bind_error (run_ofExcept _ _)]
      exact .unknown hentry
  | some entry =>
      rw [Lowering.entryAt_of_some hentry, run_bind_ok (run_ofExcept _ _),
        run_bind_ok (run_silently (run_get _))]
      by_cases hlowered : id ∈ observed.lowering.lowered
      · rw [if_pos ((observed.lowering.isLowered_iff id).mpr hlowered)]
        rw [run_silently (Lowering.mapM_recorded_run _ _ _)]
        exact .repeated hentry hlowered
      rw [if_neg fun h => hlowered ((observed.lowering.isLowered_iff id).mp h)]
      cases hfind : entry.node.operands.find? fun operand =>
          (observed.lowering.emission.handle? operand).isNone with
      | some operand =>
          rw [run_bind_error (run_silently (Lowering.checkOperands_of_missing hfind id))]
          have hnone := List.find?_some hfind
          exact .blocked hentry hlowered (List.mem_of_find?_eq_some hfind)
            (Option.isNone_iff_eq_none.mp hnone)
      | none =>
          have hoperands : ∀ operand ∈ entry.node.operands,
              observed.lowering.emission.handle? operand ≠ none := by
            intro operand hmem hnone
            exact List.find?_eq_none.mp hfind operand hmem (Option.isNone_iff_eq_none.mpr hnone)
          rw [run_bind_ok (run_silently (Lowering.checkOperands_of_present hoperands id))]
          rcases hemit : entry.operation.emit id entry.node observed.lowering.emission with
            ⟨fault | handles, emission⟩
          · rw [run_bind_error (by rw [run_adapt, run_emitNode hentry hemit]; rfl)]
            exact .failed hentry hlowered hoperands hemit
          · rw [run_bind_ok (by rw [run_adapt, run_emitNode hentry hemit]; rfl)]
            by_cases hcount : handles.length = entry.node.outputs
            · rw [if_pos hcount]
              exact .completed hentry hlowered hoperands hemit hcount
            · rw [if_neg hcount]
              exact .miscounted hentry hlowered hoperands hemit hcount

end Run

end Observed

end TensorGraph
