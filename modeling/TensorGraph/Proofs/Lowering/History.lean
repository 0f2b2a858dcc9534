import TensorGraph.Proofs.Lowering.Replacement
import TensorGraph.Proofs.Operation.Recording
import TensorGraph.Workspace
import Mathlib.Logic.Relation

/-! # Histories of a lowering

Nodes of arbitrary operations are lowered one by one or with everything below
them, in any order and whether or not it succeeds, while the graph grows. An
operation is never invoked again once it returned a handle for each output, and
the node keeps these handles.
-/

namespace TensorGraph

open Relation

namespace Graph

/-- The nodes are still there. What their operations do may have changed, as an operation that is
not built in may depend on anything. -/
def Keeps (later earlier : Graph) : Prop :=
  ∀ id entry, earlier.entryAt? id = some entry →
    ∃ found, later.entryAt? id = some found ∧ found.node = entry.node

/-- Every node is emitted as the law demands of its identifier. -/
def Obeys (graph : Graph) (law : NodeId → EmitM (List Handle) → Prop) : Prop :=
  ∀ id entry, graph.entryAt? id = some entry → law id (entry.operation.emit id entry.node)

theorem obeys_of_forall {graph : Graph} {law : NodeId → EmitM (List Handle) → Prop}
    (hentries : ∀ entry ∈ graph.entries, ∀ id, law id (entry.operation.emit id entry.node)) :
    graph.Obeys law :=
  fun id entry hentry => hentries entry (Array.mem_of_getElem? hentry) id

end Graph

/-- A graph and an observed lowering of its nodes. -/
structure Session where
  graph : Graph
  observed : Observed := {}

namespace Session

/-- The state of the lowering. -/
def lowering (session : Session) : Lowering := session.observed.lowering

/-- The invocations so far, the latest last. -/
def invocations (session : Session) : List Invocation := session.observed.invocations

/-- An invocation completed the node. -/
def Completed (session : Session) (id : NodeId) : Prop :=
  ∃ invocation ∈ session.invocations, invocation.node = id ∧ invocation.Completed

/-- What the session does next is what a lowering does: the noted invocations take no part in its
answers, in what it emits and records, and in which nodes count as lowered. -/
structure Faithful (session : Session) : Prop where
  lowerNode : ∀ id, Lowering.lowerNode session.graph id session.lowering =
    ((Observed.lowerNode session.graph id session.observed).1,
      (Observed.lowerNode session.graph id session.observed).2.lowering)
  lowerValues : ∀ roots, Lowering.lowerValues session.graph roots session.lowering =
    ((Observed.lowerValues session.graph roots session.observed).1,
      (Observed.lowerValues session.graph roots session.observed).2.lowering)

theorem faithful (session : Session) : session.Faithful where
  lowerNode := fun id => Observed.forgets_lowerNode session.graph id session.observed
  lowerValues := fun roots => Observed.forgets_lowerValues session.graph roots session.observed

/-- What may happen in a session over nodes that obey the law. -/
inductive Step (law : NodeId → EmitM (List Handle) → Prop) : Session → Session → Prop
  | grow {session : Session} {later : Graph} :
      later.Keeps session.graph → later.Obeys law →
      Step law session { session with graph := later }
  | lowerNode (session : Session) (id : NodeId) :
      Step law session
        { session with observed := (Observed.lowerNode session.graph id session.observed).2 }
  | lowerValues (session : Session) (roots : List Value) :
      Step law session
        { session with observed := (Observed.lowerValues session.graph roots session.observed).2 }

/-- The sessions that start without anything lowered. -/
inductive Reachable (law : NodeId → EmitM (List Handle) → Prop) : Session → Prop
  | start {graph : Graph} : graph.Obeys law → Reachable law { graph }
  | step {earlier later : Session} :
      Reachable law earlier → Step law earlier later → Reachable law later

end Session

namespace Observed

open Effects

variable {graph : Graph} (invariant : Observed → Prop)

theorem lowerAll_preserves
    (hnode : ∀ id observed, invariant observed → invariant (lowerNode graph id observed).2)
    (ids : List NodeId) (observed : Observed) (hstart : invariant observed) :
    invariant (lowerAll graph ids observed).2 := by
  induction ids generalizing observed with
  | nil => exact hstart
  | cons id ids ih => exact run_bind_preserves invariant (hnode id) (fun _ => ih) observed hstart

/-- What the lowering of every node preserves, a lowering of values preserves. -/
theorem lowerValues_preserves
    (hnode : ∀ id observed, invariant observed → invariant (lowerNode graph id observed).2)
    (roots : List Value) (observed : Observed) (hstart : invariant observed) :
    invariant (lowerValues graph roots observed).2 := by
  refine run_bind_preserves invariant (lowerAll_preserves invariant hnode _) ?_ observed hstart
  intro _ after hafter
  rw [state_silently (run_mapM_state (Lowering.handleOf_state after.lowering) roots)]
  exact hafter

end Observed

namespace Session

variable {law : NodeId → EmitM (List Handle) → Prop}

/-- An invariant of growing graphs and of lowering single nodes is one of all steps. -/
theorem Step.preserves (invariant : Session → Prop)
    (hgrow : ∀ session later, later.Keeps session.graph → later.Obeys law →
      invariant session → invariant { session with graph := later })
    (hnode : ∀ session id, invariant session → invariant
      { session with observed := (Observed.lowerNode session.graph id session.observed).2 })
    {earlier later : Session} (hstep : Step law earlier later) (hstart : invariant earlier) :
    invariant later := by
  cases hstep with
  | grow hkeeps hobeys => exact hgrow earlier _ hkeeps hobeys hstart
  | lowerNode id => exact hnode earlier id hstart
  | lowerValues roots =>
      exact Observed.lowerValues_preserves (fun observed => invariant { earlier with observed })
        (fun id observed => hnode { earlier with observed } id) roots earlier.observed hstart

theorem Step.obeys {earlier later : Session} (hstep : Step law earlier later)
    (hobeys : earlier.graph.Obeys law) : later.graph.Obeys law := by
  cases hstep with
  | grow _ hlater => exact hlater
  | lowerNode id => exact hobeys
  | lowerValues roots => exact hobeys

theorem Reachable.obeys {session : Session} (hreachable : Reachable law session) :
    session.graph.Obeys law := by
  induction hreachable with
  | start hobeys => exact hobeys
  | step _ hstep ih => exact hstep.obeys ih

end Session

namespace Observed

/-- The lowered nodes are those completed by an invocation, and a completed node is not invoked
again. -/
structure Counted (observed : Observed) : Prop where
  lowered : ∀ id, id ∈ observed.lowering.lowered ↔
    ∃ invocation ∈ observed.invocations, invocation.node = id ∧ invocation.Completed
  once : observed.invocations.Pairwise fun earlier later =>
    earlier.Completed → later.node ≠ earlier.node

namespace Counted

theorem empty : Counted {} where
  lowered := by simp
  once := .nil

/-- Another node may be invoked, and is lowered if that completes it. -/
theorem invoke {observed : Observed} (hcounted : observed.Counted) {invocation : Invocation}
    (hnew : invocation.node ∉ observed.lowering.lowered) {lowering : Lowering}
    (hlowered : ∀ id, id ∈ lowering.lowered ↔
      id ∈ observed.lowering.lowered ∨ invocation.node = id ∧ invocation.Completed) :
    Counted { lowering, invocations := observed.invocations ++ [invocation] } where
  lowered := by
    intro id
    simp only [hlowered, hcounted.lowered, List.mem_append, List.mem_singleton, or_and_right,
      exists_or, exists_eq_left]
  once := by
    refine List.pairwise_append.mpr ⟨hcounted.once, List.pairwise_singleton _ _, ?_⟩
    intro earlier hearlier later hlater hcompleted heq
    obtain rfl := List.mem_singleton.mp hlater
    apply hnew
    rw [heq]
    exact (hcounted.lowered _).mpr ⟨earlier, hearlier, rfl, hcompleted⟩

theorem lowerNode {graph : Graph} (id : NodeId) (observed : Observed)
    (hcounted : observed.Counted) : (Observed.lowerNode graph id observed).2.Counted := by
  have hrun := nodeRun_lowerNode graph id observed
  generalize Observed.lowerNode graph id observed = outcome at hrun ⊢
  cases hrun with
  | unknown => exact hcounted
  | repeated => exact hcounted
  | blocked => exact hcounted
  | failed hentry hnew =>
      refine hcounted.invoke hnew fun other => ?_
      simp [Invocation.Completed, Invocation.Returned]
  | miscounted hentry hnew _ _ hcount =>
      refine hcounted.invoke hnew fun other => ?_
      simp [Invocation.Completed, Invocation.Returned, hcount]
  | completed hentry hnew _ _ hcount =>
      refine hcounted.invoke hnew fun other => ?_
      simp [Invocation.Completed, Invocation.Returned, hcount, or_comm, eq_comm]

end Counted

end Observed

namespace Session

variable {law : NodeId → EmitM (List Handle) → Prop}

theorem Reachable.counted {session : Session} (hreachable : Reachable law session) :
    session.observed.Counted := by
  induction hreachable with
  | start => exact .empty
  | step _ hstep ih =>
      exact Step.preserves (fun session => session.observed.Counted)
        (fun _ _ _ _ hcounted => hcounted)
        (fun session id hcounted => hcounted.lowerNode id session.observed) hstep ih

/-- The node is lowered with these handles. -/
structure Settled (session : Session) (id : NodeId) (handles : List Handle) : Prop where
  lowered : id ∈ session.lowering.lowered
  records : ∃ entry, session.graph.entryAt? id = some entry ∧
    session.lowering.emission.Records id entry.node.outputs handles

namespace Settled

variable {session : Session} {id : NodeId} {handles : List Handle}

/-- A settled node answers its handles and leaves the state alone. -/
theorem lowerNode_eq (hsettled : session.Settled id handles) :
    Lowering.lowerNode session.graph id session.lowering = (.ok handles, session.lowering) := by
  obtain ⟨entry, hentry, hrecords⟩ := hsettled.records
  exact (Lowering.lowerNode_eq_ok_iff_of_mem hentry hsettled.lowered handles).mpr hrecords

theorem handleOf_eq (hsettled : session.Settled id handles) {entry : Entry}
    (hentry : session.graph.entryAt? id = some entry) {index : Nat}
    (hindex : index < entry.node.outputs) :
    ∃ handle, handles[index]? = some handle ∧
      Lowering.handleOf ⟨id, index⟩ session.lowering = (.ok handle, session.lowering) := by
  obtain ⟨found, hfound, hrecords⟩ := hsettled.records
  obtain rfl : found = entry := Option.some.inj (hfound.symm.trans hentry)
  have hhandle := hrecords.handle?_eq hindex
  obtain ⟨hlength, _⟩ := (Emission.records_iff _ _ _ _).mp hrecords
  rw [← hlength] at hindex
  rw [List.getElem?_eq_getElem hindex] at hhandle
  exact ⟨_, List.getElem?_eq_getElem hindex, Lowering.handleOf_of_some hhandle⟩

theorem grow (hsettled : session.Settled id handles) {later : Graph}
    (hkeeps : later.Keeps session.graph) : Settled { session with graph := later } id handles := by
  obtain ⟨entry, hentry, hrecords⟩ := hsettled.records
  obtain ⟨found, hfound, hnode⟩ := hkeeps id entry hentry
  refine ⟨hsettled.lowered, found, hfound, ?_⟩
  rw [hnode]
  exact hrecords

/-- Emitting another node keeps the node settled. -/
theorem emit (hsettled : session.Settled id handles) {other : NodeId} {entry : Entry}
    (hreturns : (entry.operation.emit other entry.node).Returns other)
    (hnew : other ∉ session.lowering.lowered)
    {result : Except Fault (List Handle)} {emission : Emission}
    (hemit : entry.operation.emit other entry.node session.lowering.emission = (result, emission))
    {lowered : List NodeId} (hlowered : session.lowering.lowered ⊆ lowered)
    (invocations : List Invocation) :
    Settled { session with observed := ⟨{ emission, lowered }, invocations⟩ } id handles := by
  obtain ⟨found, hfound, hrecords⟩ := hsettled.records
  refine ⟨hlowered hsettled.lowered, found, hfound, ?_⟩
  -- a settled node is lowered, so it is not the one that is invoked
  have hne : id ≠ other := fun heq => hnew (heq ▸ hsettled.lowered)
  refine hrecords.imp fun index handle hhandle => ?_
  have hkept : emission.handle? ⟨id, index⟩ = session.lowering.emission.handle? ⟨id, index⟩ :=
    hreturns.handle?_of_node_ne hemit hne
  exact hkept.trans hhandle

theorem lowerNode (hsettled : session.Settled id handles)
    (hobeys : session.graph.Obeys EmitM.Returns) (other : NodeId) :
    Settled { session with
      observed := (Observed.lowerNode session.graph other session.observed).2 } id handles := by
  have hrun := Observed.nodeRun_lowerNode session.graph other session.observed
  generalize Observed.lowerNode session.graph other session.observed = outcome at hrun ⊢
  cases hrun with
  | unknown => exact hsettled
  | repeated => exact hsettled
  | blocked => exact hsettled
  | failed hentry hnew _ hemit =>
      exact hsettled.emit (hobeys other _ hentry) hnew hemit (List.Subset.refl _) _
  | miscounted hentry hnew _ hemit =>
      exact hsettled.emit (hobeys other _ hentry) hnew hemit (List.Subset.refl _) _
  | completed hentry hnew _ hemit =>
      exact hsettled.emit (hobeys other _ hentry) hnew hemit (List.subset_cons_self _ _) _

/-- A node stays settled for the rest of the session. -/
theorem of_steps (hsettled : session.Settled id handles)
    (hobeys : session.graph.Obeys EmitM.Returns) {later : Session}
    (hsteps : ReflTransGen (Step EmitM.Returns) session later) :
    later.Settled id handles := by
  have hboth : later.graph.Obeys EmitM.Returns ∧ later.Settled id handles := by
    induction hsteps with
    | refl => exact ⟨hobeys, hsettled⟩
    | tail _ hstep ih =>
        refine Step.preserves
          (fun session => session.graph.Obeys EmitM.Returns ∧ session.Settled id handles)
          ?_ ?_ hstep ih
        · exact fun session later hkeeps hlater hboth => ⟨hlater, hboth.2.grow hkeeps⟩
        · exact fun session other hboth => ⟨hboth.1, hboth.2.lowerNode hboth.1 other⟩
  exact hboth.2

end Settled

/-- Lowering a node with success settles it. -/
theorem settled_of_lowerNode {session : Session} (hobeys : session.graph.Obeys EmitM.Returns)
    {id : NodeId} {handles : List Handle}
    (hok : (Lowering.lowerNode session.graph id session.lowering).1 = .ok handles) :
    Settled { session with
      observed := (Observed.lowerNode session.graph id session.observed).2 } id handles := by
  have hrun := Observed.nodeRun_lowerNode session.graph id session.observed
  rw [lowering, Observed.forgets_lowerNode session.graph id session.observed] at hok
  generalize Observed.lowerNode session.graph id session.observed = outcome at hrun hok ⊢
  cases hrun with
  | unknown => cases hok
  | @repeated entry hentry hlowered =>
      refine ⟨hlowered, entry, hentry, ?_⟩
      have hanswer := Lowering.lowerNode_of_mem hentry hlowered
      rw [hok] at hanswer
      exact (Lowering.lowerNode_eq_ok_iff_of_mem hentry hlowered handles).mp hanswer
  | blocked => cases hok
  | failed => cases hok
  | miscounted => cases hok
  | @completed entry returned emission hentry hnew _ hemit hcount =>
      obtain rfl : returned = handles := Except.ok.inj hok
      refine ⟨List.mem_cons_self, entry, hentry, ?_⟩
      -- as many handles as outputs cover whatever failed invocations had recorded
      have hrecords := Emission.records_assignFrom session.observed.lowering.emission id returned
      rw [hcount] at hrecords
      refine hrecords.imp fun index handle hhandle => ?_
      have hreturned := (hobeys id entry hentry).returned _ returned emission hemit
      exact (hreturned ⟨id, index⟩).trans hhandle

/-- The nodes that count as lowered are the completed ones. -/
theorem Reachable.isLowered_iff_completed {session : Session}
    (hreachable : session.Reachable law) (id : NodeId) :
    session.lowering.isLowered id = true ↔ session.Completed id := by
  rw [Lowering.isLowered_iff]
  exact hreachable.counted.lowered id

/-- The operations of completed nodes could be any others without changing what is lowered next. -/
theorem Reachable.eq_of_agreesApart {session : Session} (hreachable : session.Reachable law)
    {other : Graph} (hagrees : session.graph.AgreesApart other session.Completed) :
    (∀ id, Lowering.lowerNode other id session.lowering =
        Lowering.lowerNode session.graph id session.lowering) ∧
      ∀ roots, Lowering.lowerValues other roots session.lowering =
        Lowering.lowerValues session.graph roots session.lowering := by
  have hlowered : session.graph.AgreesApart other (· ∈ session.lowering.lowered) := by
    refine hagrees.mono fun id hcompleted => ?_
    rw [← Lowering.isLowered_iff]
    exact (hreachable.isLowered_iff_completed id).mpr hcompleted
  exact ⟨Lowering.lowerNode_eq_of_agreesApart hlowered,
    Lowering.lowerValues_eq_of_agreesApart hlowered⟩

/-- An operation that returned one handle per output is never invoked on its node again. No such
invocation is noted, and the notes are those of the lowering itself: the completed nodes are those
that count as lowered, and whatever their operations are replaced with, no lowering after that turns
out differently. Once the lowering of a node succeeded, it answers the same handles ever after and
changes nothing, and the outputs of the node have these handles. -/
theorem lowered_at_most_once {session : Session}
    (hreachable : session.Reachable EmitM.Returns) :
    session.invocations.Pairwise
        (fun earlier later => earlier.Completed → later.node ≠ earlier.node) ∧
      session.Faithful ∧
      (∀ id, session.lowering.isLowered id = true ↔ session.Completed id) ∧
      (∀ other, session.graph.AgreesApart other session.Completed →
        (∀ id, Lowering.lowerNode other id session.lowering =
            Lowering.lowerNode session.graph id session.lowering) ∧
          ∀ roots, Lowering.lowerValues other roots session.lowering =
            Lowering.lowerValues session.graph roots session.lowering) ∧
      ∀ id handles,
        (Lowering.lowerNode session.graph id session.lowering).1 = .ok handles →
        ∀ later, ReflTransGen (Step EmitM.Returns)
          { session with
            observed := (Observed.lowerNode session.graph id session.observed).2 } later →
        Lowering.lowerNode later.graph id later.lowering = (.ok handles, later.lowering) ∧
          ∀ entry, later.graph.entryAt? id = some entry → ∀ index < entry.node.outputs,
            ∃ handle, handles[index]? = some handle ∧
              Lowering.handleOf ⟨id, index⟩ later.lowering = (.ok handle, later.lowering) := by
  refine ⟨hreachable.counted.once, session.faithful, hreachable.isLowered_iff_completed,
    fun _ => hreachable.eq_of_agreesApart, fun id handles hok later hsteps => ?_⟩
  have hobeys := hreachable.obeys
  have hsettled := (settled_of_lowerNode hobeys hok).of_steps hobeys hsteps
  refine ⟨hsettled.lowerNode_eq, fun entry hentry index hindex => ?_⟩
  exact hsettled.handleOf_eq hentry hindex

/-- A node with two tokens as outputs is lowered and asked for again, also after its operation was
taken from it. -/
theorem lowered_at_most_once_pair :
    let request : Request :=
      { kind := ⟨"test", "pair"⟩
        outputs := 2
        seed := .seed
        source := .given (.tuple [.token, .token])
        operation := .custom (some (Recipe.lower { tokens := 2 })) }
    let graph := (request.construct { cache := ⟨1, []⟩ }).2.graph
    let bare := ({ request with operation := .custom none }.construct { cache := ⟨1, []⟩ }).2.graph
    let first : Session := { graph }
    let second : Session := { graph, observed := (Observed.lowerNode graph 0 {}).2 }
    first.Reachable EmitM.Returns ∧
      (Lowering.lowerNode graph 0 first.lowering).1 = .ok [⟨0⟩, ⟨1⟩] ∧
      (Lowering.lowerNode graph 0 first.lowering).2 = second.lowering ∧
      Lowering.lowerNode graph 0 second.lowering = (.ok [⟨0⟩, ⟨1⟩], second.lowering) ∧
      second.Completed 0 ∧ graph.AgreesApart bare second.Completed ∧
      Lowering.lowerNode bare 0 second.lowering = (.ok [⟨0⟩, ⟨1⟩], second.lowering) := by
  intro request graph bare first second
  have hreachable : first.Reachable EmitM.Returns := by
    refine .start (Graph.obeys_of_forall fun entry hentry => ?_)
    obtain rfl := List.mem_singleton.mp (Array.mem_toList_iff.mpr hentry)
    exact fun id => (Operation.registers_recipe rfl id _).returns
  have hfirst : (Lowering.lowerNode graph 0 first.lowering).1 = .ok [⟨0⟩, ⟨1⟩] := rfl
  obtain ⟨_, hfaithful, _, _, hstays⟩ := lowered_at_most_once hreachable
  have hagain := hstays 0 _ hfirst second .refl
  have hnext : second.Reachable EmitM.Returns := .step hreachable (.lowerNode first 0)
  obtain ⟨_, _, hlowered, hreplaced, _⟩ := lowered_at_most_once hnext
  have hcompleted : second.Completed 0 := (hlowered 0).mp rfl
  have hagrees : graph.AgreesApart bare second.Completed := by
    constructor
    · rintro (_ | _) <;> rfl
    · rintro (_ | _) hopen
      · exact absurd hcompleted hopen
      · rfl
  refine ⟨hreachable, hfirst, ?_, hagain.1, hcompleted, hagrees, ?_⟩
  · rw [hfaithful.lowerNode 0]
    rfl
  · exact ((hreplaced bare hagrees).1 0).trans hagain.1

end Session

end TensorGraph
