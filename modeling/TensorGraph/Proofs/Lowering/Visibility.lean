import TensorGraph.Proofs.Lowering.History

/-! # Which values resolve

The handles of an output are recorded by the operation of its node, before the
lowering counts them. An operation that returns another number of handles than
its node has outputs is reported and does not count as lowered, but what it
recorded stays. So a value resolves if its node was lowered, or if such an
invocation covered it; there is no other way.
-/

namespace TensorGraph

open Effects

namespace Session

/-- Some invocation that was reported for its number of handles covered the value. -/
def Exposed (session : Session) (value : Value) : Prop :=
  ∃ invocation ∈ session.invocations, invocation.node = value.node ∧
    ∃ handles, invocation.Miscounted handles ∧ value.index < handles.length

/-- Every handle was returned by an invocation of its node, and all returned handles are kept. -/
structure Accounted (session : Session) : Prop where
  known : ∀ invocation ∈ session.invocations, ∃ entry,
    session.graph.entryAt? invocation.node = some entry ∧
      invocation.outputs = entry.node.outputs
  handles : ∀ value, (∃ handle, session.lowering.emission.handle? value = some handle) ↔
    ∃ invocation ∈ session.invocations, invocation.node = value.node ∧
      ∃ handles, invocation.Returned handles ∧ value.index < handles.length

namespace Accounted

theorem start (graph : Graph) : Accounted { graph } where
  known := by simp [invocations]
  handles := by simp [invocations, lowering, Emission.handle?]

theorem grow {session : Session} (haccounted : session.Accounted) {later : Graph}
    (hkeeps : later.Keeps session.graph) : Accounted { session with graph := later } where
  known := by
    intro invocation hmem
    obtain ⟨entry, hentry, houtputs⟩ := haccounted.known invocation hmem
    obtain ⟨found, hfound, hnode⟩ := hkeeps _ entry hentry
    exact ⟨found, hfound, by rw [hnode, houtputs]⟩
  handles := haccounted.handles

/-- An invocation accounts for the handles that it returned. -/
theorem invoke {session : Session} (haccounted : session.Accounted) {id : NodeId} {entry : Entry}
    (hentry : session.graph.entryAt? id = some entry)
    (hlaw : (entry.operation.emit id entry.node).Registers id)
    {result : Except Fault (List Handle)} {emission : Emission}
    (hemit : entry.operation.emit id entry.node session.lowering.emission = (result, emission))
    (lowered : List NodeId) :
    Accounted { session with
      observed :=
        { lowering := { emission, lowered }
          invocations := session.invocations ++ [⟨id, entry.node.outputs, result⟩] } } where
  known := by
    intro invocation hmem
    rcases List.mem_append.mp hmem with hearlier | hnew
    · exact haccounted.known invocation hearlier
    · obtain rfl := List.mem_singleton.mp hnew
      exact ⟨entry, hentry, rfl⟩
  handles := by
    intro value
    have hbefore := haccounted.handles value
    change (∃ handle, emission.handle? value = some handle) ↔
      ∃ invocation ∈ session.invocations ++ [⟨id, entry.node.outputs, result⟩], _
    simp only [List.mem_append, List.mem_singleton, or_and_right, exists_or, exists_eq_left]
    rw [← hbefore]
    -- only the new invocation is left to account for, and a failed one recorded nothing
    cases result with
    | error fault =>
        rw [hlaw.nothing _ fault emission hemit value]
        simp [Invocation.Returned]
    | ok handles =>
        rw [hlaw.returned _ handles emission hemit value,
          Emission.exists_handle?_assignFrom, or_comm]
        simp [Invocation.Returned]

theorem lowerNode {session : Session} (haccounted : session.Accounted)
    (hobeys : session.graph.Obeys EmitM.Registers) (id : NodeId) :
    Accounted { session with
      observed := (Observed.lowerNode session.graph id session.observed).2 } := by
  have hrun := Observed.nodeRun_lowerNode session.graph id session.observed
  generalize Observed.lowerNode session.graph id session.observed = outcome at hrun ⊢
  cases hrun with
  | unknown => exact haccounted
  | repeated => exact haccounted
  | blocked => exact haccounted
  | failed hentry _ _ hemit => exact haccounted.invoke hentry (hobeys id _ hentry) hemit _
  | miscounted hentry _ _ hemit => exact haccounted.invoke hentry (hobeys id _ hentry) hemit _
  | completed hentry _ _ hemit => exact haccounted.invoke hentry (hobeys id _ hentry) hemit _

end Accounted

theorem Reachable.accounted {session : Session}
    (hreachable : session.Reachable EmitM.Registers) : session.Accounted := by
  have hboth : session.graph.Obeys EmitM.Registers ∧ session.Accounted := by
    induction hreachable with
    | start hobeys => exact ⟨hobeys, .start _⟩
    | step _ hstep ih =>
        refine Step.preserves
          (fun session => session.graph.Obeys EmitM.Registers ∧ session.Accounted)
          ?_ ?_ hstep ih
        · exact fun session later hkeeps hlater hboth => ⟨hlater, hboth.2.grow hkeeps⟩
        · exact fun session id hboth => ⟨hboth.1, hboth.2.lowerNode hboth.1 id⟩
  exact hboth.2

/-- A value with a handle belongs to a lowered node or was exposed. -/
theorem Reachable.lowered_or_exposed {session : Session}
    (hreachable : session.Reachable EmitM.Registers) {value : Value} {handle : Handle}
    (hhandle : session.lowering.emission.handle? value = some handle) :
    value.node ∈ session.lowering.lowered ∨ session.Exposed value := by
  obtain ⟨invocation, hmem, hnode, handles, hreturned, hindex⟩ :=
    (hreachable.accounted.handles value).mp ⟨handle, hhandle⟩
  by_cases hcount : handles.length = invocation.outputs
  · refine Or.inl ((hreachable.counted.lowered _).mpr ⟨invocation, hmem, hnode, ?_⟩)
    exact ⟨handles, hreturned, hcount⟩
  · exact Or.inr ⟨invocation, hmem, hnode, handles, ⟨hreturned, hcount⟩, hindex⟩

/-- An output of a lowered node has a handle, and so has an exposed value. -/
theorem Reachable.exists_handle {session : Session}
    (hreachable : session.Reachable EmitM.Registers) {value : Value}
    (hvalue : session.graph.HasValue value)
    (hcase : value.node ∈ session.lowering.lowered ∨ session.Exposed value) :
    ∃ handle, session.lowering.emission.handle? value = some handle := by
  have haccounted := hreachable.accounted
  refine (haccounted.handles value).mpr ?_
  rcases hcase with hlowered | ⟨invocation, hmem, hnode, handles, hmiscounted, hindex⟩
  · obtain ⟨invocation, hmem, hnode, handles, hreturned, hcount⟩ :=
      (hreachable.counted.lowered _).mp hlowered
    refine ⟨invocation, hmem, hnode, handles, hreturned, ?_⟩
    obtain ⟨entry, hentry, hindex⟩ := hvalue
    -- the node still has the outputs that it had when it was invoked
    obtain ⟨found, hfound, houtputs⟩ := haccounted.known invocation hmem
    rw [hnode] at hfound
    obtain rfl : found = entry := Option.some.inj (hfound.symm.trans hentry)
    rw [hcount, houtputs]
    exact hindex
  · exact ⟨invocation, hmem, hnode, handles, hmiscounted.1, hindex⟩

/-- A value resolves exactly if its node was lowered or an invocation that was reported for its
number of handles covered it. As long as an operand has neither, its users are refused. The noted
invocations are those of the lowering itself. -/
theorem resolves_iff_lowered_or_exposed {session : Session}
    (hreachable : session.Reachable EmitM.Registers) :
    session.Faithful ∧
      (∀ value, session.graph.HasValue value →
        ((∃ handle, Lowering.handleOf value session.lowering = (.ok handle, session.lowering)) ↔
          session.lowering.isLowered value.node = true ∨ session.Exposed value)) ∧
      ∀ user entry, session.graph.entryAt? user = some entry →
        session.lowering.isLowered user = false → ∀ operand ∈ entry.node.operands,
        ¬ (session.lowering.isLowered operand.node = true ∨ session.Exposed operand) →
        ∃ missing ∈ entry.node.operands, Lowering.lowerNode session.graph user session.lowering =
          (.error (.failure (.operandNotLowered missing user)), session.lowering) := by
  refine ⟨session.faithful, ?_, ?_⟩
  · intro value hvalue
    rw [Lowering.isLowered_iff]
    constructor
    · rintro ⟨handle, hresolves⟩
      have hhandle := ((Lowering.handleOf_eq_ok_iff _ _ value handle).mp hresolves).1
      exact hreachable.lowered_or_exposed hhandle
    · intro hcase
      obtain ⟨handle, hhandle⟩ := hreachable.exists_handle hvalue hcase
      exact ⟨handle, Lowering.handleOf_of_some hhandle⟩
  · intro user entry hentry hnew operand hoperand hneither
    have hnot : user ∉ session.lowering.lowered := by
      rw [← Lowering.isLowered_iff, hnew]
      exact Bool.false_ne_true
    rw [Lowering.isLowered_iff] at hneither
    cases hhandle : session.lowering.emission.handle? operand with
    | some handle => exact absurd (hreachable.lowered_or_exposed hhandle) hneither
    | none => exact Lowering.lowerNode_of_missing hentry hnot hoperand hhandle

/-- A node with two outputs whose operation returns one handle, and a user of its first output. -/
def shortPair : Graph :=
  let pair : Request :=
    { kind := ⟨"test", "pair"⟩
      outputs := 2
      seed := .seed
      source := .given (.tuple [.token, .token])
      operation := .custom (some (Recipe.lower { tokens := 1 })) }
  let user : Request :=
    { kind := ⟨"test", "user"⟩
      operands := [⟨0, 0⟩]
      seed := .seed
      source := .given .token
      operation := .custom (some (Recipe.lower { forwarded := [0] })) }
  (user.construct (pair.construct { cache := ⟨1, []⟩ }).2).2.graph

theorem shortPair_obeys : shortPair.Obeys EmitM.Registers := by
  refine Graph.obeys_of_forall fun entry hentry => ?_
  rcases List.mem_cons.mp (Array.mem_toList_iff.mpr hentry) with rfl | hentry
  · exact fun id => Operation.registers_recipe rfl id _
  · obtain rfl := List.mem_singleton.mp hentry
    exact fun id => Operation.registers_recipe rfl id _

/-- The lowering of the pair is reported, yet its first output resolves and its user is lowered. -/
theorem reported_output_resolves :
    let session : Session :=
      { graph := shortPair, observed := (Observed.lowerNode shortPair 0 {}).2 }
    session.Reachable EmitM.Registers ∧
      (Lowering.lowerNode shortPair 0 {}).1 = .error (.failure (.handleCount 0 1)) ∧
      session.graph.HasValue ⟨0, 0⟩ ∧
      session.lowering.isLowered 0 = false ∧
      Lowering.handleOf ⟨0, 0⟩ session.lowering = (.ok ⟨0⟩, session.lowering) ∧
      (Lowering.lowerNode shortPair 1 session.lowering).1 = .ok [⟨0⟩] := by
  intro session
  refine ⟨.step (.start shortPair_obeys) (.lowerNode _ 0), rfl, ?_, rfl, rfl, rfl⟩
  exact ⟨_, rfl, by decide⟩

/-- Before anything is lowered no output of the pair resolves, and its user is refused. -/
theorem resolves_iff_lowered_or_exposed_pair :
    let session : Session := { graph := shortPair }
    session.Reachable EmitM.Registers ∧
      (¬ ∃ handle, Lowering.handleOf ⟨0, 0⟩ session.lowering = (.ok handle, session.lowering)) ∧
      ∃ missing ∈ [(⟨0, 0⟩ : Value)], Lowering.lowerNode shortPair 1 session.lowering =
        (.error (.failure (.operandNotLowered missing 1)), session.lowering) := by
  intro session
  have hreachable : session.Reachable EmitM.Registers := .start shortPair_obeys
  have hneither : ¬ (session.lowering.isLowered 0 = true ∨ session.Exposed ⟨0, 0⟩) := by
    rintro (hlowered | ⟨invocation, hmem, _⟩)
    · cases hlowered
    · cases hmem
  obtain ⟨_, hresolves, husers⟩ := resolves_iff_lowered_or_exposed hreachable
  refine ⟨hreachable, ?_, ?_⟩
  · rw [hresolves ⟨0, 0⟩ ⟨_, rfl, by decide⟩]
    exact hneither
  · exact husers 1 _ rfl rfl ⟨0, 0⟩ List.mem_cons_self hneither

end Session

end TensorGraph
