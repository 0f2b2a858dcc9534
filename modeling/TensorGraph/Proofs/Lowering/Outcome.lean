import TensorGraph.Proofs.Lowering.History
import TensorGraph.Proofs.Lowering.Placement
import TensorGraph.Proofs.Workspace.Evolution

/-! # Where a lowering of values stops

Nodes are lowered in the order of their construction, so the operands of each are
lowered before it and have handles. A lowering of values therefore stops only at a
node whose own operation fails or returns another number of handles than the node
has outputs. What was lowered before stays lowered.
-/

namespace TensorGraph

open Effects ListRelations

/-- What a lowering reports of an invocation that did not complete its node. -/
def Invocation.report (invocation : Invocation) : Fault :=
  match invocation.result with
  | .error fault => fault.within (.inLowering invocation.node)
  | .ok handles => .failure (.handleCount invocation.node handles.length)

/-- A report speaks of the node itself, and of no value that lacks a handle. -/
theorem Invocation.report_ne_notLowered (invocation : Invocation) :
    (∀ operand user, invocation.report ≠ .failure (.operandNotLowered operand user)) ∧
      ∀ value, invocation.report ≠ .failure (.valueNotLowered value) := by
  rcases invocation with ⟨node, outputs, (_ | _) | handles⟩ <;> simp [report, Fault.within]

namespace Observed

variable {graph : Graph}

/-- Only the node itself may become lowered, and then its lowering succeeded. -/
theorem mem_lowered_lowerNode {id other : NodeId} {observed : Observed}
    (hmem : other ∈ (lowerNode graph id observed).2.lowering.lowered) :
    other ∈ observed.lowering.lowered ∨
      other = id ∧ ∃ handles, (Lowering.lowerNode graph id observed.lowering).1 = .ok handles := by
  have hrun := nodeRun_lowerNode graph id observed
  rw [forgets_lowerNode graph id observed]
  generalize lowerNode graph id observed = outcome at hrun hmem ⊢
  cases hrun with
  | completed =>
      rcases List.mem_cons.mp hmem with heq | hmem
      · exact Or.inr ⟨heq, _, rfl⟩
      · exact Or.inl hmem
  | _ => exact Or.inl hmem

end Observed

namespace Session

variable {session : Session}

/-- Every lowered node is settled: what completes a node records all its handles. -/
theorem Reachable.settled (hreachable : session.Reachable EmitM.Returns) :
    ∀ id ∈ session.lowering.lowered, ∃ handles, session.Settled id handles := by
  have hboth : session.graph.Obeys EmitM.Returns ∧
      ∀ id ∈ session.lowering.lowered, ∃ handles, session.Settled id handles := by
    induction hreachable with
    | start hobeys => exact ⟨hobeys, by simp [lowering]⟩
    | step _ hstep ih =>
        refine Step.preserves (fun session => session.graph.Obeys EmitM.Returns ∧
          ∀ id ∈ session.lowering.lowered, ∃ handles, session.Settled id handles) ?_ ?_ hstep ih
        · rintro session later hkeeps hlater ⟨_, hsettled⟩
          refine ⟨hlater, fun id hmem => ?_⟩
          obtain ⟨handles, hhandles⟩ := hsettled id hmem
          exact ⟨handles, hhandles.grow hkeeps⟩
        · rintro session other ⟨hobeys, hsettled⟩
          refine ⟨hobeys, fun id hmem => ?_⟩
          rcases Observed.mem_lowered_lowerNode hmem with hbefore | ⟨rfl, handles, hok⟩
          · obtain ⟨handles, hhandles⟩ := hsettled id hbefore
            exact ⟨handles, hhandles.lowerNode hobeys other⟩
          · exact ⟨handles, settled_of_lowerNode hobeys hok⟩
  exact hboth.2

/-- The outputs of a lowered node have handles. -/
theorem Reachable.handle?_of_lowered (hreachable : session.Reachable EmitM.Returns)
    {value : Value} (hvalue : session.graph.HasValue value)
    (hlowered : value.node ∈ session.lowering.lowered) :
    ∃ handle, session.lowering.emission.handle? value = some handle := by
  obtain ⟨handles, hsettled⟩ := hreachable.settled _ hlowered
  obtain ⟨entry, hentry, hindex⟩ := hvalue
  obtain ⟨handle, _, hanswer⟩ := hsettled.handleOf_eq hentry hindex
  exact ⟨handle, ((Lowering.handleOf_eq_ok_iff _ _ _ _).mp hanswer).1⟩

end Session

namespace Observed

open Session

variable {graph : Graph} {before middle after observed : Observed} {id : NodeId}
  {ids : List NodeId}

/-- The nodes are lowered now, those that were not by invocations that completed them. -/
structure Passes (ids : List NodeId) (before after : Observed) (calls : List Invocation) :
    Prop where
  invocations : after.invocations = before.invocations ++ calls
  lowered : ∀ id, id ∈ after.lowering.lowered ↔ id ∈ before.lowering.lowered ∨ id ∈ ids
  completed : ∀ call ∈ calls, call.Completed ∧ call.node ∈ ids

/-- The last invocation was of a node that was not lowered, and did not complete it. -/
structure Fails (graph : Graph) (before after : Observed) (failed : Invocation) : Prop where
  invocations : after.invocations = before.invocations ++ [failed]
  known : ∃ entry, graph.entryAt? failed.node = some entry ∧ failed.outputs = entry.node.outputs
  fresh : failed.node ∉ before.lowering.lowered
  incomplete : ¬ failed.Completed
  lowered : after.lowering.lowered = before.lowering.lowered

theorem Passes.nil (observed : Observed) : Passes [] observed observed [] where
  invocations := (List.append_nil _).symm
  lowered := by simp
  completed := by simp

theorem Passes.append {first second : List NodeId} {calls calls' : List Invocation}
    (hfirst : Passes first before middle calls) (hsecond : Passes second middle after calls') :
    Passes (first ++ second) before after (calls ++ calls') where
  invocations := by rw [hsecond.invocations, hfirst.invocations, List.append_assoc]
  lowered := by
    intro id
    rw [hsecond.lowered, hfirst.lowered, List.mem_append, or_assoc]
  completed := by
    intro call hcall
    rcases List.mem_append.mp hcall with hcall | hcall
    · obtain ⟨hcompleted, hmem⟩ := hfirst.completed call hcall
      exact ⟨hcompleted, List.mem_append_left _ hmem⟩
    · obtain ⟨hcompleted, hmem⟩ := hsecond.completed call hcall
      exact ⟨hcompleted, List.mem_append_right _ hmem⟩

/-- A node over lowered operands passes, or its own operation fails it. -/
theorem lowerNode_passes_or_fails
    (hreachable : Reachable EmitM.Returns { graph, observed }) (hreads : graph.ReadsOutputs)
    {entry : Entry} (hentry : graph.entryAt? id = some entry)
    (hoperands : ∀ operand ∈ entry.node.operands, operand.node ∈ observed.lowering.lowered) :
    (∃ handles calls after, lowerNode graph id observed = (.ok handles, after) ∧
        Passes [id] observed after calls) ∨
      ∃ failed after, lowerNode graph id observed = (.error failed.report, after) ∧
        failed.node = id ∧ Fails graph observed after failed := by
  have hrun := nodeRun_lowerNode graph id observed
  cases hresult : lowerNode graph id observed with | mk result after => ?_
  rw [hresult] at hrun
  cases hrun with
  | unknown hnone =>
      rw [hentry] at hnone
      cases hnone
  | repeated hfound hlowered =>
      obtain ⟨handles, hsettled⟩ := hreachable.settled id hlowered
      have hanswer : Lowering.lowerNode graph id observed.lowering =
          (.ok handles, observed.lowering) := hsettled.lowerNode_eq
      rw [Lowering.lowerNode_of_mem hfound hlowered] at hanswer
      refine Or.inl ⟨handles, [], _, congrArg (·, _) (congrArg Prod.fst hanswer), ?_, ?_, ?_⟩
      · exact (List.append_nil _).symm
      · intro other
        rw [List.mem_singleton]
        exact ⟨Or.inl, fun h => h.elim (fun h => h) fun heq => heq ▸ hlowered⟩
      · simp
  | blocked hfound _ hoperand hnone =>
      obtain rfl := Option.some.inj (hfound.symm.trans hentry)
      have hvalue := hreads id _ hentry _ hoperand
      obtain ⟨handle, hhandle⟩ := hreachable.handle?_of_lowered hvalue (hoperands _ hoperand)
      cases hnone.symm.trans hhandle
  | @failed entry fault emission hfound hnew =>
      refine Or.inr ⟨⟨id, entry.node.outputs, .error fault⟩, _, rfl, rfl, rfl,
        ⟨_, hfound, rfl⟩, hnew, ?_, rfl⟩
      simp [Invocation.Completed, Invocation.Returned]
  | @miscounted entry handles emission hfound hnew _ _ hcount =>
      refine Or.inr ⟨⟨id, entry.node.outputs, .ok handles⟩, _, rfl, rfl, rfl,
        ⟨_, hfound, rfl⟩, hnew, ?_, rfl⟩
      simpa [Invocation.Completed, Invocation.Returned] using hcount
  | completed hfound hnew _ _ hcount =>
      refine Or.inl ⟨_, _, _, rfl, rfl, ?_, ?_⟩
      · simp [or_comm]
      · simpa [Invocation.Completed, Invocation.Returned] using hcount

/-- Nodes in increasing order pass until the operation of one fails it, if what they read is lowered
or among them. The induction is on the list, with the state of the session growing. -/
theorem lowerAll_passes_or_fails (hordered : graph.Ordered) (houtputs : graph.ReadsOutputs)
    (ids : List NodeId) (hsorted : ids.Pairwise (· < ·)) (hknown : ∀ id ∈ ids, id < graph.size)
    {observed : Observed} (hreachable : Reachable EmitM.Returns { graph, observed })
    (hclosed : ∀ id ∈ ids, ∀ operand, graph.Reads id operand →
      operand ∈ ids ∨ operand ∈ observed.lowering.lowered) :
    (∃ calls after, lowerAll graph ids observed = (.ok (), after) ∧
        Reachable EmitM.Returns { graph, observed := after } ∧ Passes ids observed after calls) ∨
      ∃ done rest calls middle failed after,
        lowerAll graph ids observed = (.error failed.report, after) ∧
        ids = done ++ failed.node :: rest ∧ Passes done observed middle calls ∧
        Fails graph middle after failed := by
  induction ids generalizing observed with
  | nil => exact Or.inl ⟨[], observed, rfl, hreachable, .nil _⟩
  | cons id ids ih =>
      obtain ⟨hfirst, hrest⟩ := List.pairwise_cons.mp hsorted
      obtain ⟨entry, hentry⟩ := Graph.exists_entryAt? (hknown id List.mem_cons_self)
      have hoperands := Lowering.Consistent.operands_lowered hordered hentry hfirst
        (hclosed id List.mem_cons_self)
      have hnode := lowerNode_passes_or_fails hreachable houtputs hentry hoperands
      have hnext : Reachable EmitM.Returns { graph, observed := (lowerNode graph id observed).2 } :=
        .step hreachable (.lowerNode { graph, observed } id)
      rcases hnode with ⟨handles, calls, middle, hrun, hpasses⟩ | ⟨failed, after, hrun, rfl, hfails⟩
      · rw [hrun] at hnext
        have hclosed' : ∀ other ∈ ids, ∀ operand, graph.Reads other operand →
            operand ∈ ids ∨ operand ∈ middle.lowering.lowered := by
          intro other hmem operand hreads
          rw [hpasses.lowered, List.mem_singleton, or_comm (b := operand = id), ← or_assoc,
            or_comm (b := operand = id), ← List.mem_cons]
          exact hclosed other (List.mem_cons_of_mem _ hmem) operand hreads
        have hafter : lowerAll graph (id :: ids) observed = lowerAll graph ids middle := by
          rw [lowerAll, run_bind_ok hrun]
        rw [hafter]
        rcases ih hrest (fun other hmem => hknown other (List.mem_cons_of_mem _ hmem)) hnext
            hclosed' with
          ⟨calls', after, hall, hreached, hpasses'⟩ |
            ⟨done, rest, calls', stopped, failed, after, hall, rfl, hpasses', hfails⟩
        · exact Or.inl ⟨calls ++ calls', after, hall, hreached, hpasses.append hpasses'⟩
        · exact Or.inr ⟨id :: done, rest, calls ++ calls', stopped, failed, after, hall, rfl,
            hpasses.append hpasses', hfails⟩
      · refine Or.inr ⟨[], ids, [], observed, failed, after, ?_, rfl, .nil _, hfails⟩
        rw [lowerAll, run_bind_error hrun]

/-- A lowering of outputs of the graph answers with their handles once everything below them is
lowered, or stops where a node fails. -/
theorem lowerValues_passes_or_fails (hordered : graph.Ordered) (houtputs : graph.ReadsOutputs)
    (hreachable : Reachable EmitM.Returns { graph, observed }) {roots : List Value}
    (hroots : ∀ root ∈ roots, graph.HasValue root) :
    (∃ handles calls after, lowerValues graph roots observed = (.ok handles, after) ∧
        List.Forall₂ (fun root handle => after.lowering.emission.handle? root = some handle)
          roots handles ∧
        Passes (graph.postOrder roots) observed after calls) ∨
      ∃ done rest calls middle failed after,
        lowerValues graph roots observed = (.error failed.report, after) ∧
        graph.postOrder roots = done ++ failed.node :: rest ∧
        Passes done observed middle calls ∧ Fails graph middle after failed := by
  have hknown : ∀ id ∈ graph.postOrder roots, id < graph.size := fun id hmem =>
    Graph.lt_size_of_mem_postOrder hordered hmem
  rcases lowerAll_passes_or_fails hordered houtputs (graph.postOrder roots)
      (Graph.postOrder_sorted roots) hknown hreachable
      (fun id hmem operand hreads =>
        Or.inl (Graph.operand_mem_postOrder hordered hmem hreads)) with
    ⟨calls, after, hall, hreached, hpasses⟩ |
      ⟨done, rest, calls, middle, failed, after, hall, hsplit, hpasses, hfails⟩
  · obtain ⟨handles, hhandles⟩ := exists_forall₂ fun root hroot =>
      hreached.handle?_of_lowered (hroots root hroot) ((hpasses.lowered _).mpr
        (Or.inr (Graph.root_mem_postOrder hordered hroot (hroots root hroot))))
    refine Or.inl ⟨handles, calls, after, ?_, hhandles, hpasses⟩
    rw [lowerValues, run_bind_ok hall]
    exact run_silently (run_mapM_of_forall₂ (hhandles.imp fun _ _ => Lowering.handleOf_of_some))
  · refine Or.inr ⟨done, rest, calls, middle, failed, after, ?_, hsplit, hpasses, hfails⟩
    rw [lowerValues, run_bind_error hall]

end Observed

namespace Session

open Observed

/-- A lowering of values answers with the recorded handles of the roots once everything below them
is lowered, or it stops at the first node whose own operation fails it. All operations that it
invoked before completed their nodes, and those stay lowered. -/
theorem lowerValues_stops_at_failure {workspace : Workspace} (hworkspace : workspace.Constructed)
    (houtputs : workspace.graph.ReadsOutputs) {observed : Observed}
    (hreachable : Reachable EmitM.Returns { graph := workspace.graph, observed })
    {roots : List Value} (hroots : ∀ root ∈ roots, workspace.graph.HasValue root) :
    let graph := workspace.graph
    let before := observed.lowering
    let outcome := Observed.lowerValues graph roots observed
    let after := outcome.2.lowering
    Lowering.lowerValues graph roots before = (outcome.1, after) ∧
      ((∃ handles, outcome.1 = .ok handles ∧
          List.Forall₂ (fun root handle => after.emission.handle? root = some handle)
            roots handles ∧
          ∀ id, after.isLowered id = true ↔ before.isLowered id = true ∨ graph.Reached roots id) ∨
        ∃ calls failed, outcome.1 = .error failed.report ∧
          outcome.2.invocations = observed.invocations ++ calls ++ [failed] ∧
          (∀ call ∈ calls, call.Completed ∧ call.node < failed.node) ∧
          ¬ failed.Completed ∧
          (∃ entry, graph.entryAt? failed.node = some entry ∧
            failed.outputs = entry.node.outputs) ∧
          graph.Reached roots failed.node ∧ before.isLowered failed.node = false ∧
          ∀ id, after.isLowered id = true ↔
            before.isLowered id = true ∨ graph.Reached roots id ∧ id < failed.node) ∧
      (∀ operand user, outcome.1 ≠ .error (.failure (.operandNotLowered operand user))) ∧
      ∀ value, outcome.1 ≠ .error (.failure (.valueNotLowered value)) := by
  intro graph before outcome after
  have hordered := hworkspace.wellFormed.ordered
  have hknown := fun root hroot => (hroots root hroot).node_lt
  refine ⟨forgets_lowerValues graph roots observed, ?_⟩
  have hrun := lowerValues_passes_or_fails hordered houtputs hreachable hroots
  rcases hrun with ⟨handles, calls, later, hrun, hhandles, hpasses⟩ |
    ⟨done, rest, calls, middle, failed, later, hrun, hsplit, hpasses, hfails⟩
  · have houtcome : outcome = (.ok handles, later) := hrun
    simp only [after, houtcome]
    refine ⟨Or.inl ⟨handles, rfl, hhandles, fun id => ?_⟩, by simp, by simp⟩
    rw [Lowering.isLowered_iff, Lowering.isLowered_iff, hpasses.lowered,
      Graph.mem_postOrder_iff_reached hordered hknown]
  · have houtcome : outcome = (.error failed.report, later) := hrun
    have hreached := Graph.mem_postOrder_iff_reached hordered hknown
    -- what passed is what stands in front of the failed node in the order of construction
    have hdone : ∀ id, id ∈ done ↔ graph.Reached roots id ∧ id < failed.node := by
      intro id
      rw [mem_front_iff (hsplit ▸ Graph.postOrder_sorted roots), ← hsplit, hreached]
    simp only [after, houtcome]
    obtain ⟨hoperand, hvalue⟩ := failed.report_ne_notLowered
    refine ⟨Or.inr ⟨calls, failed, rfl, ?_, ?_, hfails.incomplete, hfails.known, ?_, ?_, ?_⟩,
      fun operand user heq => hoperand operand user (Except.error.inj heq),
      fun value heq => hvalue value (Except.error.inj heq)⟩
    · rw [hfails.invocations, hpasses.invocations]
    · intro call hcall
      obtain ⟨hcompleted, hmem⟩ := hpasses.completed call hcall
      exact ⟨hcompleted, ((hdone _).mp hmem).2⟩
    · rw [← hreached, hsplit]
      exact List.mem_append_right _ List.mem_cons_self
    · rw [← Bool.not_eq_true, Lowering.isLowered_iff]
      exact fun hbefore => hfails.fresh ((hpasses.lowered _).mpr (Or.inl hbefore))
    · intro id
      rw [Lowering.isLowered_iff, Lowering.isLowered_iff, hfails.lowered, hpasses.lowered, hdone]

/-- A node that returns one handle for two outputs stops the lowering after the token below it and
before the other root. -/
theorem lowerValues_stops_at_failure_pair :
    let pair : Request :=
      { kind := ⟨"test", "pair"⟩
        operands := [⟨0, 0⟩]
        outputs := 2
        seed := .seed
        source := .given (.tuple [.token, .token])
        operation := .custom (some (Recipe.lower { tokens := 1 })) }
    let first := (BuiltInNode.token.build { cache := ⟨1, []⟩ }).2
    let workspace := (BuiltInNode.token.build (pair.construct first).2).2
    let roots : List Value := [⟨2, 0⟩, ⟨1, 1⟩]
    let outcome := Observed.lowerValues workspace.graph roots {}
    (Lowering.lowerValues workspace.graph roots {}).1 = .error (.failure (.handleCount 1 1)) ∧
      outcome.2.lowering.lowered = [0] ∧
      ∃ calls failed, outcome.1 = .error failed.report ∧
        outcome.2.invocations = calls ++ [failed] ∧
        (∀ call ∈ calls, call.Completed ∧ call.node < failed.node) ∧
        workspace.graph.Reached roots failed.node ∧ ¬ failed.Completed := by
  intro pair first workspace roots outcome
  have hworkspace : workspace.Constructed :=
    ⟨_, .tail (.tail (.single (.build _ .token)) (.construct _ pair)) (.build _ .token)⟩
  have houtputs : workspace.graph.ReadsOutputs := by decide +kernel
  have hobeys : workspace.graph.Obeys EmitM.Returns := by
    refine Graph.obeys_of_forall fun entry hentry id => ?_
    rcases List.mem_cons.mp (Array.mem_toList_iff.mpr hentry) with rfl | hentry
    · exact (Operation.registers_of_form rfl id _).returns
    rcases List.mem_cons.mp hentry with rfl | hentry
    · exact (Operation.registers_recipe rfl id _).returns
    obtain rfl := List.mem_singleton.mp hentry
    exact (Operation.registers_of_form rfl id _).returns
  have hroots : ∀ root ∈ roots, workspace.graph.HasValue root := by
    intro root hroot
    rcases List.mem_cons.mp hroot with rfl | hroot
    · exact ⟨_, rfl, by decide⟩
    · obtain rfl := List.mem_singleton.mp hroot
      exact ⟨_, rfl, by decide⟩
  have herror : outcome.1 = .error (.failure (.handleCount 1 1)) := rfl
  have hlowered : outcome.2.lowering.lowered = [0] := by decide +kernel
  have hreachable : Reachable EmitM.Returns { graph := workspace.graph } := .start hobeys
  obtain ⟨hforgets, hcases, _⟩ := lowerValues_stops_at_failure hworkspace houtputs hreachable hroots
  rcases hcases with ⟨handles, hok, _⟩ |
    ⟨calls, failed, hreport, hinvocations, hcalls, hincomplete, _, hreached, _⟩
  · cases hok.symm.trans herror
  · have hanswer : (Lowering.lowerValues workspace.graph roots {}).1 = outcome.1 := by
      rw [hforgets]
    refine ⟨hanswer.trans herror, hlowered, calls, failed, hreport, ?_, hcalls, hreached,
      hincomplete⟩
    rw [hinvocations]
    rfl

end Session

end TensorGraph
