import TensorGraph.Proofs.Graph.Search
import TensorGraph.Proofs.Workspace.Transparency

/-! # Nodes are numbered in the order of their construction

A call that succeeds takes the next number, one that fails takes none. So numbers
are never used twice and operands have smaller ones than their users, in every
graph that a program can construct. On this rests that sorting by number lists
what is below some roots in a topological order.
-/

namespace TensorGraph

/-- A failed call leaves the graph. A successful one appends a node under the next number, which is
greater than those of its operands. -/
inductive CallRecord.Numbered (record : CallRecord) : Prop
  | failed (fault : Fault) : record.answer = .error fault → record.after = record.before →
      Numbered record
  | made (entry : Entry) : record.answer = .ok record.before.size →
      record.after = record.before.push entry →
      (∀ operand ∈ entry.node.operands, operand.node < record.before.size) → Numbered record

/-- The numbers of the constructed nodes, in the order of the calls. -/
def answeredIds (records : List CallRecord) : List NodeId :=
  records.filterMap fun record => record.answer.toOption

theorem answeredIds_cons (record : CallRecord) (records : List CallRecord) :
    answeredIds (record :: records) = record.answer.toOption.toList ++ answeredIds records := by
  rw [answeredIds, List.filterMap_cons]
  cases record.answer <;> rfl

/-- The numbers used after a call are those used before and the one that it has answered with. -/
theorem CallRecord.Numbered.range_after {record : CallRecord} (hnumbered : record.Numbered) :
    List.range record.before.size ++ record.answer.toOption.toList =
      List.range record.after.size := by
  cases hnumbered with
  | failed fault hanswer hafter =>
      rw [hanswer, hafter]
      exact List.append_nil _
  | made entry hanswer hafter _ =>
      rw [hanswer, hafter, Graph.size_push, List.range_succ]
      rfl

namespace Workspace

theorem numbered_call (call : NodeCall) (workspace : Workspace) :
    CallRecord.Numbered ⟨call, workspace.graph, (call.run workspace).1,
      (call.run workspace).2.graph⟩ := by
  rw [call.run_eq_make]
  cases call.requestIn workspace.graph with
  | error fault =>
      rw [Request.make_error]
      exact .failed fault rfl rfl
  | ok request =>
      rw [Request.make_ok]
      rcases request.construct_cases workspace with
        ⟨fault, cache, hfailed⟩ | ⟨digest, shape, _, cache, hdigest, _, _, _, hmade⟩
      · rw [hfailed]
        exact .failed fault rfl rfl
      · rw [hmade]
        apply CallRecord.Numbered.made _ rfl rfl
        exact Graph.node_lt_of_operandsDigest hdigest

/-- The numbers that a program takes continue those of the graph it starts from. -/
theorem range_run (steps : List BuildStep) (workspace : Workspace) :
    (∀ record ∈ (workspace.run steps).1, record.Numbered) ∧
      List.range workspace.graph.size ++ answeredIds (workspace.run steps).1 =
        List.range (workspace.run steps).2.graph.size := by
  induction steps generalizing workspace with
  | nil => exact ⟨List.forall_mem_nil _, List.append_nil _⟩
  | cons step steps ih =>
      cases step with
      | construct call =>
          have hfirst := numbered_call (call workspace.graph) workspace
          obtain ⟨hrest, hids⟩ := ih ((call workspace.graph).run workspace).2
          rw [run_construct]
          constructor
          · exact List.forall_mem_cons.mpr ⟨hfirst, hrest⟩
          · dsimp only
            rw [answeredIds_cons, ← List.append_assoc, hfirst.range_after]
            exact hids
      | annotate id step =>
          have hlater := ih { workspace with graph := workspace.graph.afterStep id step }
          rw [Graph.size_afterStep] at hlater
          exact hlater
      | clearCache => exact ih workspace.clearCache

/-- After any program, whichever of its calls failed, the nodes have the numbers from zero on in the
order of their construction, each greater than those of its operands. Below any roots the search
with a stack ends with every node that is reached, and sorted by number it is the post-order: each
node is listed once, after all that it reads. -/
theorem postOrder_topological (steps : List BuildStep) (cache : ShapeCache) :
    let outcome := Workspace.run steps { cache }
    let graph := outcome.2.graph
    (∀ record ∈ outcome.1, record.Numbered) ∧
      answeredIds outcome.1 = List.range graph.size ∧
      (∀ user operand, graph.Reads user operand → operand < user) ∧
      ∀ roots : List Value, (∀ root ∈ roots, root.node < graph.size) →
        graph.postOrder roots = graph.searchOrder roots ∧
        (∀ id, id ∈ graph.postOrder roots ↔ graph.Reached roots id) ∧
        (graph.postOrder roots).Nodup ∧
        (graph.postOrder roots).Pairwise (· < ·) ∧
        ∀ front user rest, graph.postOrder roots = front ++ user :: rest →
          ∀ operand, graph.Reads user operand → operand ∈ front := by
  intro outcome graph
  have hordered : graph.Ordered := (constructed_run steps cache).wellFormed.ordered
  obtain ⟨hnumbered, hids⟩ := range_run steps { cache }
  refine ⟨hnumbered, hids, fun user operand => hordered.reads_lt, fun roots hroots => ?_⟩
  have hsorted : (graph.postOrder roots).Pairwise (· < ·) := Graph.postOrder_sorted roots
  refine ⟨(Graph.searchOrder_eq_postOrder hordered hroots).symm,
    Graph.mem_postOrder_iff_reached hordered hroots, hsorted.nodup, hsorted, ?_⟩
  exact fun front user rest horder operand => Graph.operand_mem_front hordered horder

/-- The last two calls of the program fail. A root is given twice, and its operands are shared. -/
theorem postOrder_topological_reduction :
    let outcome := Workspace.run reductionProgram { cache := ⟨1, []⟩ }
    let graph := outcome.2.graph
    let roots : List Value := [⟨4, 0⟩, ⟨2, 1⟩, ⟨4, 1⟩]
    answeredIds outcome.1 = [0, 1, 2, 3, 4, 5, 6] ∧
      (∀ root ∈ roots, root.node < graph.size) ∧ graph.searchOrder roots = [0, 1, 2, 4] ∧
      (∀ id, id ∈ [0, 1, 2, 4] ↔ graph.Reached roots id) := by
  intro outcome graph roots
  have hids : answeredIds outcome.1 = [0, 1, 2, 3, 4, 5, 6] := by decide +kernel
  have hroots : ∀ root ∈ roots, root.node < graph.size := by decide +kernel
  have horder : graph.postOrder roots = [0, 1, 2, 4] := by decide +kernel
  obtain ⟨_, _, _, hpostOrder⟩ := postOrder_topological reductionProgram ⟨1, []⟩
  obtain ⟨hsearch, hreached, _⟩ := hpostOrder roots hroots
  rw [horder] at hsearch hreached
  exact ⟨hids, hroots, hsearch.symm, hreached⟩

end Workspace

end TensorGraph
