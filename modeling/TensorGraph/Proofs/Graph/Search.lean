import TensorGraph.Proofs.Graph.PostOrder
import TensorGraph.Proofs.ListRelations
import Mathlib.Data.List.Sort

/-! # A search with a stack visits the same nodes

The stack of a depth-first search may hold a node several times, and a node may
be pushed long before it is visited. Neither matters: whatever a visited node
reads is visited or on the stack, so what is visited or still to be found below
the stack never changes. Sorted by identifier, the visited nodes are the
post-order.
-/

namespace TensorGraph.Graph

open Relation

variable {Metadata : Type}

/-- The nodes that have not been visited. -/
def unvisited (graph : Graph Metadata) (visited : List NodeId) : List NodeId :=
  (List.range graph.size).filter (· ∉ visited)

/-- The nodes to push when a node is visited, of which the last operand comes out on top. -/
def operandsToVisit (graph : Graph Metadata) (visited : List NodeId) (id : NodeId) : List NodeId :=
  (((graph.operandsOf id).map Value.node).filter (· ∉ visited)).reverse

section Measure

variable (graph : Graph Metadata) (visited : List NodeId) (id : NodeId)

theorem unvisited_cons :
    graph.unvisited (id :: visited) = (graph.unvisited visited).filter (· ≠ id) := by
  simp [unvisited, List.filter_filter]

theorem length_unvisited_cons_le :
    (graph.unvisited (id :: visited)).length ≤ (graph.unvisited visited).length := by
  rw [unvisited_cons]
  exact List.length_filter_le _ _

variable {graph visited id}

theorem length_unvisited_cons_lt (hlt : id < graph.size) (hid : id ∉ visited) :
    (graph.unvisited (id :: visited)).length < (graph.unvisited visited).length := by
  rw [unvisited_cons, List.length_filter_lt_length_iff_exists]
  exact ⟨id, by simp [unvisited, hlt, hid], by simp⟩

theorem operandsOf_of_le (hle : graph.size ≤ id) : graph.operandsOf id = [] := by
  rw [operandsOf, (graph.entryAt?_eq_none_iff id).mpr hle]

/-- A visit leaves fewer nodes unvisited, or pushes nothing. -/
theorem visit_decreases (hid : id ∉ visited) (rest : List NodeId) :
    Prod.Lex (· < ·) (· < ·)
      ((graph.unvisited (id :: visited)).length,
        (graph.operandsToVisit (id :: visited) id ++ rest).length)
      ((graph.unvisited visited).length, (id :: rest).length) := by
  by_cases hlt : id < graph.size
  · exact .left _ _ (length_unvisited_cons_lt hlt hid)
  · -- a number that no node has is visited too, but it has no operands to push
    have hle := Nat.le_of_not_lt hlt
    apply Prod.Lex.right'
    · exact length_unvisited_cons_le graph visited id
    · simp [operandsToVisit, operandsOf_of_le hle]

end Measure

/-- Visits the nodes on the stack and what they read, depth first. The visited nodes are collected
with the latest in front. -/
def search (graph : Graph Metadata) (stack visited : List NodeId) : List NodeId :=
  match stack with
  | [] => visited
  | id :: rest =>
    if id ∈ visited then graph.search rest visited
    else graph.search (graph.operandsToVisit (id :: visited) id ++ rest) (id :: visited)
termination_by ((graph.unvisited visited).length, stack.length)
decreasing_by
  · exact .right _ (Nat.lt_succ_self _)
  · exact visit_decreases ‹_› rest

/-- The visited nodes in the order of their identifiers. -/
def searchOrder (graph : Graph Metadata) (roots : List Value) : List NodeId :=
  (graph.search (roots.map Value.node).reverse []).mergeSort

/-- The node has been visited or is below the stack. -/
def Covers (graph : Graph Metadata) (stack visited : List NodeId) (id : NodeId) : Prop :=
  id ∈ visited ∨ ∃ start ∈ stack, ReflTransGen graph.Reads start id

/-- What a visited node reads has been visited or is on the stack. -/
def Closed (graph : Graph Metadata) (stack visited : List NodeId) : Prop :=
  ∀ user ∈ visited, ∀ operand, graph.Reads user operand → operand ∈ visited ∨ operand ∈ stack

section Invariant

variable {graph : Graph Metadata} {stack rest visited : List NodeId} {id : NodeId}

theorem mem_operandsToVisit (operand : NodeId) :
    operand ∈ graph.operandsToVisit visited id ↔ graph.Reads id operand ∧ operand ∉ visited := by
  simp [operandsToVisit, Reads]

/-- Nothing below a visited node gets lost. -/
theorem Closed.covers (hclosed : graph.Closed stack visited) {user : NodeId}
    (hvisited : user ∈ visited) (hreaches : ReflTransGen graph.Reads user id) :
    graph.Covers stack visited id := by
  induction hreaches with
  | refl => exact Or.inl hvisited
  | @tail middle operand _ hreads ih =>
      rcases ih with hmiddle | ⟨start, hstart, hpath⟩
      · apply (hclosed middle hmiddle operand hreads).imp_right
        exact fun hoperand => ⟨operand, hoperand, .refl⟩
      · exact Or.inr ⟨start, hstart, hpath.tail hreads⟩

namespace Closed

theorem empty (stack : List NodeId) : graph.Closed stack [] := by
  intro user huser
  cases huser

/-- A node that comes up again is dropped. -/
theorem skip (hclosed : graph.Closed (id :: rest) visited) (hid : id ∈ visited) :
    graph.Closed rest visited := by
  intro user huser operand hreads
  rcases hclosed user huser operand hreads with hoperand | hoperand
  · exact Or.inl hoperand
  · rcases List.mem_cons.mp hoperand with rfl | hoperand
    · exact Or.inl hid
    · exact Or.inr hoperand

theorem visit (hclosed : graph.Closed (id :: rest) visited) :
    graph.Closed (graph.operandsToVisit (id :: visited) id ++ rest) (id :: visited) := by
  intro user huser operand hreads
  by_cases hoperand : operand ∈ id :: visited
  · exact Or.inl hoperand
  · apply Or.inr
    rcases List.mem_cons.mp huser with rfl | huser
    · exact List.mem_append_left _ ((mem_operandsToVisit operand).mpr ⟨hreads, hoperand⟩)
    · rcases hclosed user huser operand hreads with hvisited | hstack
      · exact absurd (List.mem_cons_of_mem id hvisited) hoperand
      · rcases List.mem_cons.mp hstack with rfl | hrest
        · exact absurd List.mem_cons_self hoperand
        · exact List.mem_append_right _ hrest

/-- Dropping a node that has been visited before loses nothing. -/
theorem covers_skip (hclosed : graph.Closed (id :: rest) visited) (hid : id ∈ visited)
    (found : NodeId) :
    graph.Covers rest visited found ↔ graph.Covers (id :: rest) visited found := by
  constructor
  · apply Or.imp_right
    rintro ⟨start, hstart, hreaches⟩
    exact ⟨start, List.mem_cons_of_mem _ hstart, hreaches⟩
  · rintro (hvisited | ⟨start, hstart, hreaches⟩)
    · exact Or.inl hvisited
    · rcases List.mem_cons.mp hstart with rfl | hstart
      · exact (hclosed.skip hid).covers hid hreaches
      · exact Or.inr ⟨start, hstart, hreaches⟩

/-- A visit puts the operands of the node in its place. -/
theorem covers_visit (hclosed : graph.Closed (id :: rest) visited) (found : NodeId) :
    graph.Covers (graph.operandsToVisit (id :: visited) id ++ rest) (id :: visited) found ↔
      graph.Covers (id :: rest) visited found := by
  constructor
  · rintro (hvisited | ⟨start, hstart, hreaches⟩)
    · rcases List.mem_cons.mp hvisited with rfl | hvisited
      · exact Or.inr ⟨found, List.mem_cons_self, .refl⟩
      · exact Or.inl hvisited
    · rcases List.mem_append.mp hstart with hoperand | hrest
      · have hreads := ((mem_operandsToVisit start).mp hoperand).1
        exact Or.inr ⟨id, List.mem_cons_self, .head hreads hreaches⟩
      · exact Or.inr ⟨start, List.mem_cons_of_mem _ hrest, hreaches⟩
  · rintro (hvisited | ⟨start, hstart, hreaches⟩)
    · exact Or.inl (List.mem_cons_of_mem _ hvisited)
    · rcases List.mem_cons.mp hstart with rfl | hrest
      · exact hclosed.visit.covers List.mem_cons_self hreaches
      · exact Or.inr ⟨start, List.mem_append_right _ hrest, hreaches⟩

/-- The search ends with exactly what was covered when it started. -/
theorem mem_search (hclosed : graph.Closed stack visited) (found : NodeId) :
    found ∈ graph.search stack visited ↔ graph.Covers stack visited found := by
  fun_induction search graph stack visited with
  | case1 visited => simp [Covers]
  | case2 visited id rest hid ih => rw [ih (hclosed.skip hid), hclosed.covers_skip hid]
  | case3 visited id rest hid ih => rw [ih hclosed.visit, hclosed.covers_visit]

end Closed

/-- No node is visited twice. -/
theorem nodup_search (hvisited : visited.Nodup) : (graph.search stack visited).Nodup := by
  fun_induction search graph stack visited with
  | case1 visited => exact hvisited
  | case2 visited id rest hid ih => exact ih hvisited
  | case3 visited id rest hid ih => exact ih (List.nodup_cons.mpr ⟨hid, hvisited⟩)

end Invariant

variable {graph : Graph Metadata}

theorem mem_searchOrder (roots : List Value) (id : NodeId) :
    id ∈ graph.searchOrder roots ↔ graph.Reached roots id := by
  rw [searchOrder, List.mem_mergeSort, (Closed.empty _).mem_search]
  simp [Covers, Reached]

theorem searchOrder_sorted (roots : List Value) :
    (graph.searchOrder roots).Pairwise (· < ·) := by
  have hnodup : (graph.searchOrder roots).Nodup :=
    (List.mergeSort_perm _ _).nodup_iff.mpr (nodup_search List.nodup_nil)
  apply ((List.pairwise_mergeSort' (· ≤ ·) _).and hnodup).imp
  rintro id other ⟨hle, hne⟩
  exact Nat.lt_of_le_of_ne hle hne

/-- In the order of identifiers, the search visits the post-order. -/
theorem searchOrder_eq_postOrder (hordered : graph.Ordered) {roots : List Value}
    (hroots : ∀ root ∈ roots, root.node < graph.size) :
    graph.searchOrder roots = graph.postOrder roots := by
  apply (searchOrder_sorted roots).eq_of_mem_iff (postOrder_sorted roots)
  intro id
  rw [mem_searchOrder, mem_postOrder_iff_reached hordered hroots]

/-- What a node reads stands in front of it. -/
theorem operand_mem_front (hordered : graph.Ordered) {roots : List Value}
    {front rest : List NodeId} {user operand : NodeId}
    (horder : graph.postOrder roots = front ++ user :: rest) (hreads : graph.Reads user operand) :
    operand ∈ front := by
  have hsorted : (graph.postOrder roots).Pairwise (· < ·) := postOrder_sorted roots
  have huser : user ∈ graph.postOrder roots := by simp [horder]
  have hoperand := operand_mem_postOrder hordered huser hreads
  rw [horder] at hsorted hoperand
  exact (ListRelations.mem_front_iff hsorted operand).mpr ⟨hoperand, hordered.reads_lt hreads⟩

end TensorGraph.Graph
