import TensorGraph.Proofs.Graph.Order
import Mathlib.Data.List.Forall2
import Mathlib.Logic.Relation

/-! # The sweep visits what is reachable, in order

A sweep that starts above all pending nodes collects exactly the nodes that are
reached from them through admitted operands, in increasing order. The order
matters to lowering: a node comes after everything it reads.
-/

namespace TensorGraph.Graph

open Relation

variable {Metadata : Type}

/-- One node reads an output of another. -/
def Reads (graph : Graph Metadata) (user operand : NodeId) : Prop :=
  operand ∈ (graph.operandsOf user).map Value.node

theorem operandsOf_eq {graph : Graph Metadata} {id : NodeId} {entry : Entry Metadata}
    (hentry : graph.entryAt? id = some entry) : graph.operandsOf id = entry.node.operands := by
  rw [operandsOf, hentry]

theorem Reads.of_mem {graph : Graph Metadata} {id : NodeId} {entry : Entry Metadata}
    {operand : Value} (hentry : graph.entryAt? id = some entry)
    (hmem : operand ∈ entry.node.operands) : graph.Reads id operand.node := by
  rw [Reads, operandsOf_eq hentry]
  exact List.mem_map_of_mem hmem

theorem Ordered.reads_lt {graph : Graph Metadata} (hordered : graph.Ordered) {user operand : NodeId}
    (hreads : graph.Reads user operand) : operand < user := by
  obtain ⟨value, hvalue, rfl⟩ := List.mem_map.mp hreads
  rw [operandsOf] at hvalue
  split at hvalue
  next entry hentry => exact hordered user entry hentry value hvalue
  next => simp at hvalue

theorem Ordered.reaches_le {graph : Graph Metadata} (hordered : graph.Ordered)
    {user operand : NodeId} (hreaches : ReflTransGen graph.Reads user operand) :
    operand ≤ user := by
  induction hreaches with
  | refl => exact Nat.le_refl _
  | tail _ hstep ih => exact Nat.le_trans (Nat.le_of_lt (hordered.reads_lt hstep)) ih

section Sweep

variable {graph : Graph Metadata} {enters : NodeId → Bool}

/-- The steps that a sweep follows from a collected node. -/
def Enters (graph : Graph Metadata) (enters : NodeId → Bool) (user operand : NodeId) : Prop :=
  graph.Reads user operand ∧ enters operand = true

/-- The sweep collects what is reached from the pending nodes below its bound. The induction is on
the bound: a node at the bound is reached only if it is pending itself. -/
theorem mem_sweep (hordered : graph.Ordered) (bound : Nat) (pending found : List NodeId)
    (id : NodeId) :
    id ∈ graph.sweep enters bound pending found ↔
      id ∈ found ∨ ∃ start ∈ pending, start < bound ∧
        ReflTransGen (graph.Enters enters) start id := by
  induction bound generalizing pending found with
  | zero => simp [sweep]
  | succ top ih =>
      unfold sweep
      split
      next hpending =>
        -- the top is collected, and its operands are pending in its place
        have htop : top ∈ pending := List.contains_iff_mem.mp hpending
        rw [ih, List.mem_cons]
        constructor
        · rintro ((rfl | hfound) | ⟨start, hstart, hlt, hreach⟩)
          · exact Or.inr ⟨id, htop, Nat.lt_succ_self id, .refl⟩
          · exact Or.inl hfound
          · rcases List.mem_append.mp hstart with hoperand | hkept
            · obtain ⟨hreads, henters⟩ := List.mem_filter.mp hoperand
              exact Or.inr ⟨top, htop, Nat.lt_succ_self top, .head ⟨hreads, henters⟩ hreach⟩
            · exact Or.inr ⟨start, (List.mem_filter.mp hkept).1, Nat.lt_succ_of_lt hlt, hreach⟩
        · rintro (hfound | ⟨start, hstart, hlt, hreach⟩)
          · exact Or.inl (Or.inr hfound)
          · by_cases heq : start = top
            · subst heq
              rcases ReflTransGen.cases_head hreach with rfl | ⟨next, hstep, hrest⟩
              · exact Or.inl (Or.inl rfl)
              · exact Or.inr ⟨next, List.mem_append_left _ (List.mem_filter.mpr hstep),
                  hordered.reads_lt hstep.1, hrest⟩
            · refine Or.inr ⟨start, List.mem_append_right _ ?_,
                Nat.lt_of_le_of_ne (Nat.le_of_lt_succ hlt) heq, hreach⟩
              exact List.mem_filter.mpr ⟨hstart, by simpa using heq⟩
      next hpending =>
        -- nothing pending is at the top, so lowering the bound loses no start
        have htop : top ∉ pending := fun hmem => hpending (List.contains_iff_mem.mpr hmem)
        rw [ih]
        refine or_congr_right (exists_congr fun start => and_congr_right fun hstart => ?_)
        have hne : start ≠ top := fun heq => htop (heq ▸ hstart)
        exact and_congr_left fun _ =>
          ⟨Nat.lt_succ_of_lt, fun hlt => Nat.lt_of_le_of_ne (Nat.le_of_lt_succ hlt) hne⟩

/-- The sweep collects downwards in front of what was found above its bound. -/
theorem sweep_sorted (bound : Nat) (pending found : List NodeId)
    (hsorted : found.Pairwise (· < ·)) (habove : ∀ id ∈ found, bound ≤ id) :
    (graph.sweep enters bound pending found).Pairwise (· < ·) := by
  induction bound generalizing pending found with
  | zero => exact hsorted
  | succ top ih =>
      unfold sweep
      split
      next =>
        refine ih _ _ (List.pairwise_cons.mpr ⟨fun id hid => habove id hid, hsorted⟩) ?_
        intro id hid
        rcases List.mem_cons.mp hid with rfl | hid
        · exact Nat.le_refl _
        · exact Nat.le_of_succ_le (habove id hid)
      next => exact ih _ _ hsorted fun id hid => Nat.le_of_succ_le (habove id hid)

end Sweep

section PostOrder

variable {graph : Graph Metadata}

theorem mem_postOrder (hordered : graph.Ordered) (roots : List Value) (id : NodeId) :
    id ∈ graph.postOrder roots ↔
      ∃ root ∈ roots, root.node < graph.size ∧ ReflTransGen graph.Reads root.node id := by
  have hsteps : graph.Enters (fun _ => true) = graph.Reads := by
    funext user operand
    simp [Enters]
  simp [postOrder, mem_sweep hordered, hsteps]

/-- The node is a root or below one. -/
def Reached (graph : Graph Metadata) (roots : List Value) (id : NodeId) : Prop :=
  ∃ root ∈ roots, ReflTransGen graph.Reads root.node id

/-- Below nodes of the graph the post-order lists exactly what is reached. -/
theorem mem_postOrder_iff_reached (hordered : graph.Ordered) {roots : List Value}
    (hroots : ∀ root ∈ roots, root.node < graph.size) (id : NodeId) :
    id ∈ graph.postOrder roots ↔ graph.Reached roots id := by
  rw [mem_postOrder hordered]
  constructor
  · rintro ⟨root, hroot, _, hreaches⟩
    exact ⟨root, hroot, hreaches⟩
  · rintro ⟨root, hroot, hreaches⟩
    exact ⟨root, hroot, hroots root hroot, hreaches⟩

theorem postOrder_sorted (roots : List Value) : (graph.postOrder roots).Pairwise (· < ·) :=
  sweep_sorted _ _ _ List.Pairwise.nil (by simp)

theorem root_mem_postOrder (hordered : graph.Ordered) {roots : List Value} {root : Value}
    (hroot : root ∈ roots) (hvalue : graph.HasValue root) :
    root.node ∈ graph.postOrder roots :=
  (mem_postOrder hordered roots _).mpr ⟨root, hroot, hvalue.node_lt, .refl⟩

theorem lt_size_of_mem_postOrder (hordered : graph.Ordered) {roots : List Value} {id : NodeId}
    (hmem : id ∈ graph.postOrder roots) : id < graph.size := by
  obtain ⟨root, _, hlt, hreaches⟩ := (mem_postOrder hordered roots id).mp hmem
  exact Nat.lt_of_le_of_lt (hordered.reaches_le hreaches) hlt

/-- What a collected node reads is collected too. -/
theorem operand_mem_postOrder (hordered : graph.Ordered) {roots : List Value}
    {user operand : NodeId} (hmem : user ∈ graph.postOrder roots)
    (hreads : graph.Reads user operand) : operand ∈ graph.postOrder roots := by
  obtain ⟨root, hroot, hlt, hreaches⟩ := (mem_postOrder hordered roots user).mp hmem
  exact (mem_postOrder hordered roots operand).mpr ⟨root, hroot, hlt, hreaches.tail hreads⟩

end PostOrder

namespace Extends

variable {later earlier : Graph Metadata}

theorem size_le (hextends : later.Extends earlier) : earlier.size ≤ later.size := by
  refine Nat.le_of_not_lt fun hlt => ?_
  obtain ⟨entry, hentry⟩ := exists_entryAt? hlt
  obtain ⟨annotations, hlater⟩ := hextends _ entry hentry
  exact Nat.lt_irrefl _ (entryAt?_lt hlater)

theorem reads_iff (hextends : later.Extends earlier) {user : NodeId} (huser : user < earlier.size)
    (operand : NodeId) : later.Reads user operand ↔ earlier.Reads user operand := by
  obtain ⟨entry, hentry⟩ := exists_entryAt? huser
  obtain ⟨annotations, hlater⟩ := hextends user entry hentry
  rw [Reads, Reads, operandsOf_eq hlater, operandsOf_eq hentry]

/-- Growing a graph changes nothing below its nodes. -/
theorem reached_iff (hextends : later.Extends earlier) (hordered : earlier.Ordered)
    {roots : List Value} (hroots : ∀ root ∈ roots, root.node < earlier.size) (id : NodeId) :
    later.Reached roots id ↔ earlier.Reached roots id := by
  refine exists_congr fun root => and_congr_right fun hroot => ?_
  have hsteps : ∀ {user operand}, ReflTransGen earlier.Reads root.node user →
      (later.Reads user operand ↔ earlier.Reads user operand) := fun hreaches =>
    hextends.reads_iff (Nat.lt_of_le_of_lt (hordered.reaches_le hreaches) (hroots root hroot)) _
  constructor
  · intro hreaches
    induction hreaches with
    | refl => exact .refl
    | tail _ hstep ih => exact ih.tail ((hsteps ih).mp hstep)
  · intro hreaches
    induction hreaches with
    | refl => exact .refl
    | tail hreaches hstep ih => exact ih.tail ((hsteps hreaches).mpr hstep)

end Extends

end TensorGraph.Graph
