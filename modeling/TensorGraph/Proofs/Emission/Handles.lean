import TensorGraph.Emission
import Mathlib.Data.List.Forall2

/-! # Recorded handles

Recording handles as the outputs of a node changes what is known of these outputs
and of nothing else. A node with a handle for each output can be asked for them
again.
-/

namespace TensorGraph.Emission

theorem handle?_assignFrom_of_node_ne (emission : Emission) {node : NodeId} {value : Value}
    (hnode : value.node ≠ node) (index : Nat) (handles : List Handle) :
    (emission.assignFrom node index handles).handle? value = emission.handle? value := by
  induction handles generalizing emission index with
  | nil => rfl
  | cons handle handles ih =>
      rw [assignFrom, ih]
      exact handle?_assign_of_ne emission handle fun heq => hnode (congrArg Value.node heq)

theorem handle?_assignFrom_of_index_lt (emission : Emission) {node : NodeId} {value : Value}
    {index : Nat} (hindex : value.index < index) (handles : List Handle) :
    (emission.assignFrom node index handles).handle? value = emission.handle? value := by
  induction handles generalizing emission index with
  | nil => rfl
  | cons handle handles ih =>
      rw [assignFrom, ih _ (Nat.lt_succ_of_lt hindex)]
      refine handle?_assign_of_ne emission handle fun heq => ?_
      rw [heq] at hindex
      exact Nat.lt_irrefl _ hindex

/-- The recorded handles stand in the order of the outputs; later outputs keep what they had. -/
theorem handle?_assignFrom_self (emission : Emission) (node : NodeId) (index offset : Nat)
    (handles : List Handle) :
    (emission.assignFrom node index handles).handle? ⟨node, index + offset⟩ =
      handles[offset]?.or (emission.handle? ⟨node, index + offset⟩) := by
  induction handles generalizing emission index offset with
  | nil => simp [assignFrom]
  | cons handle handles ih =>
      rw [assignFrom]
      cases offset with
      | zero =>
          rw [handle?_assignFrom_of_index_lt _ (by simp)]
          simp
      | succ offset =>
          have hshift : index + (offset + 1) = index + 1 + offset := by omega
          rw [hshift, ih, handle?_assign_of_ne]
          · simp
          · simp only [ne_eq, Value.mk.injEq, not_and]
            omega

/-- An output has a handle if it had one or is among those recorded. -/
theorem exists_handle?_assignFrom (emission : Emission) (node : NodeId) (handles : List Handle)
    (value : Value) :
    (∃ handle, (emission.assignFrom node 0 handles).handle? value = some handle) ↔
      node = value.node ∧ value.index < handles.length ∨
        ∃ handle, emission.handle? value = some handle := by
  obtain ⟨producer, index⟩ := value
  by_cases hnode : producer = node
  · subst hnode
    have hself := handle?_assignFrom_self emission producer 0 index handles
    rw [Nat.zero_add] at hself
    rw [hself]
    by_cases hindex : index < handles.length
    · simp [hindex]
    · rw [List.getElem?_eq_none (Nat.le_of_not_lt hindex)]
      simp [hindex]
  · rw [handle?_assignFrom_of_node_ne emission hnode]
    simp [Ne.symm hnode]

/-- What is recorded depends on the earlier records only. -/
theorem handle?_assignFrom_congr {left right : Emission}
    (hsame : ∀ value, left.handle? value = right.handle? value) (node : NodeId) (index : Nat)
    (handles : List Handle) (value : Value) :
    (left.assignFrom node index handles).handle? value =
      (right.assignFrom node index handles).handle? value := by
  induction handles generalizing left right index with
  | nil => exact hsame value
  | cons handle handles ih =>
      refine ih (fun other => ?_) (index + 1)
      by_cases heq : other = ⟨node, index⟩
      · subst heq
        rw [handle?_assign_self, handle?_assign_self]
      · rw [handle?_assign_of_ne _ handle heq, handle?_assign_of_ne _ handle heq]
        exact hsame other

theorem trace_assignFrom (emission : Emission) (node : NodeId) (index : Nat)
    (handles : List Handle) : (emission.assignFrom node index handles).trace = emission.trace := by
  induction handles generalizing emission index with
  | nil => rfl
  | cons handle handles ih => rw [assignFrom, ih, trace_assign]

/-- These are the handles recorded for the outputs of the node, in their order. -/
def Records (emission : Emission) (id : NodeId) (outputs : Nat) (handles : List Handle) : Prop :=
  List.Forall₂ (fun index handle => emission.handle? ⟨id, index⟩ = some handle)
    (List.range outputs) handles

theorem records_iff (emission : Emission) (id : NodeId) (outputs : Nat) (handles : List Handle) :
    emission.Records id outputs handles ↔
      handles.length = outputs ∧ ∀ index handle, handles[index]? = some handle →
        emission.handle? ⟨id, index⟩ = some handle := by
  rw [Records, List.forall₂_iff_get]
  simp only [List.length_range, List.get_eq_getElem, List.getElem_range]
  constructor
  · rintro ⟨hlength, hall⟩
    refine ⟨hlength.symm, fun index handle hhandle => ?_⟩
    obtain ⟨hindex, rfl⟩ := List.getElem?_eq_some_iff.mp hhandle
    exact hall index (hlength ▸ hindex) hindex
  · rintro ⟨hlength, hall⟩
    exact ⟨hlength.symm, fun index _ hindex => hall index _ (List.getElem?_eq_getElem hindex)⟩

theorem Records.handle?_eq {emission : Emission} {id : NodeId} {outputs : Nat}
    {handles : List Handle} (hrecords : emission.Records id outputs handles) {index : Nat}
    (hindex : index < outputs) : emission.handle? ⟨id, index⟩ = handles[index]? := by
  obtain ⟨rfl, hall⟩ := (emission.records_iff id outputs handles).mp hrecords
  rw [List.getElem?_eq_getElem hindex]
  exact hall index _ (List.getElem?_eq_getElem hindex)

/-- Recording one handle per output makes them the recorded handles. -/
theorem records_assignFrom (emission : Emission) (id : NodeId) (handles : List Handle) :
    (emission.assignFrom id 0 handles).Records id handles.length handles := by
  refine (records_iff _ _ _ _).mpr ⟨rfl, fun index handle hhandle => ?_⟩
  have hself := handle?_assignFrom_self emission id 0 index handles
  rw [Nat.zero_add, hhandle] at hself
  exact hself

end TensorGraph.Emission
