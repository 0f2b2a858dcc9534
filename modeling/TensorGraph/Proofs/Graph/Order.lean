import TensorGraph.Graph.Descent

/-! # Earlier nodes and later graphs

A node only reads outputs of nodes constructed before it. A graph that goes on
growing keeps its nodes, so everything that was read stays what it was.
-/

namespace TensorGraph.Graph

variable {Metadata : Type}

/-- The value is an output of a node of the graph. -/
def HasValue (graph : Graph Metadata) (value : Value) : Prop :=
  ∃ entry, graph.entryAt? value.node = some entry ∧ value.index < entry.node.outputs

/-- Every node reads earlier nodes only. -/
def Ordered (graph : Graph Metadata) : Prop :=
  ∀ id entry, graph.entryAt? id = some entry → ∀ operand ∈ entry.node.operands, operand.node < id

/-- Every operand is an output of its node. Constructing a node does not check this: it is up to
those who make the operands. -/
def ReadsOutputs (graph : Graph Metadata) : Prop :=
  ∀ id entry, graph.entryAt? id = some entry →
    ∀ operand ∈ entry.node.operands, graph.HasValue operand

/-- The later graph has the nodes of the earlier one with their operations. Annotations may have
changed. -/
def Extends (later earlier : Graph Metadata) : Prop :=
  ∀ id entry, earlier.entryAt? id = some entry →
    ∃ annotations, later.entryAt? id = some { entry with annotations }

theorem entryAt?_lt {graph : Graph Metadata} {id : NodeId} {entry : Entry Metadata}
    (hentry : graph.entryAt? id = some entry) : id < graph.size := by
  refine Nat.lt_of_not_le fun hge => ?_
  rw [(graph.entryAt?_eq_none_iff id).mpr hge] at hentry
  cases hentry

theorem exists_entryAt? {graph : Graph Metadata} {id : NodeId} (hlt : id < graph.size) :
    ∃ entry, graph.entryAt? id = some entry := by
  cases hentry : graph.entryAt? id with
  | none => exact absurd hlt (Nat.not_lt.mpr ((graph.entryAt?_eq_none_iff id).mp hentry))
  | some entry => exact ⟨entry, rfl⟩

/-- Appending a node leaves the others as they are. -/
theorem entryAt?_push_of_some {graph : Graph Metadata} {id : NodeId} {found : Entry Metadata}
    (hfound : graph.entryAt? id = some found) (entry : Entry Metadata) :
    (graph.push entry).entryAt? id = some found := by
  rw [entryAt?_push, if_neg (Nat.ne_of_lt (entryAt?_lt hfound)), hfound]

theorem HasValue.node_lt {graph : Graph Metadata} {value : Value} (hvalue : graph.HasValue value) :
    value.node < graph.size := by
  obtain ⟨entry, hentry, _⟩ := hvalue
  exact entryAt?_lt hentry

theorem HasValue.index_lt {graph : Graph Metadata} {value : Value} {entry : Entry Metadata}
    (hvalue : graph.HasValue value) (hentry : graph.entryAt? value.node = some entry) :
    value.index < entry.node.outputs := by
  obtain ⟨found, hfound, hindex⟩ := hvalue
  obtain rfl : found = entry := Option.some.inj (hfound.symm.trans hentry)
  exact hindex

instance (graph : Graph Metadata) (value : Value) : Decidable (graph.HasValue value) :=
  match hentry : graph.entryAt? value.node with
  | none => .isFalse fun ⟨_, hfound, _⟩ => nomatch hentry.symm.trans hfound
  | some entry =>
    if hindex : value.index < entry.node.outputs then .isTrue ⟨entry, hentry, hindex⟩
    else .isFalse fun hvalue => hindex (hvalue.index_lt hentry)

/-- Annotating leaves every node with its operation. -/
theorem entryAt?_of_annotate {graph : Graph Metadata} {id other : NodeId}
    {change : Annotations Metadata → Annotations Metadata} {found : Entry Metadata}
    (hfound : (graph.annotate id change).entryAt? other = some found) :
    ∃ annotations, graph.entryAt? other = some { found with annotations } := by
  rw [entryAt?_annotate] at hfound
  split at hfound
  · obtain ⟨entry, hentry, rfl⟩ := Option.map_eq_some_iff.mp hfound
    exact ⟨entry.annotations, hentry⟩
  · exact ⟨found.annotations, hfound⟩

theorem entryAt_eq_ok_iff (graph : Graph Metadata) (id : NodeId) (entry : Entry Metadata) :
    graph.entryAt id = .ok entry ↔ graph.entryAt? id = some entry := by
  rw [entryAt]
  cases graph.entryAt? id <;> simp

/-- Exactly the outputs of the graph are accepted as values. -/
theorem value_eq_ok_iff (graph : Graph Metadata) (id : NodeId) (index : Nat) (found : Value) :
    graph.value id index = .ok found ↔ found = ⟨id, index⟩ ∧ graph.HasValue found := by
  rw [value, entryAt]
  cases hentry : graph.entryAt? id with
  | none =>
      simp only [bind, Except.bind, reduceCtorEq, false_iff]
      rintro ⟨rfl, entry, hfound, _⟩
      cases hentry.symm.trans hfound
  | some entry =>
      simp only [bind, Except.bind]
      split
      next hindex =>
        refine ⟨fun hok => ?_, fun hfound => congrArg Except.ok hfound.1.symm⟩
        obtain rfl := Except.ok.inj hok
        exact ⟨rfl, entry, hentry, hindex⟩
      next hindex =>
        constructor
        · intro hok
          cases hok
        · rintro ⟨rfl, hvalue⟩
          exact absurd (hvalue.index_lt hentry) hindex

namespace Extends

theorem refl (graph : Graph Metadata) : graph.Extends graph :=
  fun _ entry hentry => ⟨entry.annotations, hentry⟩

theorem trans {first second third : Graph Metadata} (hlater : third.Extends second)
    (hearlier : second.Extends first) : third.Extends first := by
  intro id entry hentry
  obtain ⟨annotations, hsecond⟩ := hearlier id entry hentry
  obtain ⟨annotations', hthird⟩ := hlater id _ hsecond
  exact ⟨annotations', hthird⟩

theorem push (graph : Graph Metadata) (entry : Entry Metadata) : (graph.push entry).Extends graph :=
  fun _ found hfound => ⟨found.annotations, entryAt?_push_of_some hfound entry⟩

theorem annotate (graph : Graph Metadata) (id : NodeId)
    (change : Annotations Metadata → Annotations Metadata) :
    (graph.annotate id change).Extends graph := by
  intro other entry hentry
  rw [entryAt?_annotate, hentry]
  by_cases heq : id = other
  · exact ⟨change entry.annotations, by simp [heq]⟩
  · exact ⟨entry.annotations, by simp [heq]⟩

theorem hasValue {later earlier : Graph Metadata} (hextends : later.Extends earlier)
    {value : Value} (hvalue : earlier.HasValue value) : later.HasValue value := by
  obtain ⟨entry, hentry, hindex⟩ := hvalue
  obtain ⟨annotations, hlater⟩ := hextends _ _ hentry
  exact ⟨_, hlater, hindex⟩

end Extends

instance (graph : Graph Metadata) : Decidable graph.ReadsOutputs :=
  decidable_of_iff (∀ entry ∈ graph.entries.toList, ∀ operand ∈ entry.node.operands,
      graph.HasValue operand) <| by
    constructor
    · intro hentries id entry hentry
      exact hentries entry (Array.mem_toList_iff.mpr (Array.mem_of_getElem? hentry))
    · intro hgraph entry hmem
      obtain ⟨id, hentry⟩ := Array.getElem?_of_mem (Array.mem_toList_iff.mp hmem)
      exact hgraph id entry hentry

namespace ReadsOutputs

variable {graph : Graph Metadata}

theorem empty : ReadsOutputs ({} : Graph Metadata) := by
  intro id entry hentry
  simp [entryAt?] at hentry

theorem push (hgraph : graph.ReadsOutputs) {entry : Entry Metadata}
    (hoperands : ∀ operand ∈ entry.node.operands, graph.HasValue operand) :
    (graph.push entry).ReadsOutputs := by
  intro id found hfound operand hmem
  have hextends := Extends.push graph entry
  rw [entryAt?_push] at hfound
  split at hfound
  next =>
    obtain rfl := Option.some.inj hfound
    exact hextends.hasValue (hoperands operand hmem)
  next => exact hextends.hasValue (hgraph id found hfound operand hmem)

theorem annotate (hgraph : graph.ReadsOutputs) (id : NodeId)
    (change : Annotations Metadata → Annotations Metadata) :
    (graph.annotate id change).ReadsOutputs := by
  intro other found hfound operand hmem
  obtain ⟨annotations, hentry⟩ := entryAt?_of_annotate hfound
  exact (Extends.annotate graph id change).hasValue (hgraph other _ hentry operand hmem)

end ReadsOutputs

end TensorGraph.Graph
