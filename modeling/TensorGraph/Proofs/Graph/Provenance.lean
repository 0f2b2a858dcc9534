import TensorGraph.Graph.Descent
import TensorGraph.Proofs.Workspace.Transparency
import TensorGraph.Proofs.Graph.PostOrder

/-! # What attaching a provenance reaches

The descent tests the marks that it sets itself: a shared node that was marked
under one operand is passed over under the next. It still gives the provenance to
exactly the nodes that the graph before the call leads to, since the marks of
every finished operand are closed under steps to bare nodes.
-/

namespace TensorGraph.Graph

open Relation

variable {Metadata : Type} {graph earlier later : Graph Metadata} {provenance : Metadata}
  {given : NodeId → Prop}

/-- A step from a node to an operand without provenance. The reader may have one. -/
def ReadsBare (graph : Graph Metadata) (user operand : NodeId) : Prop :=
  graph.Reads user operand ∧ graph.provenance? operand = none

/-- A path through nodes without provenance, both its ends included. -/
def BarePath (graph : Graph Metadata) (start id : NodeId) : Prop :=
  graph.provenance? start = none ∧ ReflTransGen graph.ReadsBare start id

/-- The node has no provenance and is found from the root through nodes without one. The root
itself may have one. -/
def TakesFrom (graph : Graph Metadata) (root id : NodeId) : Prop :=
  graph.provenance? id = none ∧ ReflTransGen graph.ReadsBare root id

/-- The node is found by a bare path from one of the operands. -/
def BareBelow (graph : Graph Metadata) (operands : List Value) (id : NodeId) : Prop :=
  ∃ operand ∈ operands, graph.BarePath operand.node id

/-- The later graph has given the provenance to exactly the given nodes, which had none, and is the
same in everything else. -/
structure ProvidedFrom (later earlier : Graph Metadata) (provenance : Metadata)
    (given : NodeId → Prop) : Prop where
  entries : ∀ id, later.entryAt? id = (earlier.entryAt? id).map fun entry =>
    { entry with
      annotations := { entry.annotations with provenance? := later.provenance? id } }
  bare : ∀ id, given id → earlier.provenance? id = none
  marked : ∀ id, given id → later.provenance? id = some provenance
  others : ∀ id, ¬ given id → later.provenance? id = earlier.provenance? id

/-- A bare path goes on to every bare operand. -/
theorem BarePath.closed {start user operand : NodeId} (hpath : graph.BarePath start user)
    (hstep : graph.ReadsBare user operand) : graph.BarePath start operand :=
  ⟨hpath.1, hpath.2.tail hstep⟩

theorem BarePath.bare {start id : NodeId} (hpath : graph.BarePath start id) :
    graph.provenance? id = none := by
  rcases ReflTransGen.cases_tail hpath.2 with rfl | ⟨user, _, hstep⟩
  · exact hpath.1
  · exact hstep.2

namespace ProvidedFrom

theorem refl (graph : Graph Metadata) (provenance : Metadata) :
    graph.ProvidedFrom graph provenance fun _ => False where
  entries id := by
    cases hentry : graph.entryAt? id with
    | none => rfl
    | some entry => simp [provenance?, hentry]
  bare _ := False.elim
  marked _ := False.elim
  others _ _ := rfl

theorem congr {given' : NodeId → Prop} (hprovided : later.ProvidedFrom earlier provenance given)
    (hgiven : ∀ id, given id ↔ given' id) : later.ProvidedFrom earlier provenance given' := by
  obtain rfl : given = given' := funext fun id => propext (hgiven id)
  exact hprovided

theorem provenance?_eq_none_iff (hprovided : later.ProvidedFrom earlier provenance given)
    (id : NodeId) : later.provenance? id = none ↔ earlier.provenance? id = none ∧ ¬ given id := by
  by_cases hid : given id
  · simp [hprovided.marked id hid, hid]
  · simp [hprovided.others id hid, hid]

theorem trans {middle : Graph Metadata} {given' : NodeId → Prop}
    (hlater : later.ProvidedFrom middle provenance given')
    (hmiddle : middle.ProvidedFrom earlier provenance given) :
    later.ProvidedFrom earlier provenance fun id => given id ∨ given' id where
  entries id := by
    rw [hlater.entries id, hmiddle.entries id, Option.map_map]
    rfl
  bare id hid := by
    rcases hid with hid | hid
    · exact hmiddle.bare id hid
    · exact ((hmiddle.provenance?_eq_none_iff id).mp (hlater.bare id hid)).1
  marked id hid := by
    by_cases hsecond : given' id
    · exact hlater.marked id hsecond
    · rw [hlater.others id hsecond]
      exact hmiddle.marked id (hid.resolve_right hsecond)
  others id hid := by
    obtain ⟨hfirst, hsecond⟩ := not_or.mp hid
    rw [hlater.others id hsecond, hmiddle.others id hfirst]

/-- Whoever had a provenance keeps it. -/
theorem kept (hprovided : later.ProvidedFrom earlier provenance given) {id : NodeId}
    {own : Metadata} (hown : earlier.provenance? id = some own) :
    later.provenance? id = some own := by
  rw [hprovided.others id, hown]
  intro hid
  rw [hprovided.bare id hid] at hown
  cases hown

theorem operandsOf_eq (hprovided : later.ProvidedFrom earlier provenance given) (id : NodeId) :
    later.operandsOf id = earlier.operandsOf id := by
  rw [operandsOf, operandsOf, hprovided.entries id]
  cases earlier.entryAt? id <;> rfl

theorem size_eq (hprovided : later.ProvidedFrom earlier provenance given) :
    later.size = earlier.size := by
  have hnone : ∀ id, later.size ≤ id ↔ earlier.size ≤ id := fun id => by
    rw [← entryAt?_eq_none_iff, ← entryAt?_eq_none_iff, hprovided.entries id,
      Option.map_eq_none_iff]
  apply Nat.le_antisymm
  · exact (hnone _).mpr (Nat.le_refl _)
  · exact (hnone _).mp (Nat.le_refl _)

theorem ordered (hprovided : later.ProvidedFrom earlier provenance given)
    (hordered : earlier.Ordered) : later.Ordered := by
  intro id entry hentry operand hoperand
  rw [hprovided.entries id, Option.map_eq_some_iff] at hentry
  obtain ⟨found, hfound, rfl⟩ := hentry
  exact hordered id found hfound operand hoperand

theorem readsBare_iff (hprovided : later.ProvidedFrom earlier provenance given)
    (user operand : NodeId) :
    later.ReadsBare user operand ↔ earlier.ReadsBare user operand ∧ ¬ given operand := by
  simp only [ReadsBare, Reads, hprovided.operandsOf_eq, hprovided.provenance?_eq_none_iff,
    and_assoc]

/-- A path that was bare ends in a given node, or still is bare: as soon as it meets a given node,
all that follows has been given too. -/
theorem barePath (hprovided : later.ProvidedFrom earlier provenance given)
    (hclosed : ∀ user operand, given user → earlier.ReadsBare user operand → given operand)
    {start id : NodeId} (hpath : earlier.BarePath start id) :
    given id ∨ later.BarePath start id := by
  obtain ⟨hbare, hreaches⟩ := hpath
  induction hreaches with
  | refl =>
      by_cases hstart : given start
      · exact Or.inl hstart
      · exact Or.inr ⟨(hprovided.provenance?_eq_none_iff start).mpr ⟨hbare, hstart⟩, .refl⟩
  | @tail user operand _ hstep ih =>
      by_cases hoperand : given operand
      · exact Or.inl hoperand
      · apply ih.imp
        · exact fun huser => hclosed user operand huser hstep
        · exact fun ⟨hstart, hreaches⟩ => ⟨hstart,
            hreaches.tail ((hprovided.readsBare_iff user operand).mpr ⟨hstep, hoperand⟩)⟩

theorem barePath_of_later (hprovided : later.ProvidedFrom earlier provenance given)
    {start id : NodeId} (hpath : later.BarePath start id) : earlier.BarePath start id := by
  refine ⟨((hprovided.provenance?_eq_none_iff start).mp hpath.1).1, ?_⟩
  apply ReflTransGen.mono _ _ _ hpath.2
  exact fun user operand hstep => ((hprovided.readsBare_iff user operand).mp hstep).1

/-- What is left to find below further operands once the bare paths from the first have been
marked. -/
theorem bareBelow_cons {operand : Value} {operands : List Value}
    (hprovided : later.ProvidedFrom earlier provenance (earlier.BarePath operand.node))
    (id : NodeId) :
    earlier.BarePath operand.node id ∨ later.BareBelow operands id ↔
      earlier.BareBelow (operand :: operands) id := by
  simp only [BareBelow, List.exists_mem_cons_iff]
  constructor
  · apply Or.imp_right
    rintro ⟨first, hfirst, hpath⟩
    exact ⟨first, hfirst, hprovided.barePath_of_later hpath⟩
  · rintro (hpath | ⟨first, hfirst, hpath⟩)
    · exact Or.inl hpath
    · apply (hprovided.barePath (fun _ _ => BarePath.closed) hpath).imp_right
      exact fun hrest => ⟨first, hfirst, hrest⟩

end ProvidedFrom

section Descent

/-- Descends into an operand of the root unless it has a provenance. -/
def enterOperand (root : NodeId) (provenance : Metadata) (graph : Graph Metadata)
    (operand : Value) : Graph Metadata :=
  if operand.node < root ∧ graph.provenance? operand.node = none then
    graph.attachProvenance operand.node provenance
  else graph

theorem attachProvenance_eq (graph : Graph Metadata) (root : NodeId) (provenance : Metadata) :
    graph.attachProvenance root provenance =
      ((graph.operandsOf root).foldl (enterOperand root provenance) graph).offerProvenance
        provenance root := by
  rw [attachProvenance]
  rfl

theorem provenance?_setProvenance {root : NodeId} (hroot : root < graph.size)
    (provenance : Metadata) (id : NodeId) :
    (graph.setProvenance root provenance).provenance? id =
      if root = id then some provenance else graph.provenance? id := by
  obtain ⟨entry, hentry⟩ := exists_entryAt? hroot
  rw [provenance?, setProvenance, entryAt?_annotate]
  split
  next heq =>
    obtain rfl := heq
    simp [hentry, Annotations.setProvenance]
  next => rfl

/-- The root itself is marked after everything below it. -/
theorem providedFrom_offerProvenance {root : NodeId} (hroot : root < graph.size)
    (provenance : Metadata) :
    (graph.offerProvenance provenance root).ProvidedFrom graph provenance
      fun id => id = root ∧ graph.provenance? id = none := by
  rw [offerProvenance]
  split
  next own hown =>
    apply (ProvidedFrom.refl graph provenance).congr
    intro id
    apply iff_of_false not_false
    rintro ⟨rfl, hbare⟩
    cases hown.symm.trans hbare
  next hnone =>
    have hmarked := provenance?_setProvenance hroot provenance
    rw [setProvenance] at hmarked
    refine ⟨fun id => ?_, fun id hid => hid.2, fun id hid => ?_, fun id hid => ?_⟩
    · rw [hmarked, entryAt?_annotate]
      split
      next => rfl
      next => exact (ProvidedFrom.refl graph provenance).entries id
    · rw [hmarked, if_pos hid.1.symm]
    · rw [hmarked, if_neg]
      rintro rfl
      exact hid ⟨rfl, hnone⟩

theorem barePath_iff {start : NodeId} (hbare : graph.provenance? start = none) (id : NodeId) :
    graph.BarePath start id ↔ graph.TakesFrom start id :=
  ⟨fun hpath => ⟨hpath.bare, hpath.2⟩, fun htakes => ⟨hbare, htakes.2⟩⟩

/-- A root with or without a provenance passes it on to what lies below its operands. -/
theorem takesFrom_iff {root id : NodeId} :
    graph.TakesFrom root id ↔
      graph.BareBelow (graph.operandsOf root) id ∨ id = root ∧ graph.provenance? id = none := by
  constructor
  · rintro ⟨hbare, hreaches⟩
    rcases ReflTransGen.cases_head hreaches with rfl | ⟨below, ⟨hreads, hbelow⟩, hrest⟩
    · exact Or.inr ⟨rfl, hbare⟩
    · obtain ⟨operand, hoperand, rfl⟩ := List.mem_map.mp hreads
      exact Or.inl ⟨operand, hoperand, hbelow, hrest⟩
  · rintro (⟨operand, hoperand, hpath⟩ | ⟨rfl, hbare⟩)
    · exact ⟨hpath.bare, .head ⟨List.mem_map_of_mem hoperand, hpath.1⟩ hpath.2⟩
    · exact ⟨hbare, .refl⟩

/-- The descent into the operands one after the other, if the descent into each is exact. -/
theorem providedFrom_enterOperands {root : NodeId} {operands : List Value}
    (hlt : ∀ operand ∈ operands, operand.node < root)
    (hdescent : ∀ below < root, ∀ graph : Graph Metadata, graph.Ordered → below < graph.size →
      (graph.attachProvenance below provenance).ProvidedFrom graph provenance
        (graph.TakesFrom below))
    (hordered : graph.Ordered) (hroot : root < graph.size) :
    (operands.foldl (enterOperand root provenance) graph).ProvidedFrom graph provenance
      (graph.BareBelow operands) := by
  induction operands generalizing graph with
  | nil =>
      apply (ProvidedFrom.refl graph provenance).congr
      simp [BareBelow]
  | cons operand operands ih =>
      have hbelow := hlt operand List.mem_cons_self
      have hfirst : (enterOperand root provenance graph operand).ProvidedFrom graph provenance
          (graph.BarePath operand.node) := by
        rw [enterOperand]
        split
        next hbare =>
          apply (hdescent operand.node hbelow graph hordered (Nat.lt_trans hbelow hroot)).congr
          exact fun id => (barePath_iff hbare.2 id).symm
        next hown =>
          apply (ProvidedFrom.refl graph provenance).congr
          exact fun id => iff_of_false not_false fun hpath => hown ⟨hbelow, hpath.1⟩
      -- the rest starts from marks that the first descent has left, so only its bare paths remain
      rw [List.foldl_cons]
      apply ((ih (fun other hother => hlt other (List.mem_cons_of_mem _ hother))
        (hfirst.ordered hordered) (hfirst.size_eq ▸ hroot)).trans hfirst).congr
      exact hfirst.bareBelow_cons

/-- The descent gives the provenance to exactly the nodes that take it from the root before the
call. The induction is on the root, for any marks that earlier descents have left. -/
theorem providedFrom_attachProvenance (hordered : graph.Ordered) {root : NodeId}
    (hroot : root < graph.size) (provenance : Metadata) :
    (graph.attachProvenance root provenance).ProvidedFrom graph provenance
      (graph.TakesFrom root) := by
  induction root using Nat.strongRecOn generalizing graph with
  | _ root ih =>
      have hreads : ∀ operand ∈ graph.operandsOf root, operand.node < root :=
        fun operand hoperand => hordered.reads_lt (List.mem_map_of_mem hoperand)
      have hdescent : ∀ below < root, ∀ graph : Graph Metadata, graph.Ordered → below < graph.size →
          (graph.attachProvenance below provenance).ProvidedFrom graph provenance
            (graph.TakesFrom below) :=
        fun below hlt graph hordered hroot => ih below hlt hordered hroot
      have hbelow := providedFrom_enterOperands hreads hdescent hordered hroot
      have hlast := providedFrom_offerProvenance (hbelow.size_eq.symm ▸ hroot) provenance
      rw [attachProvenance_eq]
      apply (hlast.trans hbelow).congr
      intro id
      rw [takesFrom_iff, hbelow.provenance?_eq_none_iff]
      -- the last step marks the root if nothing below has, and nothing below is the root
      by_cases hid : graph.BareBelow (graph.operandsOf root) id
      · simp [hid]
      · simp [hid]

theorem enterOperands_of_provided {operands : List Value}
    (hoperands : ∀ operand ∈ operands, graph.provenance? operand.node ≠ none) (root : NodeId)
    (provenance : Metadata) : operands.foldl (enterOperand root provenance) graph = graph := by
  induction operands with
  | nil => rfl
  | cons operand operands ih =>
      have hfirst : enterOperand root provenance graph operand = graph :=
        if_neg fun hbare => hoperands operand List.mem_cons_self hbare.2
      rw [List.foldl_cons, hfirst]
      exact ih fun other hother => hoperands other (List.mem_cons_of_mem _ hother)

/-- Where a root and its operands have provenances, nothing is left to do. -/
theorem attachProvenance_of_provided {root : NodeId} (hroot : graph.provenance? root ≠ none)
    (hoperands : ∀ operand ∈ graph.operandsOf root, graph.provenance? operand.node ≠ none)
    (provenance : Metadata) : graph.attachProvenance root provenance = graph := by
  rw [attachProvenance_eq, enterOperands_of_provided hoperands, offerProvenance]
  split
  next => rfl
  next hnone => exact absurd hnone hroot

end Descent

namespace ProvidedFrom

variable {root : NodeId}

/-- Afterwards the root has a provenance, its own one if it had any. -/
theorem provenance?_root
    (hprovided : later.ProvidedFrom earlier provenance (earlier.TakesFrom root)) :
    later.provenance? root = some ((earlier.provenance? root).getD provenance) := by
  cases hown : earlier.provenance? root with
  | none => exact hprovided.marked root ⟨hown, .refl⟩
  | some own => exact hprovided.kept hown

/-- Every operand of the root had a provenance or is one step below it. -/
theorem provenance?_operand
    (hprovided : later.ProvidedFrom earlier provenance (earlier.TakesFrom root)) {operand : NodeId}
    (hreads : earlier.Reads root operand) : later.provenance? operand ≠ none := by
  intro hnone
  obtain ⟨hbare, htakes⟩ := (hprovided.provenance?_eq_none_iff operand).mp hnone
  exact htakes ⟨hbare, .single ⟨hreads, hbare⟩⟩

theorem settleProvenance_eq
    (hprovided : later.ProvidedFrom earlier provenance (earlier.TakesFrom root))
    (other : Metadata) :
    later.settleProvenance root other = (later.provenance? root, later) := by
  have hroot : later.provenance? root ≠ none := by simp [hprovided.provenance?_root]
  have hagain : later.attachProvenance root other = later := by
    apply attachProvenance_of_provided hroot
    intro operand hoperand
    rw [hprovided.operandsOf_eq] at hoperand
    exact hprovided.provenance?_operand (List.mem_map_of_mem hoperand)
  simp only [settleProvenance, hagain]

end ProvidedFrom

/-- Attaching a provenance to a subgraph is exact. Nodes that have one keep it; of the others just
the root and those it leads to through bare nodes get the given one; the answer is what the root
then has; and a second call finds nothing to do. Nothing else about the graph changes. -/
theorem settleProvenance_exact (hordered : graph.Ordered) {root : NodeId}
    (hroot : root < graph.size) (provenance : Metadata) :
    ∃ later, graph.settleProvenance root provenance = (later.provenance? root, later) ∧
      later.provenance? root = some ((graph.provenance? root).getD provenance) ∧
      (∀ id own, graph.provenance? id = some own → later.provenance? id = some own) ∧
      (∀ id, graph.provenance? id = none →
        (later.provenance? id = some provenance ↔ ReflTransGen graph.ReadsBare root id) ∧
        (later.provenance? id = none ↔ ¬ ReflTransGen graph.ReadsBare root id)) ∧
      (∀ id, later.entryAt? id = (graph.entryAt? id).map fun entry =>
        { entry with
          annotations := { entry.annotations with provenance? := later.provenance? id } }) ∧
      ∀ other, later.settleProvenance root other = (later.provenance? root, later) := by
  have hprovided := providedFrom_attachProvenance hordered hroot provenance
  refine ⟨graph.attachProvenance root provenance, rfl, hprovided.provenance?_root,
    fun _ _ => hprovided.kept, ?_, hprovided.entries, hprovided.settleProvenance_eq⟩
  intro id hbare
  by_cases hreaches : ReflTransGen graph.ReadsBare root id
  · simp [hprovided.marked id ⟨hbare, hreaches⟩, hreaches]
  · simp [hprovided.others id fun htakes => hreaches htakes.2, hbare, hreaches]

/-- The last node has a provenance of its own and reads a node, a user of the same node, and a node
with a provenance that shields an input. -/
def shieldedProgram : List BuildStep :=
  let reduce (operand : Value) : Graph → NodeCall :=
    fun _ => .build (.allReduce ⟨.sum, .one, []⟩ operand)
  [.construct fun _ => .build (.deviceData "x" (.scalar .float32)),
    .construct (reduce ⟨0, 0⟩),
    .construct (reduce ⟨1, 0⟩),
    .construct fun _ => .build (.deviceData "y" (.scalar .float32)),
    .construct (reduce ⟨3, 0⟩),
    .construct fun _ => .build .token,
    .construct fun _ =>
      .build (.orderedAllReduce ⟨.sum, .one, []⟩ [⟨1, 0⟩, ⟨2, 0⟩, ⟨4, 0⟩] ⟨5, 0⟩ false),
    .annotate 4 (.setProvenance ⟨"kept", 1⟩),
    .annotate 6 (.setProvenance ⟨"own", 2⟩)]

theorem settleProvenance_exact_shielded :
    let graph := (Workspace.run shieldedProgram { cache := ⟨1, []⟩ }).2.graph
    let layer : Provenance := ⟨"layer", 4⟩
    graph.Ordered ∧ 6 < graph.size ∧
      ∃ later, graph.settleProvenance 6 layer = (some ⟨"own", 2⟩, later) ∧
        (List.range graph.size).map later.provenance? =
          [some layer, some layer, some layer, none, some ⟨"kept", 1⟩, some layer,
            some ⟨"own", 2⟩] ∧
        ∀ other, later.settleProvenance 6 other = (some ⟨"own", 2⟩, later) := by
  intro graph layer
  have hordered : graph.Ordered :=
    (Workspace.constructed_run shieldedProgram ⟨1, []⟩).wellFormed.ordered
  have hroot : 6 < graph.size := by decide +kernel
  obtain ⟨later, hsettle, _, _, _, _, hagain⟩ := settleProvenance_exact hordered hroot layer
  have hsettled : (List.range graph.size).map (graph.settleProvenance 6 layer).2.provenance? =
      [some layer, some layer, some layer, none, some ⟨"kept", 1⟩, some layer,
        some ⟨"own", 2⟩] := by decide +kernel
  have hanswer : (graph.settleProvenance 6 layer).1 = some ⟨"own", 2⟩ := by decide +kernel
  rw [hsettle] at hsettled hanswer
  replace hanswer : later.provenance? 6 = some ⟨"own", 2⟩ := hanswer
  rw [hanswer] at hsettle hagain
  exact ⟨hordered, hroot, later, hsettle, hsettled, hagain⟩

end TensorGraph.Graph
