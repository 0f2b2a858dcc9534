import TensorGraph.Graph
import TensorGraph.Proofs.Effects

/-! # Terms of values and handles

A value of a graph and a handle of a trace both stand for a term, which is what
remains when all sharing is unfolded. Unfolding goes down to a given depth; a
deeper unfolding never gives another term.
-/

namespace TensorGraph

open Effects

/-- What a term does at its top. A parameter is known by its shape and name, not by its number. -/
inductive Symbol where
  | parameter (shape : Shape) (name : String)
  | afterAll
  | allReduce (reduction : Reduction) (pinned : Bool)
  | tupleElement (index : Nat)
  deriving DecidableEq

inductive Term where
  | apply (symbol : Symbol) (arguments : List Term)

namespace Term

variable {α : Type}

/-- One layer of a term: the parts below it and the term for the terms of the parts. -/
structure Layer (α : Type) where
  parts : List α
  build : List Term → Term

/-- The term of the root, if it ends within the given depth. -/
def unfold (layer? : α → Option (Layer α)) : Nat → α → Option Term
  | 0, _ => none
  | depth + 1, root => do
    let layer ← layer? root
    let arguments ← layer.parts.mapM (unfold layer? depth)
    return layer.build arguments

/-- The root unfolds to the term. -/
def Denotes (layer? : α → Option (Layer α)) (root : α) (term : Term) : Prop :=
  ∃ depth, unfold layer? depth root = some term

variable {layer? : α → Option (Layer α)}

theorem unfold_succ_eq_some_iff (depth : Nat) (root : α) (term : Term) :
    unfold layer? (depth + 1) root = some term ↔
      ∃ layer arguments, layer? root = some layer ∧
        List.Forall₂ (fun part argument => unfold layer? depth part = some argument)
          layer.parts arguments ∧
        layer.build arguments = term := by
  simp only [unfold, ← mapM_eq_some_iff]
  cases layer? root with
  | none => simp
  | some layer => cases harguments : layer.parts.mapM (unfold layer? depth) <;> simp [harguments]

theorem unfold_mono {shallow deep : Nat} (hle : shallow ≤ deep) {root : α} {term : Term}
    (hterm : unfold layer? shallow root = some term) : unfold layer? deep root = some term := by
  induction shallow generalizing deep root term with
  | zero => cases hterm
  | succ shallow ih =>
      obtain ⟨deep, rfl⟩ := Nat.exists_eq_add_one_of_ne_zero (Nat.ne_zero_of_lt hle)
      obtain ⟨layer, arguments, hlayer, hparts, hbuild⟩ :=
        (unfold_succ_eq_some_iff _ _ _).mp hterm
      refine (unfold_succ_eq_some_iff _ _ _).mpr ⟨layer, arguments, hlayer, ?_, hbuild⟩
      exact hparts.imp fun _ _ hpart => ih (Nat.le_of_succ_le_succ hle) hpart

/-- A root has at most one term. -/
theorem Denotes.unique {root : α} {left right : Term} (hleft : Denotes layer? root left)
    (hright : Denotes layer? root right) : left = right := by
  obtain ⟨depth, hleft⟩ := hleft
  obtain ⟨depth', hright⟩ := hright
  have hleft' := unfold_mono (Nat.le_max_left depth depth') hleft
  have hright' := unfold_mono (Nat.le_max_right depth depth') hright
  exact Option.some.inj (hleft'.symm.trans hright')

/-- Finitely many parts end within one depth. -/
theorem exists_depth {parts : List α} {arguments : List Term}
    (hparts : List.Forall₂ (Denotes layer?) parts arguments) :
    ∃ depth, List.Forall₂ (fun part argument => unfold layer? depth part = some argument)
      parts arguments := by
  induction hparts with
  | nil => exact ⟨0, .nil⟩
  | cons hpart _ ih =>
      obtain ⟨depth, hpart⟩ := hpart
      obtain ⟨depth', hrest⟩ := ih
      refine ⟨max depth depth', .cons (unfold_mono (Nat.le_max_left _ _) hpart) ?_⟩
      exact hrest.imp fun _ _ => unfold_mono (Nat.le_max_right _ _)

theorem denotes_iff (root : α) (term : Term) :
    Denotes layer? root term ↔
      ∃ layer arguments, layer? root = some layer ∧
        List.Forall₂ (Denotes layer?) layer.parts arguments ∧ layer.build arguments = term := by
  constructor
  · rintro ⟨depth, hterm⟩
    cases depth with
    | zero => cases hterm
    | succ depth =>
        obtain ⟨layer, arguments, hlayer, hparts, hbuild⟩ :=
          (unfold_succ_eq_some_iff _ _ _).mp hterm
        exact ⟨layer, arguments, hlayer, hparts.imp fun _ _ hpart => ⟨depth, hpart⟩, hbuild⟩
  · rintro ⟨layer, arguments, hlayer, hparts, hbuild⟩
    obtain ⟨depth, hparts⟩ := exists_depth hparts
    refine ⟨depth + 1, (unfold_succ_eq_some_iff _ _ _).mpr ?_⟩
    exact ⟨layer, arguments, hlayer, hparts, hbuild⟩

end Term

/-- What the instruction does, whatever its position and number. -/
def Instruction.symbol (instruction : Instruction) : Symbol :=
  match instruction.opcode with
  | .parameter _ name => .parameter instruction.shape name
  | .afterAll => .afterAll
  | .allReduce reduction pinned => .allReduce reduction pinned
  | .tupleElement index => .tupleElement index

/-- An instruction applies its symbol to its operands. -/
def Trace.layer? (trace : Trace) (handle : Handle) : Option (Term.Layer Handle) := do
  let instruction ← trace.instructions[handle.position]?
  return ⟨instruction.operands, .apply instruction.symbol⟩

/-- Unfolding the handle through the instructions gives the term. -/
def Trace.Denotes (trace : Trace) : Handle → Term → Prop := Term.Denotes trace.layer?

/-- The term of an output of a built-in node for the terms of its operands. An ordered reduction
projects its outputs from one collective. -/
def Operation.build? (operation : Operation) (node : Node) (index : Nat) :
    Option (List Term → Term) :=
  match operation with
  | .deviceData name => some (.apply (.parameter node.shape name))
  | .token => some (.apply .afterAll)
  | .allReduce reduction => some (.apply (.allReduce reduction false))
  | .orderedAllReduce reduction pinned =>
    some fun arguments =>
      .apply (.tupleElement index) [.apply (.allReduce reduction pinned) arguments]
  | .custom _ => none

/-- An output of a node is built from the operands of the node. -/
def Graph.layer? (graph : Graph) (value : Value) : Option (Term.Layer Value) := do
  let entry ← graph.entryAt? value.node
  if value.index < entry.node.outputs then
    let build ← entry.operation.build? entry.node value.index
    return ⟨entry.node.operands, build⟩
  else
    none

/-- Unfolding the value through the nodes gives the term. -/
def Graph.Denotes (graph : Graph) : Value → Term → Prop := Term.Denotes graph.layer?

/-- The handle of an instruction denotes its symbol over what its operands denote. -/
theorem Trace.denotes_of_instruction {trace : Trace} {handle : Handle} {instruction : Instruction}
    (hinstruction : trace.instructions[handle.position]? = some instruction)
    {arguments : List Term}
    (hoperands : List.Forall₂ trace.Denotes instruction.operands arguments) :
    trace.Denotes handle (.apply instruction.symbol arguments) := by
  refine (Term.denotes_iff _ _).mpr ⟨⟨instruction.operands, .apply instruction.symbol⟩, arguments,
    ?_, hoperands, rfl⟩
  simp [layer?, hinstruction]

theorem Graph.denotes_of_entry {graph : Graph} {value : Value} {entry : Entry}
    (hentry : graph.entryAt? value.node = some entry) (hindex : value.index < entry.node.outputs)
    {build : List Term → Term}
    (hbuild : entry.operation.build? entry.node value.index = some build) {arguments : List Term}
    (hoperands : List.Forall₂ graph.Denotes entry.node.operands arguments) :
    graph.Denotes value (build arguments) := by
  refine (Term.denotes_iff _ _).mpr ⟨⟨entry.node.operands, build⟩, arguments, ?_, hoperands, rfl⟩
  simp [layer?, hentry, hindex, hbuild]

end TensorGraph
