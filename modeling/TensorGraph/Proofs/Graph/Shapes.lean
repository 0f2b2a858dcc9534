import TensorGraph.Proofs.Emission.Block
import TensorGraph.Proofs.Graph.AnnotationSteps
import TensorGraph.Proofs.Workspace.BuiltIn

/-! # Shapes of values

The shape of a node has one entry per output, and for the built-in operations it
follows from the shapes of the operands. Nodes keep their shapes while the graph
grows, so this is a matter of the node that is appended.
-/

namespace TensorGraph

open Effects ListRelations

/-- The node has outputs, and its shape is one for so many of them. -/
def Node.Regular (node : Node) : Prop :=
  node.outputs ≠ 0 ∧ Request.outputsFit node.outputs node.shape = true

/-- A tuple is the shape of a node with as many outputs, also of one with a single output. -/
theorem Request.outputsFit_tuple (shapes : List Shape) :
    outputsFit shapes.length (.tuple shapes) = true := by
  rw [outputsFit]
  split
  next hone => simp [Shape.arity, Shape.elements, hone]
  next => simp [Shape.arity, Shape.elements]

namespace Shape

/-- The shapes of the outputs of a node with this shape: a tuple has an entry for each. -/
def outputShapes : Shape → List Shape
  | .array elementType dims => [.array elementType dims]
  | .tuple elements => elements

/-- A shape for so many outputs: an array for a single one, or a tuple with an entry for each. -/
inductive ForOutputs : Shape → Nat → Prop
  | array (elementType : ElementType) (dims : List Int) : ForOutputs (.array elementType dims) 1
  | tuple {elements : List Shape} : elements ≠ [] → ForOutputs (.tuple elements) elements.length

theorem forOutputs_iff (shape : Shape) (outputs : Nat) :
    shape.ForOutputs outputs ↔ outputs ≠ 0 ∧ Request.outputsFit outputs shape = true := by
  constructor
  · intro hshape
    cases hshape with
    | array elementType dims => exact ⟨Nat.one_ne_zero, rfl⟩
    | tuple hsome =>
        exact ⟨fun hnone => hsome (List.length_eq_zero_iff.mp hnone), Request.outputsFit_tuple _⟩
  · rintro ⟨houtputs, hfit⟩
    cases shape with
    | array elementType dims =>
        obtain rfl : outputs = 1 := by
          by_contra hother
          simp [Request.outputsFit, arity, Shape.elements, hother, houtputs.symm] at hfit
        exact .array elementType dims
    | tuple elements =>
        obtain rfl : elements.length = outputs := by
          simp only [Request.outputsFit, arity, Shape.elements, isTuple] at hfit
          split at hfit <;> simp_all
        exact .tuple fun hnone => houtputs (List.length_eq_zero_iff.mpr hnone)

theorem ForOutputs.length_outputShapes {shape : Shape} {outputs : Nat}
    (hshape : shape.ForOutputs outputs) : shape.outputShapes.length = outputs := by
  cases hshape <;> rfl

end Shape

/-- The shape of a node of the operation follows from those of the operands. An input may have any
shape. -/
def Operation.Gives (operation : Operation) (operands : List Shape) (shape : Shape) : Prop :=
  match operation with
  | .deviceData _ => True
  | .token => shape = .token
  | .allReduce _ => operands = [shape]
  | .orderedAllReduce .. => shape = .tuple operands
  | .custom _ => False

namespace Node

variable {node : Node} {index : Nat}

theorem lt_of_shapeAt {shape : Shape} (hshape : node.shapeAt index = .ok shape) :
    index < node.outputs := by
  refine Nat.lt_of_not_le fun hle => ?_
  rw [shapeAt, if_neg (Nat.not_lt.mpr hle)] at hshape
  cases hshape

theorem shapeAt_of_not_isTuple (hindex : index < node.outputs)
    (harray : node.shape.isTuple = false) : node.shapeAt index = .ok node.shape := by
  rw [shapeAt, if_pos hindex]
  cases hshape : node.shape with
  | array elementType dims => rfl
  | tuple elements =>
      rw [hshape] at harray
      cases harray

theorem shapeAt_of_tuple {elements : List Shape} {shape : Shape} (hindex : index < node.outputs)
    (htuple : node.shape = .tuple elements) (hshape : elements[index]? = some shape) :
    node.shapeAt index = .ok shape := by
  rw [shapeAt, if_pos hindex, htuple]
  simp only [hshape]

theorem eq_of_shapeAt_of_not_isTuple {shape : Shape} (harray : node.shape.isTuple = false)
    (hshape : node.shapeAt index = .ok shape) : shape = node.shape := by
  rw [shapeAt_of_not_isTuple (lt_of_shapeAt hshape) harray] at hshape
  exact (Except.ok.inj hshape).symm

theorem mem_of_shapeAt_of_tuple {elements : List Shape} {shape : Shape}
    (htuple : node.shape = .tuple elements) (hshape : node.shapeAt index = .ok shape) :
    shape ∈ elements := by
  rw [shapeAt, if_pos (lt_of_shapeAt hshape), htuple] at hshape
  cases helement : elements[index]? with
  | none =>
      simp only [helement] at hshape
      cases hshape
  | some found =>
      simp only [helement] at hshape
      obtain rfl := Except.ok.inj hshape
      exact List.mem_of_getElem? helement

/-- Every output of a regular node has a shape. -/
theorem Regular.exists_shapeAt (hnode : node.Regular) (hindex : index < node.outputs) :
    ∃ shape, node.shapeAt index = .ok shape := by
  have hlength := ((Shape.forOutputs_iff _ _).mpr hnode).length_outputShapes
  cases hshape : node.shape with
  | array elementType dims =>
      exact ⟨_, shapeAt_of_not_isTuple hindex (by rw [hshape]; rfl)⟩
  | tuple elements =>
      rw [hshape] at hlength
      have helement := List.getElem?_eq_getElem (hlength.symm ▸ hindex : index < elements.length)
      exact ⟨_, shapeAt_of_tuple hindex hshape helement⟩

end Node

namespace Graph

/-- All nodes are regular, whatever their operations. -/
def Regular (graph : Graph) : Prop :=
  ∀ id entry, graph.entryAt? id = some entry → entry.node.Regular

/-- All nodes are regular, with shapes that follow from their operands. -/
structure Shaped (graph : Graph) : Prop where
  regular : ∀ id entry, graph.entryAt? id = some entry → entry.node.Regular
  derived : ∀ id entry, graph.entryAt? id = some entry →
    ∃ shapes, List.Forall₂ (fun operand shape => graph.shapeOf operand = .ok shape)
      entry.node.operands shapes ∧ entry.operation.Gives shapes entry.node.shape

namespace Regular

variable {graph : Graph}

theorem empty : Regular {} := by
  intro id entry hentry
  simp [entryAt?] at hentry

theorem push (hgraph : graph.Regular) {entry : Entry} (hentry : entry.node.Regular) :
    (graph.push entry).Regular := by
  intro id found hfound
  rw [entryAt?_push] at hfound
  split at hfound
  · obtain rfl := Option.some.inj hfound
    exact hentry
  · exact hgraph id found hfound

theorem annotate (hgraph : graph.Regular) (id : NodeId) (change : Annotations → Annotations) :
    (graph.annotate id change).Regular := by
  intro other found hfound
  obtain ⟨annotations, hentry⟩ := entryAt?_of_annotate hfound
  have hregular := hgraph other _ hentry
  exact hregular

end Regular

theorem shapeOf_eq_ok_iff (graph : Graph) (value : Value) (shape : Shape) :
    graph.shapeOf value = .ok shape ↔
      ∃ entry, graph.entryAt? value.node = some entry ∧
        entry.node.shapeAt value.index = .ok shape := by
  rw [shapeOf, entryAt]
  cases hentry : graph.entryAt? value.node <;> simp [bind, Except.bind]

/-- Every value of a graph of regular nodes has a shape. -/
theorem Regular.exists_shapeOf {graph : Graph} (hgraph : graph.Regular) {value : Value}
    (hvalue : graph.HasValue value) : ∃ shape, graph.shapeOf value = .ok shape := by
  obtain ⟨entry, hentry, hindex⟩ := hvalue
  obtain ⟨shape, hshape⟩ := (hgraph _ entry hentry).exists_shapeAt hindex
  exact ⟨shape, (graph.shapeOf_eq_ok_iff value shape).mpr ⟨entry, hentry, hshape⟩⟩

theorem shapeOf_eq_shapeAt {graph : Graph} {id : NodeId} {entry : Entry}
    (hentry : graph.entryAt? id = some entry) {index : Nat} {shape : Shape}
    (hshape : entry.node.shapeAt index = .ok shape) : graph.shapeOf ⟨id, index⟩ = .ok shape :=
  (graph.shapeOf_eq_ok_iff ⟨id, index⟩ shape).mpr ⟨entry, hentry, hshape⟩

/-- The outputs of an appended node have the shapes that it says. -/
theorem shapeOf_push_size {graph : Graph} {entry : Entry} {index : Nat} {shape : Shape}
    (hshape : entry.node.shapeAt index = .ok shape) :
    (graph.push entry).shapeOf ⟨graph.size, index⟩ = .ok shape :=
  shapeOf_eq_shapeAt ((entryAt?_push graph entry _).trans (if_pos rfl)) hshape

theorem hasValue_of_shapeOf {graph : Graph} {value : Value} {shape : Shape}
    (hshape : graph.shapeOf value = .ok shape) : graph.HasValue value := by
  obtain ⟨entry, hentry, hat⟩ := (graph.shapeOf_eq_ok_iff value shape).mp hshape
  exact ⟨entry, hentry, Node.lt_of_shapeAt hat⟩

/-- Operands of which the shapes are known are values. -/
theorem hasValue_of_forall₂_shapeOf {graph : Graph} {operands : List Value} {shapes : List Shape}
    (hshapes : List.Forall₂ (fun operand shape => graph.shapeOf operand = .ok shape)
      operands shapes) : ∀ operand ∈ operands, graph.HasValue operand :=
  ((List.forall₂_and_left operands shapes).mp (hshapes.imp fun _ _ hshape =>
    ⟨hasValue_of_shapeOf hshape, hshape⟩)).1

theorem Extends.shapeOf {later earlier : Graph} (hextends : later.Extends earlier) {value : Value}
    {shape : Shape} (hshape : earlier.shapeOf value = .ok shape) :
    later.shapeOf value = .ok shape := by
  obtain ⟨entry, hentry, hat⟩ := (earlier.shapeOf_eq_ok_iff value shape).mp hshape
  obtain ⟨annotations, hlater⟩ := hextends _ _ hentry
  exact (later.shapeOf_eq_ok_iff value shape).mpr ⟨_, hlater, hat⟩

namespace Shaped

variable {graph : Graph}

theorem empty : Shaped {} where
  regular := Regular.empty
  derived := by intro id entry hentry; simp [entryAt?] at hentry

theorem push (hgraph : graph.Shaped) {entry : Entry} (hregular : entry.node.Regular)
    {shapes : List Shape}
    (hoperands : List.Forall₂ (fun operand shape => graph.shapeOf operand = .ok shape)
      entry.node.operands shapes)
    (hgives : entry.operation.Gives shapes entry.node.shape) : (graph.push entry).Shaped where
  regular := Regular.push hgraph.regular hregular
  derived := by
    intro id found hfound
    have hextends := Extends.push graph entry
    rw [entryAt?_push] at hfound
    split at hfound
    · obtain rfl := Option.some.inj hfound
      exact ⟨shapes, hoperands.imp fun _ _ => hextends.shapeOf, hgives⟩
    · obtain ⟨shapes, hshapes, hgives⟩ := hgraph.derived id found hfound
      exact ⟨shapes, hshapes.imp fun _ _ => hextends.shapeOf, hgives⟩

theorem annotate (hgraph : graph.Shaped) (id : NodeId) (change : Annotations → Annotations) :
    (graph.annotate id change).Shaped where
  regular := Regular.annotate hgraph.regular id change
  derived := by
    intro other found hfound
    obtain ⟨annotations, hentry⟩ := entryAt?_of_annotate hfound
    obtain ⟨shapes, hshapes, hgives⟩ := hgraph.derived other _ hentry
    exact ⟨shapes, hshapes.imp fun _ _ => (Extends.annotate graph id change).shapeOf, hgives⟩

end Shaped

/-- Every input has the shape of an array. -/
def PlainInputs (graph : Graph) : Prop :=
  ∀ id entry, graph.entryAt? id = some entry → ∀ name, entry.operation = .deviceData name →
    entry.node.shape.isTuple = false

theorem PlainInputs.push {graph : Graph} (hgraph : graph.PlainInputs) {entry : Entry}
    (hentry : ∀ name, entry.operation = .deviceData name → entry.node.shape.isTuple = false) :
    (graph.push entry).PlainInputs := by
  intro id found hfound
  rw [entryAt?_push] at hfound
  split at hfound
  · obtain rfl := Option.some.inj hfound
    exact hentry
  · exact hgraph id found hfound

theorem PlainInputs.annotate {graph : Graph} (hgraph : graph.PlainInputs) (id : NodeId)
    (change : Annotations → Annotations) : (graph.annotate id change).PlainInputs := by
  intro other found hfound
  obtain ⟨annotations, hentry⟩ := entryAt?_of_annotate hfound
  have hplain := hgraph other _ hentry
  exact hplain

theorem PlainInputs.afterStep {graph : Graph} (hgraph : graph.PlainInputs) (id : NodeId)
    (step : AnnotationStep) : (graph.afterStep id step).PlainInputs :=
  afterStep_preserves PlainInputs hgraph id step (hgraph.annotate id)

/-- If the inputs are arrays, all values are: only nodes have tuples as shapes. The induction is on
the node of the value, as its operands are outputs of earlier nodes. -/
theorem Shaped.not_isTuple_of_shapeOf {graph : Graph} (hgraph : graph.Shaped)
    (hordered : graph.Ordered) (hplain : graph.PlainInputs) {value : Value} {shape : Shape}
    (hshape : graph.shapeOf value = .ok shape) : shape.isTuple = false := by
  obtain ⟨id, index⟩ := value
  induction id using Nat.strongRecOn generalizing index shape with
  | ind id ih =>
      obtain ⟨entry, hentry, hat⟩ := (graph.shapeOf_eq_ok_iff ⟨id, index⟩ shape).mp hshape
      obtain ⟨shapes, hshapes, hgives⟩ := hgraph.derived id entry hentry
      have harrays : ∀ operandShape ∈ shapes, operandShape.isTuple = false := by
        intro operandShape hmem
        obtain ⟨position, hposition, rfl⟩ := List.getElem_of_mem hmem
        have hposition' := hshapes.length_eq ▸ hposition
        have hoperand := List.get_mem entry.node.operands ⟨position, hposition'⟩
        exact ih _ (hordered id entry hentry _ hoperand) _ (hshapes.get hposition' hposition)
      cases hoperation : entry.operation with
      | deviceData name =>
          have harray := hplain id entry hentry name hoperation
          rw [Node.eq_of_shapeAt_of_not_isTuple harray hat]
          exact harray
      | token =>
          rw [hoperation] at hgives
          have harray : entry.node.shape.isTuple = false := congrArg Shape.isTuple hgives
          rw [Node.eq_of_shapeAt_of_not_isTuple harray hat]
          exact harray
      | allReduce reduction =>
          rw [hoperation] at hgives
          have harray := harrays entry.node.shape (hgives ▸ List.mem_cons_self)
          rw [Node.eq_of_shapeAt_of_not_isTuple harray hat]
          exact harray
      | orderedAllReduce reduction pinned =>
          rw [hoperation] at hgives
          exact harrays shape (Node.mem_of_shapeAt_of_tuple hgives hat)
      | custom emitter? =>
          rw [hoperation] at hgives
          exact hgives.elim

end Graph

end TensorGraph
