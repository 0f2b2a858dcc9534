import TensorGraph.Reduction
import TensorGraph.Shape

/-!
# Traces

A trace is the flat list of instructions that lowering emits. An instruction
refers to earlier ones by their handles, their positions in the list. Refusing a
handle that was never emitted leaves the trace unchanged.

A trace is written with one instruction per line: its handle, the shape it produces,
the name of the operation, the operands, and the attributes if there are any.
-/

namespace TensorGraph

/-- The position of an emitted instruction. -/
structure Handle where
  position : Nat
  deriving DecidableEq

def Handle.text (handle : Handle) : String := "%" ++ toString handle.position

/-- What an instruction does, with its attributes. -/
inductive Opcode where
  | parameter (number : Nat) (name : String)
  | afterAll
  | allReduce (reduction : Reduction) (pinned : Bool)
  | tupleElement (index : Nat)
  deriving DecidableEq

structure Instruction where
  opcode : Opcode
  operands : List Handle
  shape : Shape
  deriving DecidableEq

/-- The instructions emitted so far and the number of parameters among them. -/
structure Trace where
  instructions : Array Instruction := #[]
  parameters : Nat := 0
  deriving DecidableEq

namespace Trace

/-- The handle names no instruction of the trace. -/
structure UnknownHandle where
  handle : Handle
  deriving DecidableEq

def UnknownHandle.message (refusal : UnknownHandle) : String :=
  refusal.handle.text ++ " was not emitted by this builder"

def size (trace : Trace) : Nat := trace.instructions.size

def instruction (trace : Trace) (handle : Handle) : Except UnknownHandle Instruction :=
  match trace.instructions[handle.position]? with
  | some instruction => .ok instruction
  | none => .error ⟨handle⟩

/-- The shape of the value that the instruction produces. -/
def shape (trace : Trace) (handle : Handle) : Except UnknownHandle Shape :=
  Instruction.shape <$> trace.instruction handle

/-- Appends an instruction; its handle is its position. -/
def push (trace : Trace) (instruction : Instruction) : Handle × Trace :=
  (⟨trace.size⟩, { trace with instructions := trace.instructions.push instruction })

/-- Appends a parameter. Parameters are numbered in the order of their emission. -/
def parameter (trace : Trace) (shape : Shape) (name : String) : Handle × Trace :=
  { trace with parameters := trace.parameters + 1 }.push
    ⟨.parameter trace.parameters name, [], shape⟩

/-- Appends a fresh ordering token. -/
def createToken (trace : Trace) : Handle × Trace := trace.push ⟨.afterAll, [], .token⟩

/-- Appends the reduction of a single value, which keeps its shape. -/
def allReduce (trace : Trace) (reduction : Reduction) (input : Handle) :
    Except UnknownHandle (Handle × Trace) := do
  let shape ← trace.shape input
  return trace.push ⟨.allReduce reduction false, [input], shape⟩

/-- Appends projections of the tuple `source`, one per shape, numbered from `index`. -/
def pushElements (trace : Trace) (source : Handle) (index : Nat) :
    List Shape → List Handle × Trace
  | [] => ([], trace)
  | shape :: shapes =>
    let (handle, extended) := trace.push ⟨.tupleElement index, [source], shape⟩
    let (handles, final) := extended.pushElements source (index + 1) shapes
    (handle :: handles, final)

/-- Appends one reduction of all inputs, ordered after `token`, and the projections of its
results: one per input and then the new token. -/
def allReduceOrdered (trace : Trace) (reduction : Reduction) (inputs : List Handle)
    (token : Handle) (pinned : Bool) : Except UnknownHandle (List Handle × Trace) := do
  let operands := inputs ++ [token]
  let shapes ← operands.mapM trace.shape
  let (source, extended) := trace.push ⟨.allReduce reduction pinned, operands, .tuple shapes⟩
  return extended.pushElements source 0 shapes

end Trace

namespace Reduction

/-- The attributes of a reduction; a scale of one is left out. -/
def attributes (reduction : Reduction) : String :=
  let group (members : List Int) : String :=
    "\x7b" ++ ",".intercalate (members.map toString) ++ "\x7d"
  "to_apply=" ++ reduction.kind.text ++ ", replica_groups=\x7b" ++
    ",".intercalate (reduction.groups.map group) ++ "\x7d" ++
    if reduction.scale = .one then "" else ", scale=" ++ reduction.scale.text

end Reduction

namespace Opcode

def name : Opcode → String
  | .parameter .. => "parameter"
  | .afterAll => "after-all"
  | .allReduce .. => "all-reduce"
  | .tupleElement .. => "get-tuple-element"

def attributes : Opcode → String
  | .parameter number name => s!"number={number}, name={name}"
  | .afterAll => ""
  | .allReduce reduction pinned =>
    reduction.attributes ++ if pinned then ", pin_layout=true" else ""
  | .tupleElement index => s!"index={index}"

end Opcode

/-- The line of the instruction at the given position. -/
def Instruction.line (instruction : Instruction) (position : Nat) : String :=
  let operands := ", ".intercalate (instruction.operands.map Handle.text)
  let attributes := instruction.opcode.attributes
  (Handle.mk position).text ++ " = " ++ instruction.shape.text ++ " " ++ instruction.opcode.name ++
    "(" ++ operands ++ ")" ++ if attributes = "" then "" else ", " ++ attributes

namespace Trace

/-- The lines of all instructions, without a line break at the end. -/
def text (trace : Trace) : String :=
  "\n".intercalate (trace.instructions.toList.mapIdx fun position instruction =>
    instruction.line position)

end Trace

end TensorGraph
