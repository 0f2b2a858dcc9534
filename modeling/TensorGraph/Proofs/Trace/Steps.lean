import TensorGraph.Proofs.Emission.Block

/-! # Emitting instruction by instruction

An emitting function looks up the shapes of the handles it is given and pushes its
instructions one after the other. Run this way, on a trace that keeps whatever was
pushed before a refusal, it still leaves the trace alone when it refuses a handle:
all handles are looked up before the first push.
-/

namespace TensorGraph

open Effects ListRelations

/-- A computation that emits instructions and may refuse a handle. What was pushed before stays. -/
abbrev TraceM := ExceptT Trace.UnknownHandle (StateM Trace)

/-- A call of an emitting function. -/
inductive TraceCall where
  | parameter (shape : Shape) (name : String)
  | createToken
  | allReduce (reduction : Reduction) (input : Handle)
  | allReduceOrdered (reduction : Reduction) (inputs : List Handle) (token : Handle)
      (pinned : Bool)

namespace TraceM

def shape (handle : Handle) : TraceM Shape := do
  ofExcept ((← get).shape handle)

def push (instruction : Instruction) : TraceM Handle := fun trace =>
  let (handle, extended) := trace.push instruction
  (.ok handle, extended)

/-- Pushes the projections of a tuple, numbered from `index`. -/
def pushElements (source : Handle) (index : Nat) : List Shape → TraceM (List Handle)
  | [] => return []
  | shape :: shapes => do
    let handle ← push ⟨.tupleElement index, [source], shape⟩
    return handle :: (← pushElements source (index + 1) shapes)

/-- Takes the number of the next parameter. -/
def nextParameter : TraceM Nat := fun trace =>
  (.ok trace.parameters, { trace with parameters := trace.parameters + 1 })

end TraceM

namespace TraceCall

/-- Performs the call step by step and returns the handles of its results. -/
def perform : TraceCall → TraceM (List Handle)
  | .parameter shape name => do
    let number ← TraceM.nextParameter
    return [← TraceM.push ⟨.parameter number name, [], shape⟩]
  | .createToken => do
    return [← TraceM.push ⟨.afterAll, [], .token⟩]
  | .allReduce reduction input => do
    let shape ← TraceM.shape input
    return [← TraceM.push ⟨.allReduce reduction false, [input], shape⟩]
  | .allReduceOrdered reduction inputs token pinned => do
    let shapes ← inputs.mapM TraceM.shape
    let shapes := shapes ++ [← TraceM.shape token]
    let source ← TraceM.push ⟨.allReduce reduction pinned, inputs ++ [token], .tuple shapes⟩
    TraceM.pushElements source 0 shapes

/-- The call of the emitting function itself, within an emission. -/
def emitting : TraceCall → EmitM (List Handle)
  | .parameter shape name => return [← EmitM.parameter shape name]
  | .createToken => return [← EmitM.createToken]
  | .allReduce reduction input => return [← EmitM.allReduce reduction input]
  | .allReduceOrdered reduction inputs token pinned =>
    EmitM.allReduceOrdered reduction inputs token pinned

/-- The handles that the call is given. -/
def operands : TraceCall → List Handle
  | .parameter .. | .createToken => []
  | .allReduce _ input => [input]
  | .allReduceOrdered _ inputs token _ => inputs ++ [token]

/-- The instructions that the call emits from position `start` on, with the number of the next
parameter and the shapes of the operands. -/
def block (start number : Nat) (shapes : List Shape) : TraceCall → List Instruction
  | .parameter shape name => [⟨.parameter number name, [], shape⟩]
  | .createToken => [⟨.afterAll, [], .token⟩]
  | .allReduce reduction input =>
    shapes.map fun shape => ⟨.allReduce reduction false, [input], shape⟩
  | .allReduceOrdered reduction inputs token pinned =>
    ⟨.allReduce reduction pinned, inputs ++ [token], .tuple shapes⟩ ::
      Trace.projections ⟨start⟩ 0 shapes

/-- The instructions of the block whose handles the call returns. -/
def answers (start number : Nat) (shapes : List Shape) : TraceCall → List Instruction
  | .allReduceOrdered .. => Trace.projections ⟨start⟩ 0 shapes
  | call => call.block start number shapes

/-- The handles that the call returns. -/
def results (start : Nat) : TraceCall → List Handle
  | .allReduceOrdered _ inputs _ _ => (List.range' (start + 1) (inputs.length + 1)).map Handle.mk
  | _ => [⟨start⟩]

end TraceCall

namespace TraceM

variable {trace : Trace}

theorem shape_run (handle : Handle) (trace : Trace) :
    shape handle trace = (trace.shape handle, trace) := by
  rw [shape, run_bind_ok (run_get trace), run_ofExcept]

/-- Looking up shapes never touches the trace. -/
theorem shapes_run (handles : List Handle) (trace : Trace) :
    handles.mapM shape trace = (handles.mapM trace.shape, trace) := by
  induction handles with
  | nil => rfl
  | cons handle handles ih =>
      rw [List.mapM_cons, List.mapM_cons, run_bind, shape_run]
      cases trace.shape handle with
      | error refusal => rfl
      | ok shape =>
          dsimp only
          rw [run_bind, ih]
          cases handles.mapM trace.shape <;> rfl

theorem push_run {instruction : Instruction} (hopcode : instruction.opcode.isParameter = false)
    (trace : Trace) :
    push instruction trace = (.ok ⟨trace.size⟩, trace.append [instruction]) := by
  rw [push, Trace.push_eq_append trace instruction hopcode]

/-- Pushing the projections one by one appends all of them. -/
theorem pushElements_run (source : Handle) (index : Nat) (shapes : List Shape) (trace : Trace) :
    pushElements source index shapes trace =
      (.ok ((List.range' trace.size shapes.length).map Handle.mk),
        trace.append (Trace.projections source index shapes)) := by
  induction shapes generalizing trace index with
  | nil => simp [pushElements, Trace.append, Trace.projections]
  | cons shape shapes ih =>
      rw [pushElements, run_bind_ok (push_run rfl trace), run_bind_ok (ih _ _)]
      simp [Trace.append_append, Trace.projections, List.range'_succ]

end TraceM

namespace TraceCall

variable {trace : Trace}

/-- All operands of the call were emitted, as values of the given shapes. -/
def Supplied (call : TraceCall) (trace : Trace) (shapes : List Shape) : Prop :=
  List.Forall₂ (fun operand shape => trace.shape operand = .ok shape) call.operands shapes

/-- A call with emitted operands appends its block. -/
theorem perform_of_supplied {call : TraceCall} {shapes : List Shape}
    (hsupplied : call.Supplied trace shapes) :
    call.perform trace = (.ok (call.results trace.size),
      trace.append (call.block trace.size trace.parameters shapes)) := by
  cases call with
  | parameter shape name => rfl
  | createToken =>
      rw [perform, run_bind_ok (TraceM.push_run rfl trace)]
      rfl
  | allReduce reduction input =>
      obtain ⟨shape, _, hshape, hnil, rfl⟩ := List.forall₂_cons_left_iff.mp hsupplied
      obtain rfl := List.forall₂_nil_left_iff.mp hnil
      rw [perform, run_bind, TraceM.shape_run, hshape]
      dsimp only
      rw [run_bind_ok (TraceM.push_run rfl trace)]
      rfl
  | allReduceOrdered reduction inputs token pinned =>
      have hlength := hsupplied.length_eq
      obtain ⟨dataShapes, shape, hdata, hshape, rfl⟩ :=
        (forall₂_concat_iff inputs token shapes).mp hsupplied
      rw [perform, run_bind, TraceM.shapes_run, (mapM_eq_ok_iff _ _ _).mpr hdata]
      dsimp only
      rw [run_bind, TraceM.shape_run, hshape]
      dsimp only
      rw [run_bind_ok (TraceM.push_run rfl trace), TraceM.pushElements_run,
        Trace.append_append, ← hlength]
      simp [results, block, operands]

/-- A call with an operand that was not emitted is refused before anything is pushed. -/
theorem perform_of_refused {call : TraceCall} {refusal : Trace.UnknownHandle}
    (hrefused : call.operands.mapM trace.shape = .error refusal) :
    call.perform trace = (.error refusal, trace) := by
  cases call with
  | parameter shape name => cases hrefused
  | createToken => cases hrefused
  | allReduce reduction input =>
      rw [perform, run_bind, TraceM.shape_run, mapM_singleton_eq_error hrefused]
  | allReduceOrdered reduction inputs token pinned =>
      rw [perform, run_bind, TraceM.shapes_run]
      rcases mapM_concat_eq_error hrefused with hinputs | ⟨shapes, hinputs, htoken⟩
      · rw [hinputs]
      · rw [hinputs]
        dsimp only
        rw [run_bind, TraceM.shape_run, htoken]

/-- The emitting functions do to the trace what the steps do. -/
theorem emitting_run (call : TraceCall) (emission : Emission) :
    call.emitting emission =
      ((call.perform emission.trace).1.mapError fun refusal => .failure (.unknownHandle refusal),
        { emission with trace := (call.perform emission.trace).2 }) := by
  cases hshapes : call.operands.mapM emission.trace.shape with
  | error refusal =>
      rw [perform_of_refused hshapes]
      cases call with
      | parameter shape name => cases hshapes
      | createToken => cases hshapes
      | allReduce reduction input =>
          have hrefused := Trace.allReduce_refused reduction (mapM_singleton_eq_error hshapes)
          exact run_bind_error (EmitM.tryEmit_refused hrefused) _
      | allReduceOrdered reduction inputs token pinned =>
          rw [emitting, EmitM.allReduceOrdered]
          exact EmitM.tryEmit_refused (Trace.allReduceOrdered_refused reduction pinned hshapes)
  | ok shapes =>
      have hsupplied : call.Supplied emission.trace shapes := (mapM_eq_ok_iff _ _ _).mp hshapes
      rw [perform_of_supplied hsupplied]
      cases call with
      | parameter shape name => rfl
      | createToken => rfl
      | allReduce reduction input =>
          obtain ⟨shape, _, hshape, hnil, rfl⟩ := List.forall₂_cons_left_iff.mp hsupplied
          obtain rfl := List.forall₂_nil_left_iff.mp hnil
          have hreduced := Trace.allReduce_eq reduction hshape
          exact run_bind_ok (EmitM.tryEmit_run hreduced) _
      | allReduceOrdered reduction inputs token pinned =>
          have hlength : (inputs ++ [token]).length = shapes.length := hsupplied.length_eq
          have hreduced := Trace.allReduceOrdered_eq reduction pinned hshapes
          rw [← hlength, List.length_append] at hreduced
          rw [emitting, EmitM.allReduceOrdered]
          exact EmitM.tryEmit_run hreduced

end TraceCall

end TensorGraph
