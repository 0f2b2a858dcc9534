import TensorGraph.Proofs.Emission.Growth
import TensorGraph.Proofs.Lowering.Program
import TensorGraph.Proofs.Trace.Steps

/-! # Traces only ever hold well-formed programs

Whatever sequence of calls makes a trace, with whatever handles: a call is refused
exactly if it names a handle that was not emitted, and otherwise appends its block.
A block reads only what stands before it and goes on numbering the parameters, so
the program stays well-formed, and the handles of different calls are different.
-/

namespace TensorGraph

open Effects ListRelations

/-- A call with its answer and the traces around it. -/
structure TraceRecord where
  call : TraceCall
  before : Trace
  answer : Except Trace.UnknownHandle (List Handle)
  after : Trace

/-- Performs the calls one after the other, whether or not they are refused, and records them. -/
def TraceCall.run : List TraceCall → Trace → List TraceRecord × Trace
  | [], trace => ([], trace)
  | call :: calls, trace =>
    let (answer, after) := call.perform trace
    let (records, final) := run calls after
    (⟨call, trace, answer, after⟩ :: records, final)

/-- The handles that calls have returned, in the order of the calls. -/
def returnedHandles (records : List TraceRecord) : List Handle :=
  records.flatMap fun record => record.answer.toOption.getD []

namespace Trace

/-- Instructions only read what stands before them. -/
def Backward (trace : Trace) : Prop :=
  ∀ (position : Nat) (instruction : Instruction),
    trace.instructions[position]? = some instruction →
      ∀ operand ∈ instruction.operands, operand.position < position

/-- The handles name these instructions, position by position. -/
def Names (trace : Trace) (handles : List Handle) (instructions : List Instruction) : Prop :=
  List.Forall₂ (fun handle instruction =>
    trace.instructions[handle.position]? = some instruction) handles instructions

theorem Backward.empty : Backward {} := by
  intro position instruction hinstruction
  simp at hinstruction

theorem Backward.append {trace : Trace} (hbackward : trace.Backward) {block : List Instruction}
    (hblock : ∀ (offset : Nat) (instruction : Instruction), block[offset]? = some instruction →
      ∀ operand ∈ instruction.operands, operand.position < trace.size + offset) :
    (trace.append block).Backward := by
  intro position instruction hinstruction
  rw [Trace.append, Array.getElem?_append] at hinstruction
  split at hinstruction
  next hlt => exact hbackward position instruction hinstruction
  next hge =>
    rw [List.getElem?_toArray] at hinstruction
    have hposition : trace.size + (position - trace.instructions.size) = position :=
      Nat.add_sub_cancel' (Nat.le_of_not_lt hge)
    rw [← hposition]
    exact hblock _ instruction hinstruction

/-- The positions of a block name its instructions. -/
theorem Holds.names {trace : Trace} {start : Nat} {block : List Instruction}
    (hholds : trace.Holds start block) :
    trace.Names ((List.range' start block.length).map Handle.mk) block := by
  induction block generalizing start with
  | nil => exact .nil
  | cons instruction block ih =>
      rw [List.length_cons, List.range'_succ, List.map_cons]
      refine .cons (hholds 0 instruction rfl) (ih fun offset found hfound => ?_)
      rw [Nat.add_right_comm]
      exact hholds (offset + 1) found hfound

theorem Holds.right {trace : Trace} {start : Nat} {front block : List Instruction}
    (hholds : trace.Holds start (front ++ block)) : trace.Holds (start + front.length) block := by
  intro offset instruction hinstruction
  rw [Nat.add_assoc]
  apply hholds
  rw [List.getElem?_append_right (Nat.le_add_right _ _), Nat.add_sub_cancel_left]
  exact hinstruction

theorem eq_of_shape_eq_error {trace : Trace} {handle : Handle} {refusal : UnknownHandle}
    (hshape : trace.shape handle = .error refusal) :
    refusal = ⟨handle⟩ ∧ trace.size ≤ handle.position := by
  unfold Trace.shape Trace.instruction at hshape
  cases hinstruction : trace.instructions[handle.position]? with
  | none =>
      rw [hinstruction] at hshape
      cases hshape
      exact ⟨rfl, Array.getElem?_eq_none_iff.mp hinstruction⟩
  | some instruction =>
      rw [hinstruction] at hshape
      cases hshape

end Trace

/-- A call that names a handle which was not emitted is refused and leaves the trace. Any other call
appends its block, which the final trace still holds, and returns handles of its results. -/
inductive TraceRecord.Sound (record : TraceRecord) (final : Trace) : Prop
  | refused (operand : Handle) : operand ∈ record.call.operands →
      record.before.size ≤ operand.position → record.answer = .error ⟨operand⟩ →
      record.after = record.before → Sound record final
  | emitted (handles : List Handle) (shapes : List Shape) :
      record.call.Supplied record.before shapes →
      record.answer = .ok handles →
      record.after = record.before.append
        (record.call.block record.before.size record.before.parameters shapes) →
      final.Holds record.before.size
        (record.call.block record.before.size record.before.parameters shapes) →
      final.Names handles
        (record.call.answers record.before.size record.before.parameters shapes) →
      Sound record final

namespace TraceCall

variable {call : TraceCall} {trace : Trace} {shapes : List Shape}

theorem perform_cases (call : TraceCall) (trace : Trace) :
    (∃ operand ∈ call.operands, trace.size ≤ operand.position ∧
        call.perform trace = (.error ⟨operand⟩, trace)) ∨
      ∃ shapes, call.Supplied trace shapes ∧
        call.perform trace = (.ok (call.results trace.size),
          trace.append (call.block trace.size trace.parameters shapes)) := by
  cases hshapes : call.operands.mapM trace.shape with
  | error refusal =>
      obtain ⟨operand, hoperand, hshape⟩ := exists_of_mapM_eq_error hshapes
      obtain ⟨rfl, hunknown⟩ := Trace.eq_of_shape_eq_error hshape
      exact Or.inl ⟨operand, hoperand, hunknown, perform_of_refused hshapes⟩
  | ok shapes =>
      have hsupplied : call.Supplied trace shapes := (mapM_eq_ok_iff _ _ _).mp hshapes
      exact Or.inr ⟨shapes, hsupplied, perform_of_supplied hsupplied⟩

/-- The results of a call are the last instructions of its block. -/
theorem exists_block_eq (hsupplied : call.Supplied trace shapes) (start number : Nat) :
    ∃ front, call.block start number shapes = front ++ call.answers start number shapes ∧
      call.results start = (List.range' (start + front.length)
        (call.answers start number shapes).length).map Handle.mk := by
  cases call with
  | parameter shape name => exact ⟨[], rfl, rfl⟩
  | createToken => exact ⟨[], rfl, rfl⟩
  | allReduce reduction input =>
      obtain ⟨shape, _, _, hnil, rfl⟩ := List.forall₂_cons_left_iff.mp hsupplied
      obtain rfl := List.forall₂_nil_left_iff.mp hnil
      exact ⟨[], rfl, rfl⟩
  | allReduceOrdered reduction inputs token pinned =>
      have hlength : (inputs ++ [token]).length = shapes.length := hsupplied.length_eq
      refine ⟨[⟨.allReduce reduction pinned, inputs ++ [token], .tuple shapes⟩], rfl, ?_⟩
      simp [results, answers, Trace.projections, ← hlength]

theorem operand_lt_size (hsupplied : call.Supplied trace shapes) :
    ∀ operand ∈ call.operands, operand.position < trace.size := by
  intro operand hoperand
  obtain ⟨position, hposition⟩ := List.getElem?_of_mem hoperand
  obtain ⟨shape, _, hshape⟩ := forall₂_getElem? hsupplied hposition
  exact Trace.lt_size_of_shape hshape

/-- A block reads the operands of the call, and in projections its own first instruction. -/
theorem operand_lt_of_block (hsupplied : call.Supplied trace shapes) (number offset : Nat)
    {instruction : Instruction}
    (hinstruction : (call.block trace.size number shapes)[offset]? = some instruction) :
    ∀ operand ∈ instruction.operands, operand.position < trace.size + offset := by
  have hknown := operand_lt_size hsupplied
  intro operand hoperand
  cases call with
  | parameter shape name =>
      obtain rfl := List.mem_singleton.mp (List.mem_of_getElem? hinstruction)
      cases hoperand
  | createToken =>
      obtain rfl := List.mem_singleton.mp (List.mem_of_getElem? hinstruction)
      cases hoperand
  | allReduce reduction input =>
      obtain ⟨shape, _, rfl⟩ := List.mem_map.mp (List.mem_of_getElem? hinstruction)
      exact Nat.lt_add_right _ (hknown operand hoperand)
  | allReduceOrdered reduction inputs token pinned =>
      cases offset with
      | zero =>
          obtain rfl := Option.some.inj hinstruction
          exact hknown operand hoperand
      | succ offset =>
          obtain ⟨pair, _, rfl⟩ := List.mem_map.mp (List.mem_of_getElem? hinstruction)
          obtain rfl := List.mem_singleton.mp hoperand
          exact Nat.lt_add_of_pos_right (Nat.succ_pos offset)

theorem parameterNumbers_block (call : TraceCall) (start number : Nat) (shapes : List Shape) :
    parameterNumbers (call.block start number shapes) =
      List.range' number (parameterNumbers (call.block start number shapes)).length := by
  cases call with
  | parameter shape name => rfl
  | createToken => rfl
  | allReduce reduction input =>
      have hnone :
          parameterNumbers ((allReduce reduction input).block start number shapes) = [] := by
        simp [parameterNumbers, block, Opcode.number?]
      rw [hnone]
      rfl
  | allReduceOrdered reduction inputs token pinned =>
      have hnone : parameterNumbers
          ((allReduceOrdered reduction inputs token pinned).block start number shapes) = [] := by
        simp [parameterNumbers, block, Trace.projections, Opcode.number?]
      rw [hnone]
      rfl

section Step

variable (call : TraceCall)

/-- A call keeps the program well-formed and the instructions in place. -/
theorem perform_preserves (hbackward : trace.Backward) (hnumbered : trace.Numbered) :
    (call.perform trace).2.Backward ∧ (call.perform trace).2.Numbered ∧
      (call.perform trace).2.Extends trace := by
  rcases call.perform_cases trace with ⟨operand, _, _, hperform⟩ | ⟨shapes, hsupplied, hperform⟩
  · rw [hperform]
    exact ⟨hbackward, hnumbered, .refl trace⟩
  · rw [hperform]
    exact ⟨hbackward.append fun offset _ => operand_lt_of_block hsupplied _ offset,
      hnumbered.append (call.parameterNumbers_block _ _ shapes), trace.extends_append _⟩

/-- Whatever is emitted after a call, the call stays accounted for. -/
theorem sound_perform {final : Trace} (hfinal : final.Extends (call.perform trace).2) :
    TraceRecord.Sound ⟨call, trace, (call.perform trace).1, (call.perform trace).2⟩ final := by
  rcases call.perform_cases trace with
    ⟨operand, hoperand, hunknown, hperform⟩ | ⟨shapes, hsupplied, hperform⟩
  · rw [hperform]
    exact .refused operand hoperand hunknown rfl rfl
  · rw [hperform] at hfinal ⊢
    have hholds := hfinal.holds (trace.holds_append _)
    obtain ⟨front, hblock, hresults⟩ := exists_block_eq hsupplied trace.size trace.parameters
    refine .emitted _ shapes hsupplied rfl rfl hholds ?_
    rw [hblock] at hholds
    rw [hresults]
    exact hholds.right.names

/-- The handles that a call returns are new positions, in increasing order. -/
theorem returned_perform (trace : Trace) :
    let handles := (call.perform trace).1.toOption.getD []
    handles.Pairwise (fun one other => one.position < other.position) ∧
      ∀ handle ∈ handles, trace.size ≤ handle.position ∧
        handle.position < (call.perform trace).2.size := by
  rcases call.perform_cases trace with ⟨operand, _, _, hperform⟩ | ⟨shapes, hsupplied, hperform⟩
  · rw [hperform]
    exact ⟨.nil, fun _ hmem => nomatch hmem⟩
  · obtain ⟨front, hblock, hresults⟩ := exists_block_eq hsupplied trace.size trace.parameters
    rw [hperform]
    simp only [Except.toOption, Option.getD_some, hresults, Trace.size_append, hblock,
      List.length_append]
    constructor
    · exact List.pairwise_map.mpr List.pairwise_lt_range'
    · intro handle hmem
      obtain ⟨position, hposition, rfl⟩ := List.mem_map.mp hmem
      have hrange := List.mem_range'_1.mp hposition
      dsimp only
      omega

end Step

theorem run_cons (call : TraceCall) (calls : List TraceCall) (trace : Trace) :
    run (call :: calls) trace =
      let result := call.perform trace
      (⟨call, trace, result.1, result.2⟩ :: (run calls result.2).1, (run calls result.2).2) := rfl

/-- What single calls preserve, their sequence preserves; each adds to what is there. -/
theorem run_sound (calls : List TraceCall) (hbackward : trace.Backward)
    (hnumbered : trace.Numbered) :
    let outcome := run calls trace
    outcome.2.Backward ∧ outcome.2.Numbered ∧ outcome.2.Extends trace ∧
      (∀ record ∈ outcome.1, record.Sound outcome.2 ∧ record.after.Extends record.before ∧
        outcome.2.Extends record.after) ∧
      (returnedHandles outcome.1).Pairwise (fun one other => one.position < other.position) ∧
      ∀ handle ∈ returnedHandles outcome.1, trace.size ≤ handle.position := by
  induction calls generalizing trace with
  | nil =>
      refine ⟨hbackward, hnumbered, .refl trace, ?_, .nil, ?_⟩
      · simp [run]
      · simp [run, returnedHandles]
  | cons call calls ih =>
      obtain ⟨hbackward', hnumbered', hextends⟩ := call.perform_preserves hbackward hnumbered
      obtain ⟨hfinal, hfinal', hlater, hrecords, hrest, hlower⟩ := ih hbackward' hnumbered'
      obtain ⟨hfirst, hbounds⟩ := call.returned_perform trace
      rw [run_cons]
      refine ⟨hfinal, hfinal', hlater.trans hextends, List.forall_mem_cons.mpr ⟨?_, hrecords⟩,
        List.pairwise_append.mpr ⟨hfirst, hrest, fun one hone other hother => ?_⟩,
        fun handle hmem => ?_⟩
      · exact ⟨call.sound_perform hlater, hextends, hlater⟩
      -- what the first call returns is below the trace it leaves, and the rest is not
      · exact Nat.lt_of_lt_of_le (hbounds one hone).2 (hlower other hother)
      · rcases List.mem_append.mp hmem with hmem | hmem
        · exact (hbounds handle hmem).1
        · exact Nat.le_trans hextends.size_le (hlower handle hmem)

theorem perform_of_mem_run {calls : List TraceCall} {record : TraceRecord}
    (hmem : record ∈ (run calls trace).1) :
    record.call.perform record.before = (record.answer, record.after) := by
  induction calls generalizing trace with
  | nil => cases hmem
  | cons call calls ih =>
      rw [run_cons] at hmem
      rcases List.mem_cons.mp hmem with rfl | hmem
      · rfl
      · exact ih hmem

/-- Whatever calls make a trace, with whatever handles, instructions read earlier ones and
parameters are numbered in their order. A call that names an unknown handle is refused and leaves
the trace; any other leaves its block, which nothing changes later, and returns the positions of its
results. No position is returned twice. The emitting functions of a lowering are these calls. -/
theorem run_wellFormed (calls : List TraceCall) :
    let outcome := run calls {}
    outcome.2.Backward ∧ outcome.2.Numbered ∧
      (∀ record ∈ outcome.1, record.Sound outcome.2 ∧
        record.after.Extends record.before ∧ outcome.2.Extends record.after ∧
        ∀ handles, record.call.emitting ⟨record.before, handles⟩ =
          (record.answer.mapError fun refusal => .failure (.unknownHandle refusal),
            ⟨record.after, handles⟩)) ∧
      (returnedHandles outcome.1).Pairwise fun one other => one.position < other.position := by
  obtain ⟨hbackward, hnumbered, _, hrecords, hreturned, _⟩ :=
    run_sound calls Trace.Backward.empty (show Trace.Numbered {} from rfl)
  refine ⟨hbackward, hnumbered, fun record hmem => ?_, hreturned⟩
  obtain ⟨hsound, hgrown, hlater⟩ := hrecords record hmem
  refine ⟨hsound, hgrown, hlater, fun handles => ?_⟩
  rw [emitting_run]
  simp only [perform_of_mem_run hmem]

/-- The third call is refused, and the positions go on as if it had not been made. -/
example :
    (run [.createToken, .parameter (.scalar .float32) "x", .allReduce ⟨.sum, .one, []⟩ ⟨7⟩,
      .allReduceOrdered ⟨.sum, .one, []⟩ [⟨1⟩] ⟨0⟩ false] {}).1.map
        (fun record => record.answer.toOption) =
      [some [⟨0⟩], some [⟨1⟩], none, some [⟨3⟩, ⟨4⟩]] := by decide +kernel

end TraceCall

end TensorGraph
