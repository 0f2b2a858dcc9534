import TensorGraph.Proofs.Shape.Text
import TensorGraph.Proofs.Trace.Calls
import TensorGraph.Trace

/-! # Reading programs back

A line shows where its shape, its operation and its operands end, and the attributes take the rest.
So the text of a trace determines its instructions, whatever else the names of parameters contain,
as long as they contain no line break.
-/

namespace TensorGraph

open Text

section Attributes

/-- Numbers are written with digits and a point. -/
theorem Decimal.mem_positional {decimal : Decimal} {char : Char}
    (hmem : char ∈ decimal.positional) : char.isDigit ∨ char = '.' := by
  unfold positional at hmem
  extract_lets places digits padded whole fraction at hmem
  have hpadded : ∀ char ∈ padded, char.isDigit := by
    intro char hmem
    rcases List.mem_append.mp hmem with hmem | hmem
    · obtain rfl := List.eq_of_mem_replicate hmem
      decide
    · exact Nat.isDigit_of_mem_toDigits (by decide) (by decide) hmem
  have hwhole : ∀ char ∈ whole, char.isDigit :=
    fun char hmem => hpadded char (List.mem_of_mem_take hmem)
  split at hmem
  next => exact Or.inl (hwhole char hmem)
  next =>
    rcases List.mem_append.mp hmem with hmem | hmem
    · exact Or.inl (hwhole char hmem)
    rcases List.mem_cons.mp hmem with rfl | hmem
    · exact Or.inr rfl
    have hmem := (List.dropWhile_sublist _).subset (List.mem_reverse.mp hmem)
    exact Or.inl (hpadded char (List.mem_of_mem_drop (List.mem_reverse.mp hmem)))

theorem Binary64.oneLine_text (number : Binary64) : OneLine number.text := by
  have hdigits : '\n' ∉ (RoundingInterval.of number).shortest.positional :=
    fun hmem => absurd (Decimal.mem_positional hmem) (by decide)
  unfold text
  extract_lets sign
  have hsign : OneLine sign := by
    unfold sign
    split <;> simp [OneLine]
  repeat' split
  · simp [OneLine]
  · exact (oneLine_append _ _).mpr ⟨hsign, by simp [OneLine]⟩
  · exact (oneLine_append _ _).mpr ⟨hsign, by simp [OneLine]⟩
  · exact (oneLine_append _ _).mpr ⟨hsign, by simpa [OneLine] using hdigits⟩

theorem Reduction.oneLine_attributes (reduction : Reduction) : OneLine reduction.attributes := by
  have hkind : OneLine reduction.kind.text := by
    cases reduction.kind <;> simp [OneLine, ReductionKind.text]
  have hscale := reduction.scale.oneLine_text
  have hgroups : OneLine (",".intercalate (reduction.groups.map fun members =>
      "\x7b" ++ ",".intercalate (members.map toString) ++ "\x7d")) := by
    refine oneLine_intercalate (by simp [OneLine]) (List.forall_mem_map.mpr fun members _ => ?_)
    have hmembers : OneLine (",".intercalate (members.map toString)) :=
      oneLine_intercalate (by simp [OneLine])
        (List.forall_mem_map.mpr fun member _ => oneLine_integer member)
    simp only [oneLine_append, hmembers]
    simp [OneLine]
  unfold attributes
  split <;> simp only [oneLine_append, hkind, hscale, hgroups] <;> simp [OneLine]

/-- The name of a parameter contains no line break. -/
def Opcode.Legible : Opcode → Prop
  | .parameter _ name => OneLine name
  | _ => True

theorem Opcode.Legible.oneLine_attributes {opcode : Opcode} (hlegible : opcode.Legible) :
    OneLine opcode.attributes := by
  cases opcode with
  | parameter number name =>
      change OneLine ("number=" ++ toString number ++ ", name=" ++ name)
      have hname : OneLine name := hlegible
      simp only [oneLine_append, oneLine_natural, hname]
      simp [OneLine]
  | afterAll => simp [Opcode.attributes, OneLine]
  | allReduce reduction pinned =>
      simp only [Opcode.attributes, oneLine_append, reduction.oneLine_attributes]
      split <;> simp [OneLine]
  | tupleElement index =>
      change OneLine ("index=" ++ toString index)
      simp only [oneLine_append, oneLine_natural]
      simp [OneLine]

end Attributes

namespace Handle

theorem toList_text (handle : Handle) :
    handle.text.toList = '%' :: (toString handle.position).toList := by
  rw [text, String.toList_append]
  rfl

theorem text_injective : Function.Injective fun handle : Handle => handle.text.toList := by
  intro handle other hsame
  simp only [toList_text, List.cons_inj_right, String.toList_inj] at hsame
  exact congrArg mk (Nat.repr_inj.mp hsame)

/-- Operands are read back up to the parenthesis behind them. -/
theorem operands_append_inj {operands operands' : List Handle} {rest rest' : List Char}
    (hsame :
      [',', ' '].intercalate (operands.map fun handle => handle.text.toList) ++ ')' :: rest =
        [',', ' '].intercalate (operands'.map fun handle => handle.text.toList) ++ ')' :: rest') :
    operands = operands' ∧ rest = rest' := by
  have hclosed (handle : Handle) : ',' ∉ handle.text.toList ∧ ')' ∉ handle.text.toList := by
    rw [toList_text]
    have hdigits {mark : Char} (hmark : ¬mark.isDigit) :
        mark ∉ (toString handle.position).toList := mt isDigit_of_mem_toString hmark
    exact ⟨List.not_mem_cons_of_ne_of_not_mem (by decide) (hdigits (by decide)),
      List.not_mem_cons_of_ne_of_not_mem (by decide) (hdigits (by decide))⟩
  exact Text.intercalate_inj_of_notMem (by decide) text_injective hclosed
    (fun handle => by simp [toList_text]) hsame

theorem oneLine_text (handle : Handle) : OneLine handle.text := by
  rw [text, oneLine_append]
  exact ⟨by simp [OneLine], oneLine_natural _⟩

end Handle

namespace Opcode

theorem parenthesis_notMem_name (opcode : Opcode) : ∀ mark ∈ ['('], mark ∉ opcode.name.toList := by
  cases opcode <;> simp [name]

theorem oneLine_name (opcode : Opcode) : OneLine opcode.name := by
  cases opcode <;> simp [name, OneLine]

end Opcode

namespace Instruction

/-- The instructions have the same operation, operands, shape and attributes as far as these are
written. -/
structure Alike (instruction other : Instruction) : Prop where
  name : instruction.opcode.name = other.opcode.name
  operands : instruction.operands = other.operands
  shape : instruction.shape = other.shape
  attributes : instruction.opcode.attributes = other.opcode.attributes

/-- The line of the instruction can be read. -/
structure Legible (instruction : Instruction) : Prop where
  opcode : instruction.opcode.Legible
  shape : instruction.shape.Standard

variable {instruction other : Instruction}

/-- What stands behind the operands. -/
def attributesSuffix (attributes : String) : String :=
  if attributes = "" then "" else ", " ++ attributes

theorem attributesSuffix_inj {attributes attributes' : String}
    (hsame : attributesSuffix attributes = attributesSuffix attributes') :
    attributes = attributes' := by
  unfold attributesSuffix at hsame
  split at hsame <;> split at hsame
  next hnone hnone' => rw [hnone, hnone']
  next => simp at hsame
  next => simp at hsame
  next => simpa using hsame

theorem oneLine_attributesSuffix {attributes : String} (hattributes : OneLine attributes) :
    OneLine (attributesSuffix attributes) := by
  unfold attributesSuffix
  split
  next => simp [OneLine]
  next => exact (oneLine_append _ _).mpr ⟨by simp [OneLine], hattributes⟩

theorem line_eq (instruction : Instruction) (position : Nat) :
    instruction.line position =
      (Handle.mk position).text ++ " = " ++ instruction.shape.text ++ " " ++
        instruction.opcode.name ++ "(" ++
        ", ".intercalate (instruction.operands.map Handle.text) ++ ")" ++
        attributesSuffix instruction.opcode.attributes := rfl

theorem toList_line (instruction : Instruction) (position : Nat) :
    (instruction.line position).toList =
      (Handle.mk position).text.toList ++ ' ' :: '=' :: ' ' :: (instruction.shape.text.toList ++
        ' ' :: (instruction.opcode.name.toList ++ '(' ::
          ([',', ' '].intercalate (instruction.operands.map fun handle => handle.text.toList) ++
            ')' :: (attributesSuffix instruction.opcode.attributes).toList))) := by
  simp [line_eq, String.toList_intercalate, Function.comp_def]

/-- Lines at the same position are equal exactly if the instructions are alike. -/
theorem line_eq_iff (hlegible : instruction.Legible) (hlegible' : other.Legible) (position : Nat) :
    instruction.line position = other.line position ↔ instruction.Alike other := by
  constructor
  · intro hsame
    rw [← String.toList_inj, toList_line, toList_line] at hsame
    simp only [List.append_cancel_left_eq, List.cons_inj_right] at hsame
    obtain ⟨hshape, hafter⟩ := hlegible.shape.text_append_inj hlegible'.shape hsame
    obtain ⟨hname, hafter⟩ := append_inj_of_goesOn instruction.opcode.parenthesis_notMem_name
      other.opcode.parenthesis_notMem_name (.intro List.mem_cons_self _)
      (.intro List.mem_cons_self _) (List.cons.inj hafter).2
    obtain ⟨hoperands, hafter⟩ := Handle.operands_append_inj (List.cons.inj hafter).2
    exact ⟨String.toList_inj.mp hname, hoperands, hshape,
      attributesSuffix_inj (String.toList_inj.mp hafter)⟩
  · rintro ⟨hname, hoperands, hshape, hattributes⟩
    rw [line, line, hname, hoperands, hshape, hattributes]

theorem Legible.oneLine_line (hlegible : instruction.Legible) (position : Nat) :
    OneLine (instruction.line position) := by
  have hoperands : OneLine (", ".intercalate (instruction.operands.map Handle.text)) :=
    oneLine_intercalate (by simp [OneLine])
      (List.forall_mem_map.mpr fun handle _ => handle.oneLine_text)
  have hattributes := oneLine_attributesSuffix hlegible.opcode.oneLine_attributes
  simp only [line_eq, oneLine_append, Handle.oneLine_text, hlegible.shape.oneLine_text,
    instruction.opcode.oneLine_name, hoperands, hattributes]
  simp [OneLine]

theorem line_ne_empty (instruction : Instruction) (position : Nat) :
    instruction.line position ≠ "" := by
  rw [Ne, ← String.toList_eq_nil_iff, toList_line, Handle.toList_text]
  exact List.cons_ne_nil _ _

end Instruction

namespace Trace

def lines (trace : Trace) : List String :=
  trace.instructions.toList.mapIdx fun position instruction => instruction.line position

/-- All lines of the trace can be read. -/
def Legible (trace : Trace) : Prop :=
  ∀ instruction ∈ trace.instructions.toList, instruction.Legible

/-- Legible traces have the same text exactly if their instructions are alike. -/
theorem Legible.text_eq_iff {trace other : Trace} (hlegible : trace.Legible)
    (hlegible' : other.Legible) :
    trace.text = other.text ↔
      List.Forall₂ Instruction.Alike trace.instructions.toList other.instructions.toList := by
  have hlines {trace : Trace} (hlegible : trace.Legible) :
      ∀ line ∈ trace.lines, line ≠ "" ∧ OneLine line := by
    intro line hmem
    obtain ⟨position, hposition, rfl⟩ := List.mem_mapIdx.mp hmem
    exact ⟨Instruction.line_ne_empty _ _,
      (hlegible _ (List.getElem_mem hposition)).oneLine_line position⟩
  calc trace.text = other.text
    _ ↔ trace.lines = other.lines :=
      ⟨lines_inj (hlines hlegible) (hlines hlegible'), congrArg "\n".intercalate⟩
    _ ↔ _ := by
      rw [List.ext_getElem_iff, List.forall₂_iff_get, lines, lines]
      simp only [List.length_mapIdx, List.getElem_mapIdx, List.get_eq_getElem]
      refine and_congr_right fun _ => forall₃_congr fun position hposition hposition' => ?_
      exact Instruction.line_eq_iff (hlegible _ (List.getElem_mem hposition))
        (hlegible' _ (List.getElem_mem hposition')) position

end Trace

namespace TraceCall

/-- A parameter has a standard shape and a name without a line break. -/
def Legible : TraceCall → Prop
  | .parameter shape name => shape.Standard ∧ OneLine name
  | _ => True

variable {call : TraceCall} {trace : Trace} {shapes : List Shape}

theorem standard_of_supplied (htrace : trace.Legible) (hsupplied : call.Supplied trace shapes) :
    ∀ shape ∈ shapes, shape.Standard := by
  intro shape hmem
  obtain ⟨position, hposition⟩ := List.getElem?_of_mem hmem
  obtain ⟨operand, _, hshape⟩ := ListRelations.forall₂_getElem? hsupplied.flip hposition
  obtain ⟨instruction, hinstruction, rfl⟩ := (trace.shape_eq_ok_iff operand shape).mp hshape
  exact (htrace instruction (Array.mem_toList_iff.mpr (Array.mem_of_getElem? hinstruction))).shape

/-- The shapes of a block are those of the call and of its operands. -/
theorem legible_block (hcall : call.Legible) (hshapes : ∀ shape ∈ shapes, shape.Standard)
    (start number : Nat) :
    ∀ instruction ∈ call.block start number shapes, instruction.Legible := by
  cases call with
  | parameter shape name =>
      obtain ⟨hshape, hname⟩ := hcall
      exact List.forall_mem_singleton.mpr ⟨hname, hshape⟩
  | createToken =>
      exact List.forall_mem_singleton.mpr ⟨trivial, .array (by simp [ElementType.standard])⟩
  | allReduce reduction input =>
      exact List.forall_mem_map.mpr fun shape hmem => ⟨trivial, hshapes shape hmem⟩
  | allReduceOrdered reduction inputs token pinned =>
      refine List.forall_mem_cons.mpr ⟨⟨trivial, .tuple hshapes⟩, List.forall_mem_map.mpr ?_⟩
      rintro ⟨shape, position⟩ hmem
      exact ⟨trivial, hshapes shape (List.fst_mem_of_mem_zipIdx hmem)⟩

theorem legible_perform (htrace : trace.Legible) (hcall : call.Legible) :
    (call.perform trace).2.Legible := by
  rcases call.perform_cases trace with ⟨_, _, _, hperform⟩ | ⟨shapes, hsupplied, hperform⟩
  · rw [hperform]
    exact htrace
  · rw [hperform]
    intro instruction hmem
    rw [Trace.append, Array.toList_append, List.toList_toArray, List.mem_append] at hmem
    rcases hmem with hmem | hmem
    · exact htrace instruction hmem
    · exact legible_block hcall (standard_of_supplied htrace hsupplied) _ _ instruction hmem

theorem legible_run {calls : List TraceCall} (htrace : trace.Legible)
    (hcalls : ∀ call ∈ calls, call.Legible) : (run calls trace).2.Legible := by
  induction calls generalizing trace with
  | nil => exact htrace
  | cons call calls ih =>
      obtain ⟨hcall, hcalls⟩ := List.forall_mem_cons.mp hcalls
      rw [run_cons]
      exact ih (legible_perform htrace hcall) hcalls

/-- Whatever calls with standard shapes and names without line breaks make two traces, refused ones
included, the traces have the same text exactly if they hold the same instructions: as many, with
the same operations, operands, shapes and attributes. -/
theorem run_text_eq_iff {calls calls' : List TraceCall} (hcalls : ∀ call ∈ calls, call.Legible)
    (hcalls' : ∀ call ∈ calls', call.Legible) :
    (run calls {}).2.text = (run calls' {}).2.text ↔
      List.Forall₂ Instruction.Alike (run calls {}).2.instructions.toList
        (run calls' {}).2.instructions.toList := by
  have hempty : Trace.Legible {} := fun _ hmem => nomatch hmem
  exact (legible_run hempty hcalls).text_eq_iff (legible_run hempty hcalls')

/-- A refused call leaves no mark in a text, and shapes that are nested differently do, also in
front of a name that looks like the end of a line. -/
theorem run_text_eq_iff_nested :
    let named (shape : Shape) : TraceCall := .parameter shape "x), index=0, name=(%1"
    let rest : List TraceCall :=
      [.createToken, .allReduceOrdered ⟨.sum, .one, [[0, 1], []]⟩ [⟨0⟩] ⟨1⟩ true]
    let array : Shape := .array .float32 [2, Shape.unboundedSize]
    let calls := named (.tuple [.tuple [], array]) :: rest
    let refused := .allReduce ⟨.sum, .one, []⟩ ⟨7⟩ :: calls
    let nested := named (.tuple [.tuple [array]]) :: rest
    (run calls {}).2.text = (run refused {}).2.text ∧
      (run calls {}).2.text ≠ (run nested {}).2.text := by
  intro named rest array calls refused nested
  have harray : array.Standard := .array (by simp [ElementType.standard])
  have hname : OneLine "x), index=0, name=(%1" := by simp [OneLine]
  have hrest : ∀ call ∈ rest, call.Legible := by simp [rest, Legible]
  have hentries : (Shape.tuple [.tuple [], array]).Standard :=
    .tuple (by simpa using ⟨.tuple (by simp), harray⟩)
  have hnested : (Shape.tuple [.tuple [array]]).Standard :=
    .tuple (by simpa using .tuple (by simpa using harray))
  have hcalls : ∀ call ∈ calls, call.Legible :=
    List.forall_mem_cons.mpr ⟨⟨hentries, hname⟩, hrest⟩
  have hrefused : ∀ call ∈ refused, call.Legible := List.forall_mem_cons.mpr ⟨trivial, hcalls⟩
  have hregrouped : ∀ call ∈ nested, call.Legible :=
    List.forall_mem_cons.mpr ⟨⟨hnested, hname⟩, hrest⟩
  constructor
  · refine (run_text_eq_iff hcalls hrefused).mpr ?_
    have hsame : (run refused {}).2 = (run calls {}).2 := by decide +kernel
    rw [hsame]
    exact List.forall₂_same.mpr fun _ _ => ⟨rfl, rfl, rfl, rfl⟩
  · intro hsame
    have halike := (run_text_eq_iff hcalls hregrouped).mp hsame
    have hfirst :=
      (List.forall₂_iff_get.mp halike).2 0 (by decide +kernel) (by decide +kernel)
    exact absurd hfirst.shape (by decide +kernel)

end TraceCall

end TensorGraph
