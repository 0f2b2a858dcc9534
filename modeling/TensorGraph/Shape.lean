import TensorGraph.Checked

/-!
# Shapes

The shape of a value: an array of a given element type and dimensions, or a
tuple of shapes. A node with several outputs has a tuple with one entry per output.

An array is written as its element type and its dimensions in brackets, with a
question mark for an unbounded dimension; a tuple as its entries in parentheses.
A shape with an unbounded dimension or a negative element count has no byte size;
a size outside the 64-bit range is an overflow.
-/

namespace TensorGraph

/-- The type of the elements of an array. -/
structure ElementType where
  size : Nat
  name : String
  deriving DecidableEq

namespace ElementType

def pred : ElementType := ⟨1, "pred"⟩
def float16 : ElementType := ⟨2, "f16"⟩
def bfloat16 : ElementType := ⟨2, "bf16"⟩
def float32 : ElementType := ⟨4, "f32"⟩
def float64 : ElementType := ⟨8, "f64"⟩
def int8 : ElementType := ⟨1, "s8"⟩
def int16 : ElementType := ⟨2, "s16"⟩
def int32 : ElementType := ⟨4, "s32"⟩
def int64 : ElementType := ⟨8, "s64"⟩
def uint8 : ElementType := ⟨1, "u8"⟩
def uint16 : ElementType := ⟨2, "u16"⟩
def uint32 : ElementType := ⟨4, "u32"⟩
def uint64 : ElementType := ⟨8, "u64"⟩

/-- The type of ordering tokens, which carry no data. -/
def token : ElementType := ⟨0, "token"⟩

/-- The element types known by name. -/
def standard : List ElementType :=
  [pred, float16, bfloat16, float32, float64, int8, int16, int32, int64,
    uint8, uint16, uint32, uint64, token]

/-- The standard element type of the given name. -/
def ofName? (name : String) : Option ElementType :=
  standard.find? fun elementType => elementType.name == name

/-- A token is known by its size and name together. -/
def isToken (elementType : ElementType) : Bool := elementType = token

end ElementType

/-- The shape of a node's output. -/
inductive Shape where
  | array (elementType : ElementType) (dims : List Int)
  | tuple (elements : List Shape)

namespace Shape

mutual

def decideEq : (left right : Shape) → Decidable (left = right)
  | .array leftType leftDims, .array rightType rightDims =>
    if same : leftType = rightType ∧ leftDims = rightDims then
      .isTrue (by rw [same.1, same.2])
    else
      .isFalse fun equal => same (by injection equal with types dims; exact ⟨types, dims⟩)
  | .tuple left, .tuple right =>
    match decideEqAll left right with
    | .isTrue same => .isTrue (by rw [same])
    | .isFalse differ => .isFalse fun equal => differ (by injection equal)
  | .array .., .tuple .. => .isFalse fun equal => by cases equal
  | .tuple .., .array .. => .isFalse fun equal => by cases equal

def decideEqAll : (left right : List Shape) → Decidable (left = right)
  | [], [] => .isTrue rfl
  | [], _ :: _ => .isFalse fun equal => by cases equal
  | _ :: _, [] => .isFalse fun equal => by cases equal
  | left :: lefts, right :: rights =>
    match decideEq left right, decideEqAll lefts rights with
    | .isTrue head, .isTrue tail => .isTrue (by rw [head, tail])
    | .isFalse differ, _ => .isFalse fun equal => differ (by injection equal)
    | _, .isFalse differ => .isFalse fun equal => differ (by injection equal)

end

instance : DecidableEq Shape := decideEq

/-- The size that marks a dimension as unbounded, the least signed 64-bit number. -/
def unboundedSize : Int := -9223372036854775808

def scalar (elementType : ElementType) : Shape := .array elementType []

/-- The shape of an ordering token. -/
def token : Shape := scalar .token

def isTuple : Shape → Bool
  | .tuple _ => true
  | .array .. => false

def isToken : Shape → Bool
  | .array elementType _ => elementType.isToken
  | .tuple _ => false

/-- The entries of a tuple; an array has none. -/
def elements : Shape → List Shape
  | .tuple elements => elements
  | .array .. => []

/-- The number of entries of a tuple, zero for an array. -/
def arity (shape : Shape) : Nat := shape.elements.length

def elementType? : Shape → Option ElementType
  | .array elementType _ => some elementType
  | .tuple _ => none

/-- The dimensions of an array; a tuple has none. -/
def dims : Shape → List Int
  | .array _ dims => dims
  | .tuple _ => []

def rank (shape : Shape) : Nat := shape.dims.length

/-- Some dimension is unbounded. -/
def isUnbounded (shape : Shape) : Bool := shape.dims.any (· == unboundedSize)

/-- The dimension at `index` exists and is unbounded. -/
def isUnboundedAt (shape : Shape) (index : Nat) : Bool := shape.dims[index]? == some unboundedSize

def dimensionText (size : Int) : String :=
  if size = unboundedSize then "?" else toString size

mutual

/-- Dimensions are separated by commas alone, tuple entries by a comma and a blank. -/
def text : Shape → String
  | .array elementType dims =>
    elementType.name ++ "[" ++ ",".intercalate (dims.map dimensionText) ++ "]"
  | .tuple elements => "(" ++ ", ".intercalate (textAll elements) ++ ")"

def textAll : List Shape → List String
  | [] => []
  | shape :: shapes => shape.text :: textAll shapes

end

/-- The number of elements, absent for tuples and unbounded arrays. -/
def elementCount (shape : Shape) : Except Overflow (Option Int) :=
  match shape with
  | .tuple _ => .ok none
  | .array _ dims =>
    if shape.isUnbounded then .ok none else some <$> Checked.product dims

mutual

/-- The number of bytes. The entries of a tuple are added from left to right, and the sum is
absent as soon as an entry has no size, so that later entries are not looked at. -/
def byteSize : Shape → Except Overflow (Option Nat)
  | .array elementType dims => do
    match ← elementCount (.array elementType dims) with
    | some count =>
      if count < 0 then return none
      else some <$> Checked.mulUnsigned count.toNat elementType.size
    | none => return none
  | .tuple elements => byteSizeFrom 0 elements

/-- Adds the sizes of the given shapes to `total`. -/
def byteSizeFrom (total : Nat) : List Shape → Except Overflow (Option Nat)
  | [] => .ok (some total)
  | shape :: shapes => do
    match ← shape.byteSize with
    | some size => byteSizeFrom (← Checked.addUnsigned total size) shapes
    | none => return none

end

end Shape

end TensorGraph
