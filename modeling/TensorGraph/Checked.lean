/-!
# Checked arithmetic

Element counts are signed and byte counts unsigned 64-bit quantities. A result
that does not fit is an error, never a wrapped number.
-/

namespace TensorGraph

/-- The operation whose result did not fit. -/
inductive Overflow where
  | addition
  | multiplication
  deriving DecidableEq

namespace Overflow

def message : Overflow → String
  | .addition => "attempt to add with overflow"
  | .multiplication => "attempt to multiply with overflow"

end Overflow

namespace Checked

/-- Membership in the signed 64-bit range. -/
def FitsSigned (value : Int) : Prop :=
  -9223372036854775808 ≤ value ∧ value < 9223372036854775808

instance (value : Int) : Decidable (FitsSigned value) :=
  inferInstanceAs (Decidable (_ ∧ _))

/-- Membership in the unsigned 64-bit range. -/
def FitsUnsigned (value : Nat) : Prop := value < 18446744073709551616

instance (value : Nat) : Decidable (FitsUnsigned value) :=
  inferInstanceAs (Decidable (_ < _))

/-- A signed product. -/
def mulSigned (left right : Int) : Except Overflow Int :=
  if FitsSigned (left * right) then .ok (left * right) else .error .multiplication

/-- An unsigned product. -/
def mulUnsigned (left right : Nat) : Except Overflow Nat :=
  if FitsUnsigned (left * right) then .ok (left * right) else .error .multiplication

/-- An unsigned sum. -/
def addUnsigned (left right : Nat) : Except Overflow Nat :=
  if FitsUnsigned (left + right) then .ok (left + right) else .error .addition

/-- The product of the factors from left to right. Every intermediate product has to fit, so a
zero after an overflow comes too late. -/
def product (factors : List Int) : Except Overflow Int :=
  factors.foldlM mulSigned 1

end Checked

end TensorGraph
