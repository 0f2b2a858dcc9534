import TensorGraph.Digest

/-! # What a digest tells apart

A round multiplies by an odd number, and a combination shifts its second argument and
changes it by the first. Both can be undone while the first argument stays fixed, so
words, positions and the last digest of a fold are told apart without exception.
-/

namespace TensorGraph

namespace Digest

/-- The number that undoes the factor of a round. -/
def factorInverse : UInt64 := 0x2040003d780970bd

theorem factor_mul_factorInverse : (0x517cc1b727220a95 : UInt64) * factorInverse = 1 := by decide

/-- For a fixed state, different words are absorbed differently. -/
theorem absorb_inj (state word word' : UInt64) :
    absorb state word = absorb state word' ↔ word = word' := by
  refine ⟨fun hsame => ?_, fun hword => by rw [hword]⟩
  have hmixed := congrArg (· * factorInverse) hsame
  simp only [absorb, UInt64.mul_assoc, factor_mul_factorInverse, UInt64.mul_one] at hmixed
  exact (UInt64.xor_right_inj _).mp hmixed

@[simp]
theorem ofWord_inj (word word' : UInt64) : ofWord word = ofWord word' ↔ word = word' :=
  absorb_inj 0 word word'

/-- For a fixed state, different digests are combined differently. -/
@[simp]
theorem combine_inj (state next next' : Digest) :
    state.combine next = state.combine next' ↔ next = next' := by
  simp only [combine, UInt64.xor_right_inj, UInt64.add_left_inj]

/-- Positions that fit into a word are told apart. -/
theorem ofIndex_toNat_inj (index index' : UInt64) :
    ofIndex index.toNat = ofIndex index'.toNat ↔ index = index' := by
  rw [ofIndex, ofIndex, UInt64.ofNat_toNat, UInt64.ofNat_toNat, ofWord_inj]

@[simp]
theorem combineAll_nil (start : Digest) : start.combineAll [] = start := rfl

theorem combineAll_append (start : Digest) (digests digests' : List Digest) :
    start.combineAll (digests ++ digests') =
      (start.combineAll digests).combineAll digests' := List.foldl_append

theorem combineAll_concat (start : Digest) (digests : List Digest) (last : Digest) :
    start.combineAll (digests ++ [last]) = (start.combineAll digests).combine last :=
  combineAll_append start digests [last]

end Digest

namespace Datum

/-- The digests of the items are folded from left to right. -/
theorem digestItems_eq_combineAll (state : Digest) (items : List Datum) :
    digestItems state items = state.combineAll (items.map digest) := by
  induction items generalizing state with
  | nil => rw [digestItems, List.map_nil, Digest.combineAll_nil]
  | cons item items ih => rw [digestItems, ih]; rfl

/-- Integers that fit into a word are told apart. -/
theorem digest_integer_inj {width : Nat} (hwidth : width ≤ 64) (value value' : BitVec width) :
    (integer value).digest = (integer value').digest ↔ value = value' := by
  have hfits (number : BitVec width) : number.toNat < 18446744073709551616 :=
    Nat.lt_of_lt_of_le number.isLt (Nat.pow_le_pow_right Nat.two_pos hwidth)
  rw [digest, digest, Digest.ofWord_inj, ← UInt64.toNat_inj,
    UInt64.toNat_ofNat_of_lt' (hfits value), UInt64.toNat_ofNat_of_lt' (hfits value'),
    BitVec.toNat_inj]

theorem digest_flag_inj (value value' : Bool) :
    (flag value).digest = (flag value').digest ↔ value = value' := by
  rw [digest, digest, Digest.ofWord_inj]
  cases value <;> cases value' <;> decide

end Datum

end TensorGraph
