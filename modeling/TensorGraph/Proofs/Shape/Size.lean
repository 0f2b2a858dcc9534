import Mathlib.Algebra.BigOperators.Ring.List
import Mathlib.Algebra.Order.BigOperators.Group.List
import Mathlib.Algebra.Order.Ring.Int
import Mathlib.Algebra.Ring.Int.Parity
import TensorGraph.Proofs.Checked
import TensorGraph.Shape

/-! # Byte sizes of nested shapes

The arrays of a shape decide about its size, however they are nested: the size is the sum of theirs,
never a wrapped one, and there is none if an array has none. Whether an array has one is decided by
the product of its dimensions, so that an even number of negative dimensions goes unnoticed.
-/

namespace TensorGraph.Shape

open Checked

/-- An array within a shape. -/
structure Leaf where
  elementType : ElementType
  dims : List Int

namespace Leaf

/-- The product of the dimensions in bytes, whether or not it can be the size of an array. -/
def bytes (leaf : Leaf) : Int := leaf.dims.prod * leaf.elementType.size

/-- No dimension is unbounded, and the product of the dimensions can be computed. -/
structure Countable (leaf : Leaf) : Prop where
  bounded : unboundedSize ∉ leaf.dims
  multipliable : Multipliable leaf.dims

/-- The array has a size. -/
structure Sized (leaf : Leaf) : Prop extends leaf.Countable where
  nonneg : 0 ≤ leaf.dims.prod
  fits : leaf.bytes < 18446744073709551616

theorem sized_iff (leaf : Leaf) :
    leaf.Sized ↔ leaf.Countable ∧ 0 ≤ leaf.dims.prod ∧ leaf.bytes < 18446744073709551616 :=
  ⟨fun hsized => ⟨hsized.toCountable, hsized.nonneg, hsized.fits⟩,
    fun ⟨hcountable, hnonneg, hfits⟩ => ⟨hcountable, hnonneg, hfits⟩⟩

instance (leaf : Leaf) : Decidable leaf.Countable :=
  decidable_of_iff (unboundedSize ∉ leaf.dims ∧ Multipliable leaf.dims)
    ⟨fun ⟨hbounded, hdims⟩ => ⟨hbounded, hdims⟩, fun ⟨hbounded, hdims⟩ => ⟨hbounded, hdims⟩⟩

instance (leaf : Leaf) : Decidable leaf.Sized := decidable_of_iff _ leaf.sized_iff.symm

/-- The array has no size, and this is no overflow. -/
def Absent (leaf : Leaf) : Prop := unboundedSize ∈ leaf.dims ∨ leaf.dims.prod < 0

theorem Absent.not_sized {leaf : Leaf} (habsent : leaf.Absent) : ¬ leaf.Sized := by
  intro hsized
  rcases habsent with hunbounded | hnegative
  · exact hsized.bounded hunbounded
  · exact Int.not_lt.mpr hsized.nonneg hnegative

theorem Sized.bytes_nonneg {leaf : Leaf} (hsized : leaf.Sized) : 0 ≤ leaf.bytes :=
  Int.mul_nonneg hsized.nonneg (Int.natCast_nonneg _)

end Leaf

mutual

/-- The arrays of the shape from left to right, at any depth. -/
def leaves : Shape → List Leaf
  | .array elementType dims => [⟨elementType, dims⟩]
  | .tuple elements => leavesAll elements

def leavesAll : List Shape → List Leaf
  | [] => []
  | shape :: shapes => shape.leaves ++ leavesAll shapes

end

/-- The bytes of the arrays together. -/
def totalBytes (leaves : List Leaf) : Int := (leaves.map Leaf.bytes).sum

theorem totalBytes_append (leaves others : List Leaf) :
    totalBytes (leaves ++ others) = totalBytes leaves + totalBytes others := by
  rw [totalBytes, List.map_append, List.sum_append, totalBytes, totalBytes]

theorem totalBytes_nonneg {leaves : List Leaf} (hsized : ∀ leaf ∈ leaves, leaf.Sized) :
    0 ≤ totalBytes leaves :=
  List.sum_nonneg (List.forall_mem_map.mpr fun leaf hmem => (hsized leaf hmem).bytes_nonneg)

/-- What an outcome says about the arrays whose sizes were to be added to `start`. -/
def Explains (start : Nat) (leaves : List Leaf) : Except Overflow (Option Nat) → Prop
  | .ok (some bytes) => (∀ leaf ∈ leaves, leaf.Sized) ∧ bytes = start + totalBytes leaves ∧
      FitsUnsigned bytes
  | .ok none => ∃ leaf ∈ leaves, leaf.Absent
  | .error .multiplication => ∃ leaf ∈ leaves, ¬ leaf.Sized
  | .error .addition =>
      (∀ leaf ∈ leaves, leaf.Sized) → 18446744073709551616 ≤ start + totalBytes leaves

theorem byteSize_array (elementType : ElementType) (dims : List Int) :
    (array elementType dims).byteSize =
      if unboundedSize ∈ dims then .ok none
      else if Multipliable dims then
        if dims.prod < 0 then .ok none
        else some <$> mulUnsigned dims.prod.toNat elementType.size
      else .error .multiplication := by
  have hunbounded : (array elementType dims).isUnbounded = true ↔ unboundedSize ∈ dims := by
    simp [isUnbounded, Shape.dims]
  rw [byteSize, elementCount]
  simp only [hunbounded]
  split_ifs with hmem hdims hnegative
  · rfl
  · rw [product_of_multipliable hdims]
    exact if_pos hnegative
  · rw [product_of_multipliable hdims]
    exact if_neg hnegative
  · rw [product_of_not_multipliable hdims]
    rfl

/-- Where the elements can be counted, only their size decides. -/
theorem explains_mulUnsigned {leaf : Leaf} (hcountable : leaf.Countable)
    (hnonneg : 0 ≤ leaf.dims.prod) :
    Explains 0 [leaf] (some <$> mulUnsigned leaf.dims.prod.toNat leaf.elementType.size) := by
  have hbytes : ((leaf.dims.prod.toNat * leaf.elementType.size : Nat) : Int) = leaf.bytes := by
    rw [Leaf.bytes, Int.natCast_mul, Int.toNat_of_nonneg hnonneg]
  rw [mulUnsigned]
  split
  next hfits =>
    have hsized : leaf.Sized := { hcountable with
      nonneg := hnonneg
      fits := hbytes ▸ Int.ofNat_lt.mpr hfits }
    refine ⟨List.forall_mem_singleton.mpr hsized, ?_, hfits⟩
    simp [hbytes, totalBytes]
  next hfits =>
    refine ⟨leaf, List.mem_singleton_self leaf, fun hsized => hfits ?_⟩
    exact Int.ofNat_lt.mp (hbytes ▸ hsized.fits)

theorem explains_array (elementType : ElementType) (dims : List Int) :
    Explains 0 [⟨elementType, dims⟩] (array elementType dims).byteSize := by
  rw [byteSize_array]
  split_ifs with hunbounded hdims hnegative
  · exact ⟨_, List.mem_singleton_self _, Or.inl hunbounded⟩
  · exact ⟨_, List.mem_singleton_self _, Or.inr hnegative⟩
  · exact explains_mulUnsigned ⟨hunbounded, hdims⟩ (Int.not_lt.mp hnegative)
  · exact ⟨_, List.mem_singleton_self _, fun hsized => hdims hsized.multipliable⟩

section Sums

variable {start : Nat} {leaves others : List Leaf} {outcome : Except Overflow (Option Nat)}

/-- What went wrong with the first arrays went wrong with all of them. -/
theorem Explains.append_of_not_some (houtcome : ∀ bytes, outcome ≠ .ok (some bytes))
    (hexplains : Explains 0 leaves outcome) (start : Nat) (others : List Leaf) :
    Explains start (leaves ++ others) outcome := by
  match outcome, hexplains with
  | .ok (some bytes), _ => exact absurd rfl (houtcome bytes)
  | .ok none, ⟨leaf, hmem, habsent⟩ => exact ⟨leaf, List.mem_append_left others hmem, habsent⟩
  | .error .multiplication, ⟨leaf, hmem, hleaf⟩ =>
      exact ⟨leaf, List.mem_append_left others hmem, hleaf⟩
  | .error .addition, htotal =>
      intro hsized
      obtain ⟨hleaves, hothers⟩ := List.forall_mem_append.mp hsized
      have hleast := htotal hleaves
      have hrest := totalBytes_nonneg hothers
      rw [totalBytes_append]
      omega

/-- Arrays that were added to the start are arrays like the others. -/
theorem Explains.append {next : Nat} (hsized : ∀ leaf ∈ leaves, leaf.Sized)
    (hnext : (next : Int) = start + totalBytes leaves) (hexplains : Explains next others outcome) :
    Explains start (leaves ++ others) outcome := by
  match outcome, hexplains with
  | .ok (some bytes), ⟨hothers, hbytes, hfits⟩ =>
      refine ⟨List.forall_mem_append.mpr ⟨hsized, hothers⟩, ?_, hfits⟩
      rw [totalBytes_append]
      omega
  | .ok none, ⟨leaf, hmem, habsent⟩ => exact ⟨leaf, List.mem_append_right leaves hmem, habsent⟩
  | .error .multiplication, ⟨leaf, hmem, hleaf⟩ =>
      exact ⟨leaf, List.mem_append_right leaves hmem, hleaf⟩
  | .error .addition, htotal =>
      intro hall
      have hleast := htotal (List.forall_mem_append.mp hall).2
      rw [totalBytes_append]
      omega

theorem Explains.eq_ok_some {bytes : Nat} (hexplains : Explains start leaves outcome)
    (hsized : ∀ leaf ∈ leaves, leaf.Sized) (hbytes : bytes = start + totalBytes leaves)
    (hfits : FitsUnsigned bytes) : outcome = .ok (some bytes) := by
  match outcome, hexplains with
  | .ok (some size), ⟨_, hsize, _⟩ =>
      obtain rfl : size = bytes := by omega
      rfl
  | .ok none, ⟨leaf, hmem, habsent⟩ => exact absurd (hsized leaf hmem) habsent.not_sized
  | .error .multiplication, ⟨leaf, hmem, hleaf⟩ => exact absurd (hsized leaf hmem) hleaf
  | .error .addition, htotal =>
      have hleast := htotal hsized
      rw [FitsUnsigned] at hfits
      omega

theorem Explains.eq_addition (hexplains : Explains start leaves outcome)
    (hsized : ∀ leaf ∈ leaves, leaf.Sized)
    (htotal : 18446744073709551616 ≤ start + totalBytes leaves) : outcome = .error .addition := by
  match outcome, hexplains with
  | .ok (some size), ⟨_, hsize, hfits⟩ =>
      rw [FitsUnsigned] at hfits
      omega
  | .ok none, ⟨leaf, hmem, habsent⟩ => exact absurd (hsized leaf hmem) habsent.not_sized
  | .error .multiplication, ⟨leaf, hmem, hleaf⟩ => exact absurd (hsized leaf hmem) hleaf
  | .error .addition, _ => rfl

end Sums

theorem byteSizeFrom_cons (start : Nat) (shape : Shape) (shapes : List Shape) :
    byteSizeFrom start (shape :: shapes) =
      match shape.byteSize with
      | .ok (some size) =>
        if FitsUnsigned (start + size) then byteSizeFrom (start + size) shapes
        else .error .addition
      | other => other := by
  rw [byteSizeFrom]
  rcases shape.byteSize with cause | _ | size
  · rfl
  · rfl
  · change (addUnsigned start size >>= fun total => byteSizeFrom total shapes) = _
    rw [addUnsigned]
    dsimp only
    split <;> rfl

/-- The sum of a list is explained by what explains its first entry and the sum of the others. -/
theorem explains_cons {start : Nat} {shape : Shape} {shapes : List Shape}
    (hshape : Explains 0 shape.leaves shape.byteSize)
    (hshapes : ∀ next, FitsUnsigned next →
      Explains next (leavesAll shapes) (byteSizeFrom next shapes)) :
    Explains start (leavesAll (shape :: shapes)) (byteSizeFrom start (shape :: shapes)) := by
  rw [byteSizeFrom_cons, leavesAll]
  split
  next size hsize =>
    rw [hsize] at hshape
    obtain ⟨hsized, hbytes, -⟩ := hshape
    have hnext : ((start + size : Nat) : Int) = start + totalBytes shape.leaves := by
      omega
    split
    next hfits => exact (hshapes _ hfits).append hsized hnext
    next hfits =>
      intro hall
      have hrest := totalBytes_nonneg (List.forall_mem_append.mp hall).2
      rw [FitsUnsigned] at hfits
      rw [totalBytes_append]
      omega
  next hother => exact hshape.append_of_not_some hother start (leavesAll shapes)

mutual

/-- Every outcome of measuring a shape is explained by its arrays alone. -/
theorem explains_byteSize : (shape : Shape) → Explains 0 shape.leaves shape.byteSize
  | .array elementType dims => explains_array elementType dims
  | .tuple elements => by
    rw [leaves, byteSize]
    exact explains_byteSizeFrom 0 (by decide) elements

theorem explains_byteSizeFrom (start : Nat) (hstart : FitsUnsigned start) :
    (shapes : List Shape) → Explains start (leavesAll shapes) (byteSizeFrom start shapes)
  | [] => ⟨List.forall_mem_nil _, (Int.add_zero _).symm, hstart⟩
  | shape :: shapes =>
    explains_cons (explains_byteSize shape) fun next hnext =>
      explains_byteSizeFrom next hnext shapes

end

variable {shape : Shape} {bytes : Nat}

/-- A shape has a size if all its arrays do and these sum up to one. -/
theorem byteSize_eq_ok_some_iff :
    shape.byteSize = .ok (some bytes) ↔
      (∀ leaf ∈ shape.leaves, leaf.Sized) ∧ bytes = totalBytes shape.leaves ∧
        FitsUnsigned bytes := by
  have hexplains := explains_byteSize shape
  constructor
  · intro hsize
    rw [hsize] at hexplains
    obtain ⟨hsized, hbytes, hfits⟩ := hexplains
    exact ⟨hsized, by omega, hfits⟩
  · rintro ⟨hsized, hbytes, hfits⟩
    exact hexplains.eq_ok_some hsized (by omega) hfits

/-- A shape has a size exactly if all its arrays have one and the sum of these fits, and it is this
sum. It is absent only if an array has an unbounded dimension or a negative product. Where all
arrays have a size and only the sum is too large, an addition overflows. -/
theorem byteSize_exact (shape : Shape) :
    (∀ bytes, shape.byteSize = .ok (some bytes) ↔
        (∀ leaf ∈ shape.leaves, leaf.Sized) ∧ totalBytes shape.leaves < 18446744073709551616 ∧
          bytes = totalBytes shape.leaves) ∧
      (shape.byteSize = .ok none → ∃ leaf ∈ shape.leaves, leaf.Absent) ∧
      ((∀ leaf ∈ shape.leaves, leaf.Sized) →
        18446744073709551616 ≤ totalBytes shape.leaves → shape.byteSize = .error .addition) := by
  have hexplains := explains_byteSize shape
  refine ⟨fun bytes => ?_, fun hnone => ?_, fun hsized htotal => ?_⟩
  · rw [byteSize_eq_ok_some_iff, FitsUnsigned]
    refine and_congr_right fun _ => ?_
    omega
  · rw [hnone] at hexplains
    exact hexplains
  · exact hexplains.eq_addition hsized (by omega)

/-- A size is a sum over all depths, one array without a size is enough to have none, and two arrays
that fit overflow together with a third, which stands deeper. -/
theorem byteSize_exact_nested :
    let sized : Shape := .tuple [.array .float32 [2, 3], .tuple [.token, .array .int64 [4, 0, 9]]]
    let absent : Shape := .tuple [.array .float32 [2], .tuple [.array .float32 [unboundedSize, 2]]]
    let wide : Shape := .array .uint8 [9223372036854775807]
    let full : Shape := .tuple [wide, .tuple [wide, .array .uint16 [1]]]
    sized.byteSize = .ok (some 24) ∧
      absent.byteSize = .ok none ∧ (∃ leaf ∈ absent.leaves, leaf.Absent) ∧
      (∀ leaf ∈ full.leaves, leaf.Sized) ∧ totalBytes full.leaves = 18446744073709551616 ∧
        full.byteSize = .error .addition := by
  intro sized absent wide full
  have hnone : absent.byteSize = .ok none := rfl
  have hsized : ∀ leaf ∈ full.leaves, leaf.Sized := by decide
  have htotal : totalBytes full.leaves = 18446744073709551616 := by decide
  exact ⟨((byteSize_exact sized).1 24).mpr ⟨by decide, by decide, by decide⟩, hnone,
    (byteSize_exact absent).2.1 hnone, hsized, htotal,
    (byteSize_exact full).2.2 hsized (Int.le_of_eq htotal.symm)⟩

section Signs

theorem prod_neg_iff (dims : List Int) :
    dims.prod < 0 ↔ 0 ∉ dims ∧ Odd (dims.countP (· < 0)) := by
  induction dims with
  | nil => simp
  | cons dim dims ih =>
      have hzero : dims.prod = 0 ↔ 0 ∈ dims := List.prod_eq_zero_iff
      rw [List.prod_cons, List.mem_cons, not_or, List.countP_cons, mul_neg_iff]
      rcases Int.lt_trichotomy dim 0 with hneg | rfl | hpos
      · have hsign : 0 < dims.prod ↔ ¬ dims.prod = 0 ∧ ¬ dims.prod < 0 := by
          omega
        simp only [hneg, decide_true, if_true, Nat.odd_add_one]
        rw [hsign, hzero, ih]
        grind
      · simp
      · simp [hpos, ih, hpos.ne, hpos.not_gt]

/-- One dimension is zero, or the negative ones make up an even number. -/
def Leaf.Cancels (leaf : Leaf) : Prop := 0 ∈ leaf.dims ∨ Even (leaf.dims.countP (· < 0))

instance (leaf : Leaf) : Decidable leaf.Cancels := inferInstanceAs (Decidable (_ ∨ _))

theorem Leaf.nonneg_iff_cancels (leaf : Leaf) : 0 ≤ leaf.dims.prod ↔ leaf.Cancels := by
  rw [← Int.not_lt, prod_neg_iff, not_and_or, not_not, Nat.not_odd_iff_even, Cancels]

/-- A negative product in one array keeps every shape around it from having a size. Negative
dimensions alone do not: the size exists exactly if they cancel in each array, and nothing is
unbounded or too large. -/
theorem sized_iff_negatives_cancel (shape : Shape) :
    ((∃ leaf ∈ shape.leaves, 0 ∉ leaf.dims ∧ Odd (leaf.dims.countP (· < 0))) →
        shape.byteSize = .ok none ∨ ∃ cause, shape.byteSize = .error cause) ∧
      ((∃ bytes, shape.byteSize = .ok (some bytes)) ↔
        (∀ leaf ∈ shape.leaves,
          leaf.Countable ∧ leaf.Cancels ∧ leaf.bytes < 18446744073709551616) ∧
          totalBytes shape.leaves < 18446744073709551616) := by
  constructor
  · rintro ⟨leaf, hmem, hnegative⟩
    rcases hsize : shape.byteSize with cause | _ | bytes
    · exact Or.inr ⟨cause, rfl⟩
    · exact Or.inl rfl
    · have hsized := (byteSize_eq_ok_some_iff.mp hsize).1 leaf hmem
      exact absurd ((prod_neg_iff leaf.dims).mpr hnegative) (Int.not_lt.mpr hsized.nonneg)
  · have hleaves : (∀ leaf ∈ shape.leaves, leaf.Sized) ↔ ∀ leaf ∈ shape.leaves,
        leaf.Countable ∧ leaf.Cancels ∧ leaf.bytes < 18446744073709551616 := by
      refine forall₂_congr fun leaf _ => ?_
      rw [leaf.sized_iff, leaf.nonneg_iff_cancels]
    rw [← hleaves]
    constructor
    · rintro ⟨bytes, hsize⟩
      obtain ⟨hsized, hbytes, hfits⟩ := byteSize_eq_ok_some_iff.mp hsize
      rw [FitsUnsigned] at hfits
      exact ⟨hsized, by omega⟩
    · rintro ⟨hsized, hfits⟩
      obtain ⟨bytes, hbytes⟩ := Int.eq_ofNat_of_zero_le (totalBytes_nonneg hsized)
      refine ⟨bytes, byteSize_eq_ok_some_iff.mpr ⟨hsized, hbytes.symm, ?_⟩⟩
      rw [FitsUnsigned]
      omega

/-- One negative dimension deep inside is enough, two in the same array are not. -/
theorem sized_iff_negatives_cancel_nested :
    let single : Shape := .tuple [.array .float32 [2], .tuple [.array .float32 [3, -2]]]
    let paired : Shape := .tuple [.token, .tuple [.array .int64 [-2, 1, -3], .array .pred [-5, 0]]]
    (∃ leaf ∈ single.leaves, 0 ∉ leaf.dims ∧ Odd (leaf.dims.countP (· < 0))) ∧
      (single.byteSize = .ok none ∨ ∃ cause, single.byteSize = .error cause) ∧
      ∃ bytes, paired.byteSize = .ok (some bytes) := by
  intro single paired
  have hnegative : ∃ leaf ∈ single.leaves, 0 ∉ leaf.dims ∧ Odd (leaf.dims.countP (· < 0)) :=
    ⟨⟨.float32, [3, -2]⟩, List.mem_cons_of_mem _ (List.mem_singleton_self _), by decide, by decide⟩
  exact ⟨hnegative, (sized_iff_negatives_cancel single).1 hnegative,
    (sized_iff_negatives_cancel paired).2.mpr ⟨by decide, by decide⟩⟩

/-- The product of two negative dimensions is taken for a number of elements. -/
theorem negative_dims_have_size :
    (∃ leaf ∈ (array .float32 [-2, -3]).leaves, ∃ dim ∈ leaf.dims, dim < 0) ∧
      (array .float32 [-2, -3]).byteSize = .ok (some 24) :=
  ⟨⟨_, List.mem_singleton_self _, -2, List.mem_cons_self, by decide⟩, rfl⟩

end Signs

end TensorGraph.Shape
