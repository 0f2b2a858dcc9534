import Mathlib.Algebra.BigOperators.Group.List.Basic
import Mathlib.Algebra.Ring.Int.Defs
import Mathlib.Data.List.Infix
import TensorGraph.Checked

/-! # What checked arithmetic computes

A checked product is the product of the factors if every product on the way to it fits. A product
that does not fit is noticed where it occurs, whatever factors follow.
-/

namespace TensorGraph.Checked

variable {factors : List Int} {start total : Int}

/-- The products of the first factors, however many of them, fit. -/
def Multipliable (factors : List Int) : Prop := ∀ front, front <+: factors → FitsSigned front.prod

instance (factors : List Int) : Decidable (Multipliable factors) :=
  decidable_of_iff (∀ front ∈ factors.inits, FitsSigned front.prod) (by
    simp only [List.mem_inits, Multipliable])

theorem foldlM_mulSigned_eq_ok_iff (hstart : FitsSigned start) :
    factors.foldlM mulSigned start = .ok total ↔
      (∀ front, front <+: factors → FitsSigned (start * front.prod)) ∧
        total = start * factors.prod := by
  induction factors generalizing start with
  | nil => simp [hstart, pure, Except.pure, eq_comm]
  | cons factor factors ih =>
      rw [List.foldlM_cons, mulSigned]
      split
      next hfits =>
        change factors.foldlM mulSigned (start * factor) = .ok total ↔ _
        simp only [ih hfits, List.prefix_cons_iff, List.prod_cons, Int.mul_assoc]
        refine and_congr_left fun _ => ⟨?_, ?_⟩
        · rintro hfronts front (rfl | ⟨rest, rfl, hrest⟩)
          · simpa using hstart
          · rw [List.prod_cons]
            exact hfronts rest hrest
        · intro hfronts rest hrest
          rw [← List.prod_cons]
          exact hfronts (factor :: rest) (Or.inr ⟨rest, rfl, hrest⟩)
      next hfits =>
        constructor
        · intro herror
          cases herror
        · rintro ⟨hfronts, -⟩
          exact absurd (by simpa using hfronts [factor] (by simp)) hfits

theorem foldlM_mulSigned_eq_error {cause : Overflow}
    (herror : factors.foldlM mulSigned start = .error cause) : cause = .multiplication := by
  induction factors generalizing start with
  | nil => cases herror
  | cons factor factors ih =>
      rw [List.foldlM_cons, mulSigned] at herror
      split at herror
      next => exact ih herror
      next =>
        cases herror
        rfl

theorem product_eq_ok_iff :
    product factors = .ok total ↔ Multipliable factors ∧ total = factors.prod := by
  rw [product, foldlM_mulSigned_eq_ok_iff (by decide)]
  simp only [Int.one_mul, Multipliable]

theorem product_of_multipliable (hfactors : Multipliable factors) :
    product factors = .ok factors.prod := product_eq_ok_iff.mpr ⟨hfactors, rfl⟩

theorem product_of_not_multipliable (hfactors : ¬ Multipliable factors) :
    product factors = .error .multiplication := by
  cases hproduct : product factors with
  | ok total => exact absurd (product_eq_ok_iff.mp hproduct).1 hfactors
  | error cause => rw [foldlM_mulSigned_eq_error hproduct]

end TensorGraph.Checked
