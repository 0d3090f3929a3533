import MailProof.Curve.Coordinate
import MailProof.Proofs.Order
import Mathlib.Algebra.Field.Basic
import Mathlib.FieldTheory.Finite.Basic
import Mathlib.Tactic.Field
import Mathlib.Tactic.LinearCombination

/-! The residues and their quadratic extension are fields. Inverses are powers in the first and
come from the norm in the second. -/

namespace MailProof

open Fin.CommRing

namespace Residue

variable {n : Nat} [NeZero n]

theorem pow_order_sub_one (prime : n.Prime) {x : Fin n} (nonzero : x ≠ 0) : x ^ (n - 1) = 1 := by
  have : Fact n.Prime := ⟨prime⟩
  obtain ⟨m, rfl⟩ : ∃ m, n = m + 1 := ⟨n - 1, by have := prime.two_le; omega⟩
  exact ZMod.pow_card_sub_one_eq_one (p := m + 1) (a := x) nonzero

theorem pow_order (prime : n.Prime) (x : Fin n) : x ^ n = x := by
  have : Fact n.Prime := ⟨prime⟩
  obtain ⟨m, rfl⟩ : ∃ m, n = m + 1 := ⟨n - 1, by have := prime.two_le; omega⟩
  exact ZMod.pow_card (p := m + 1) x

/-- Exponents count modulo the order of the multiplicative group. -/
theorem pow_cycle (prime : n.Prime) (x : Fin n) (turns : Nat) : x ^ (turns * (n - 1) + 1) = x := by
  induction turns with
  | zero => rw [Nat.zero_mul, Nat.zero_add, pow_one]
  | succ turns ih =>
    have further : (turns + 1) * (n - 1) + 1 = turns * (n - 1) + n := by
      have := prime.two_le
      rw [Nat.succ_mul]
      omega
    rw [further, pow_add, pow_order prime, ← pow_succ, ih]

private theorem mul_power_eq_one (prime : n.Prime) (x : Fin n) (nonzero : x ≠ 0) :
    x * power x (n - 2) = 1 := by
  have shifted : n - 2 + 1 = n - 1 := by have := prime.two_le; omega
  rw [power_eq_pow, ← pow_succ', shifted, pow_order_sub_one prime nonzero]

/-- Residues with cancelling inverses are a field. -/
@[reducible] def field (inverse : Inv (Fin n)) (cancel : ∀ x : Fin n, x ≠ 0 → x * x⁻¹ = 1)
    (zero : (0 : Fin n)⁻¹ = 0) (proper : (0 : Fin n) ≠ 1) : Field (Fin n) where
  __ := (inferInstance : CommRing (Fin n))
  inv := Inv.inv
  div x y := x * y⁻¹
  div_eq_mul_inv _ _ := rfl
  exists_pair_ne := ⟨0, 1, proper⟩
  mul_inv_cancel := cancel
  inv_zero := zero
  nnqsmul := _
  nnqsmul_def _ _ := rfl
  qsmul := _
  qsmul_def _ _ := rfl

end Residue

instance : Field Scalar :=
  Residue.field inferInstance (Residue.mul_power_eq_one scalarOrder_prime) (by decide +kernel)
    (by decide)

instance : Field Base :=
  Residue.field inferInstance (Residue.mul_power_eq_one baseOrder_prime) (by decide +kernel)
    (by decide)

theorem Base.mul_inv_cancel {x : Base} (nonzero : x ≠ 0) : x * x⁻¹ = 1 :=
  Residue.mul_power_eq_one baseOrder_prime x nonzero

/-- The order of the base field is three modulo four, so minus one is no square. -/
theorem Base.eq_zero_of_sum_squares {x y : Base} (zero : x * x + y * y = 0) : x = 0 ∧ y = 0 := by
  have one_sided {x y : Base} (zero : x * x + y * y = 0) : y = 0 := by
    by_contra nonzero
    have root : (x * y⁻¹) ^ 2 = -1 := by
      have cancel : y * y⁻¹ = 1 := mul_inv_cancel nonzero
      linear_combination y⁻¹ ^ 2 * zero - (y * y⁻¹ + 1) * cancel
    have proper : x * y⁻¹ ≠ 0 := by
      intro vanishes
      rw [vanishes] at root
      exact absurd root (by decide)
    have odd : ((-1 : Base)) ^ ((baseOrder - 1) / 2) = 1 := by
      rw [← root, ← pow_mul, ← Residue.pow_order_sub_one baseOrder_prime proper]
      rfl
    rw [← power_eq_pow] at odd
    exact absurd odd (by decide +kernel)
  exact ⟨one_sided ((add_comm _ _).trans zero), one_sided zero⟩

namespace Quadratic

@[ext] theorem ext {x y : Quadratic} (re : x.re = y.re) (im : x.im = y.im) : x = y := by
  cases x
  cases y
  cases re
  cases im
  rfl

@[simp] theorem zero_re : (0 : Quadratic).re = 0 := rfl
@[simp] theorem zero_im : (0 : Quadratic).im = 0 := rfl
@[simp] theorem one_re : (1 : Quadratic).re = 1 := rfl
@[simp] theorem one_im : (1 : Quadratic).im = 0 := rfl
@[simp] theorem add_re (x y : Quadratic) : (x + y).re = x.re + y.re := rfl
@[simp] theorem add_im (x y : Quadratic) : (x + y).im = x.im + y.im := rfl
@[simp] theorem sub_re (x y : Quadratic) : (x - y).re = x.re - y.re := rfl
@[simp] theorem sub_im (x y : Quadratic) : (x - y).im = x.im - y.im := rfl
@[simp] theorem neg_re (x : Quadratic) : (-x).re = -x.re := rfl
@[simp] theorem neg_im (x : Quadratic) : (-x).im = -x.im := rfl

@[simp] theorem mul_re (x y : Quadratic) : (x * y).re = x.re * y.re - x.im * y.im := rfl

@[simp] theorem mul_im (x y : Quadratic) : (x * y).im = x.re * y.im + x.im * y.re := by
  change (x.re + x.im) * (y.re + y.im) - x.re * y.re - x.im * y.im = _
  ring

def norm (x : Quadratic) : Base := x.re * x.re + x.im * x.im

theorem norm_ne_zero {x : Quadratic} (nonzero : x ≠ 0) : x.norm ≠ 0 := by
  intro zero
  obtain ⟨re, im⟩ := Base.eq_zero_of_sum_squares zero
  exact nonzero (ext re im)

private theorem inv_re (x : Quadratic) : x⁻¹.re = x.norm⁻¹ * x.re := rfl
private theorem inv_im (x : Quadratic) : x⁻¹.im = x.norm⁻¹ * -x.im := rfl

theorem mul_inv_cancel {x : Quadratic} (nonzero : x ≠ 0) : x * x⁻¹ = 1 := by
  have cancel : x.norm * x.norm⁻¹ = 1 := Base.mul_inv_cancel (norm_ne_zero nonzero)
  ext : 1
  · rw [mul_re, inv_re, inv_im, one_re, ← cancel, norm]
    ring
  · rw [mul_im, inv_re, inv_im, one_im]
    ring

end Quadratic

instance : CommRing Quadratic where
  add_assoc x y z := by ext : 1 <;> simp [add_assoc]
  zero_add x := by ext : 1 <;> simp
  add_zero x := by ext : 1 <;> simp
  add_comm x y := by ext : 1 <;> simp [add_comm]
  neg_add_cancel x := by ext : 1 <;> simp
  sub_eq_add_neg x y := by ext : 1 <;> simp [sub_eq_add_neg]
  left_distrib x y z := by ext : 1 <;> simp <;> ring
  right_distrib x y z := by ext : 1 <;> simp <;> ring
  zero_mul x := by ext : 1 <;> simp
  mul_zero x := by ext : 1 <;> simp
  mul_assoc x y z := by ext : 1 <;> simp <;> ring
  one_mul x := by ext : 1 <;> simp
  mul_one x := by ext : 1 <;> simp
  mul_comm x y := by ext : 1 <;> simp <;> ring
  nsmul := nsmulRec
  zsmul := zsmulRec

instance : Field Quadratic where
  inv := Inv.inv
  exists_pair_ne := ⟨0, 1, by decide⟩
  mul_inv_cancel x := Quadratic.mul_inv_cancel
  inv_zero := by decide +kernel
  nnqsmul := _
  nnqsmul_def _ _ := rfl
  qsmul := _
  qsmul_def _ _ := rfl

/-- Coordinates that form a field in which the curve equation has no singular points. -/
class CurveField (K : Type) extends CoordinateField K, Field K where
  two_ne_zero : (2 : K) ≠ 0
  three_ne_zero : (3 : K) ≠ 0
  curveConstant_ne_zero : CoordinateField.curveConstant ≠ (0 : K)

instance : CurveField Base where
  __ := (inferInstance : CoordinateField Base)
  __ := (inferInstance : Field Base)
  two_ne_zero := by decide
  three_ne_zero := by decide
  curveConstant_ne_zero := by decide

instance : CurveField Quadratic where
  __ := (inferInstance : CoordinateField Quadratic)
  __ := (inferInstance : Field Quadratic)
  two_ne_zero := by decide
  three_ne_zero := by decide
  curveConstant_ne_zero := by decide +kernel

end MailProof
