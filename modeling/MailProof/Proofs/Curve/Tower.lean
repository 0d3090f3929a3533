import Mathlib.AlgebraicGeometry.EllipticCurve.Affine.Point
import MailProof.Curve.Tower
import MailProof.Proofs.Curve.Canonical

/-! The tower of extensions in which pairings take their values. An element of the cubic extension
has an inverse because `9 + i` is no cube, and one of the quadratic extension over it because
`9 + i`, the determinant of the element whose root is adjoined, is no square. -/

namespace MailProof

namespace Quadratic

/-- No power with an exponent that divides the order of the multiplicative group is `9 + i`,
unless the cofactor takes it to one. -/
theorem nonresidue_power {x : Quadratic} {n : Nat} (divides : n * ((baseOrder * baseOrder - 1) / n) =
    baseOrder * baseOrder - 1) (positive : 0 < n) (root : x ^ n = nonresidue) :
    power nonresidue ((baseOrder * baseOrder - 1) / n) = 1 := by
  have nonzero : x ≠ 0 := by
    rintro rfl
    rw [zero_pow positive.ne'] at root
    exact absurd root (by decide)
  rw [power_eq_pow, ← root, ← pow_mul, divides, pow_card_sub_one nonzero]

private theorem nonresidue_ne_square (x : Quadratic) : x ^ 2 ≠ nonresidue := fun root =>
  absurd (nonresidue_power (by decide) (by decide) root) (by decide +kernel)

private theorem nonresidue_ne_cube (x : Quadratic) : x ^ 3 ≠ nonresidue := fun root =>
  absurd (nonresidue_power (by decide) (by decide) root) (by decide +kernel)

end Quadratic

namespace Sextic

open Quadratic (nonresidue)

@[ext] theorem ext {x y : Sextic} (c0 : x.c0 = y.c0) (c1 : x.c1 = y.c1) (c2 : x.c2 = y.c2) :
    x = y := by
  cases x
  cases y
  cases c0
  cases c1
  cases c2
  rfl

@[simp] theorem zero_c0 : (0 : Sextic).c0 = 0 := rfl
@[simp] theorem zero_c1 : (0 : Sextic).c1 = 0 := rfl
@[simp] theorem zero_c2 : (0 : Sextic).c2 = 0 := rfl
@[simp] theorem one_c0 : (1 : Sextic).c0 = 1 := rfl
@[simp] theorem one_c1 : (1 : Sextic).c1 = 0 := rfl
@[simp] theorem one_c2 : (1 : Sextic).c2 = 0 := rfl
@[simp] theorem add_c0 (x y : Sextic) : (x + y).c0 = x.c0 + y.c0 := rfl
@[simp] theorem add_c1 (x y : Sextic) : (x + y).c1 = x.c1 + y.c1 := rfl
@[simp] theorem add_c2 (x y : Sextic) : (x + y).c2 = x.c2 + y.c2 := rfl
@[simp] theorem sub_c0 (x y : Sextic) : (x - y).c0 = x.c0 - y.c0 := rfl
@[simp] theorem sub_c1 (x y : Sextic) : (x - y).c1 = x.c1 - y.c1 := rfl
@[simp] theorem sub_c2 (x y : Sextic) : (x - y).c2 = x.c2 - y.c2 := rfl
@[simp] theorem neg_c0 (x : Sextic) : (-x).c0 = -x.c0 := rfl
@[simp] theorem neg_c1 (x : Sextic) : (-x).c1 = -x.c1 := rfl
@[simp] theorem neg_c2 (x : Sextic) : (-x).c2 = -x.c2 := rfl

private theorem twist_eq (x : Quadratic) : twist x = nonresidue * x := by
  ext : 1
  · simp only [twist, nonresidue, Quadratic.mul_re, Quadratic.add_re]
    ring
  · simp only [twist, nonresidue, Quadratic.mul_im, Quadratic.add_im]
    ring

@[simp] theorem mul_c0 (x y : Sextic) :
    (x * y).c0 = x.c0 * y.c0 + nonresidue * (x.c1 * y.c2 + x.c2 * y.c1) := by
  change x.c0 * y.c0 + twist ((x.c1 + x.c2) * (y.c1 + y.c2) - x.c1 * y.c1 - x.c2 * y.c2) = _
  rw [twist_eq]
  ring

@[simp] theorem mul_c1 (x y : Sextic) :
    (x * y).c1 = x.c0 * y.c1 + x.c1 * y.c0 + nonresidue * (x.c2 * y.c2) := by
  change (x.c0 + x.c1) * (y.c0 + y.c1) - x.c0 * y.c0 - x.c1 * y.c1 + twist (x.c2 * y.c2) = _
  rw [twist_eq]
  ring

@[simp] theorem mul_c2 (x y : Sextic) :
    (x * y).c2 = x.c0 * y.c2 + x.c2 * y.c0 + x.c1 * y.c1 := by
  change (x.c0 + x.c2) * (y.c0 + y.c2) - x.c0 * y.c0 - x.c2 * y.c2 + x.c1 * y.c1 = _
  ring

/-- The determinant of the multiplication by an element. -/
def determinant (x : Sextic) : Quadratic :=
  x.c0 * (x.c0 ^ 2 - nonresidue * (x.c1 * x.c2)) +
    nonresidue * (x.c2 * (nonresidue * x.c2 ^ 2 - x.c0 * x.c1) + x.c1 * (x.c1 ^ 2 - x.c0 * x.c2))

private theorem determinant_mul (x y : Sextic) :
    (x * y).determinant = x.determinant * y.determinant := by
  simp only [determinant, mul_c0, mul_c1, mul_c2]
  ring

/-- Elements without a last coefficient: a determinant of zero would make `9 + i` a cube. -/
theorem eq_zero_of_determinant_linear {a b : Quadratic} (zero : determinant ⟨a, b, 0⟩ = 0) :
    a = 0 ∧ b = 0 := by
  have sum : a ^ 3 + nonresidue * b ^ 3 = 0 := by
    simp only [determinant] at zero
    linear_combination zero
  have flat : b = 0 := by
    by_contra nonzero
    refine Quadratic.nonresidue_ne_cube (-a / b) ?_
    rw [div_pow, div_eq_iff (pow_ne_zero 3 nonzero)]
    linear_combination -sum
  subst flat
  exact ⟨eq_zero_of_pow_eq_zero (n := 3) (by linear_combination sum), rfl⟩

/-- The product with a suitable factor has no last coefficient. -/
theorem eq_zero_of_determinant {x : Sextic} (zero : x.determinant = 0) : x = 0 := by
  obtain ⟨a, b, c⟩ := x
  by_cases short : c = 0
  · subst short
    obtain ⟨rfl, rfl⟩ := eq_zero_of_determinant_linear zero
    rfl
  have product : (⟨a, b, c⟩ : Sextic) * ⟨-b, c, 0⟩ =
      ⟨nonresidue * c ^ 2 - a * b, a * c - b ^ 2, 0⟩ := by
    ext : 1
    · rw [mul_c0]
      ring
    · rw [mul_c1]
      ring
    · rw [mul_c2]
      ring
  have vanishes : determinant ⟨nonresidue * c ^ 2 - a * b, a * c - b ^ 2, 0⟩ = 0 := by
    rw [← product, determinant_mul, zero, zero_mul]
  obtain ⟨first, second⟩ := eq_zero_of_determinant_linear vanishes
  refine absurd ?_ (Quadratic.nonresidue_ne_cube (b / c))
  rw [div_pow, div_eq_iff (pow_ne_zero 3 short)]
  linear_combination -c * first - b * second

end Sextic

instance : CommRing Sextic where
  add_assoc x y z := by ext : 1 <;> simp [add_assoc]
  zero_add x := by ext : 1 <;> simp
  add_zero x := by ext : 1 <;> simp
  add_comm x y := by ext : 1 <;> simp [add_comm]
  neg_add_cancel x := by ext : 1 <;> simp
  sub_eq_add_neg x y := by ext : 1 <;> simp [sub_eq_add_neg]
  left_distrib x y z := by ext : 1 <;> simp <;> ring
  right_distrib x y z := by ext : 1 <;> simp <;> ring
  zero_mul x := by ext : 1 <;> simp
  mul_zero x := by ext : 1 <;> simp
  mul_assoc x y z := by ext : 1 <;> simp <;> ring
  one_mul x := by ext : 1 <;> simp
  mul_one x := by ext : 1 <;> simp
  mul_comm x y := by ext : 1 <;> simp <;> ring
  nsmul := nsmulRec
  zsmul := zsmulRec

namespace Sextic

open Quadratic (nonresidue)

private theorem inv_eq (x : Sextic) : x⁻¹ =
    ⟨(x.c0 ^ 2 - nonresidue * (x.c1 * x.c2)) * x.determinant⁻¹,
      (nonresidue * x.c2 ^ 2 - x.c0 * x.c1) * x.determinant⁻¹,
      (x.c1 ^ 2 - x.c0 * x.c2) * x.determinant⁻¹⟩ := by
  simp only [determinant, pow_two, ← twist_eq]
  rfl

private theorem mul_inv_cancel {x : Sextic} (nonzero : x ≠ 0) : x * x⁻¹ = 1 := by
  have cancel : x.determinant * x.determinant⁻¹ = 1 :=
    Quadratic.mul_inv_cancel fun zero => nonzero (eq_zero_of_determinant zero)
  rw [inv_eq]
  ext : 1
  · rw [mul_c0, one_c0, ← cancel, determinant]
    ring
  · rw [mul_c1, one_c1]
    ring
  · rw [mul_c2, one_c2]
    ring

end Sextic

instance : Field Sextic where
  inv := Inv.inv
  exists_pair_ne := ⟨0, 1, by decide⟩
  mul_inv_cancel x := Sextic.mul_inv_cancel
  inv_zero := by decide +kernel
  nnqsmul := _
  nnqsmul_def _ _ := rfl
  qsmul := _
  qsmul_def _ _ := rfl

/-- The element `v`. -/
def Sextic.adjoined : Sextic := ⟨0, 1, 0⟩

theorem Sextic.shift_eq (x : Sextic) : x.shift = adjoined * x := by
  ext : 1
  · simp [shift, adjoined, twist_eq]
  · simp [shift, adjoined]
  · simp [shift, adjoined]

/-- The determinant would be a square with it. -/
theorem Sextic.adjoined_ne_square (x : Sextic) : x ^ 2 ≠ adjoined := by
  intro root
  refine Quadratic.nonresidue_ne_square x.determinant ?_
  rw [pow_two, ← determinant_mul, ← pow_two, root]
  simp [determinant, adjoined]

namespace Dodecic

open Sextic (adjoined)

@[ext] theorem ext {x y : Dodecic} (c0 : x.c0 = y.c0) (c1 : x.c1 = y.c1) : x = y := by
  cases x
  cases y
  cases c0
  cases c1
  rfl

@[simp] theorem zero_c0 : (0 : Dodecic).c0 = 0 := rfl
@[simp] theorem zero_c1 : (0 : Dodecic).c1 = 0 := rfl
@[simp] theorem one_c0 : (1 : Dodecic).c0 = 1 := rfl
@[simp] theorem one_c1 : (1 : Dodecic).c1 = 0 := rfl

@[simp] theorem mul_c0 (x y : Dodecic) : (x * y).c0 = x.c0 * y.c0 + adjoined * (x.c1 * y.c1) := by
  rw [← Sextic.shift_eq]
  rfl

@[simp] theorem mul_c1 (x y : Dodecic) : (x * y).c1 = x.c0 * y.c1 + x.c1 * y.c0 := by
  change (x.c0 + x.c1) * (y.c0 + y.c1) - x.c0 * y.c0 - x.c1 * y.c1 = _
  ring

/-- The product with the conjugate. -/
def norm (x : Dodecic) : Sextic := x.c0 ^ 2 - adjoined * x.c1 ^ 2

theorem norm_ne_zero {x : Dodecic} (nonzero : x ≠ 0) : x.norm ≠ 0 := by
  intro zero
  rw [norm] at zero
  by_cases flat : x.c1 = 0
  · have none : x.c0 = 0 := by simpa [flat] using zero
    exact nonzero (ext none flat)
  · refine Sextic.adjoined_ne_square (x.c0 / x.c1) ?_
    rw [div_pow, div_eq_iff (pow_ne_zero 2 flat)]
    linear_combination zero

private theorem inv_eq (x : Dodecic) : x⁻¹ = ⟨x.c0 * x.norm⁻¹, -(x.c1 * x.norm⁻¹)⟩ := by
  rw [norm, pow_two, pow_two, ← Sextic.shift_eq]
  rfl

theorem mul_inv_cancel {x : Dodecic} (nonzero : x ≠ 0) : x * x⁻¹ = 1 := by
  have cancel : x.norm * x.norm⁻¹ = 1 := Sextic.mul_inv_cancel (norm_ne_zero nonzero)
  rw [inv_eq]
  ext : 1
  · rw [mul_c0, one_c0, ← cancel, norm]
    ring
  · rw [mul_c1, one_c1]
    ring

end Dodecic

instance : CommMonoidWithZero Dodecic where
  mul_assoc x y z := by ext : 1 <;> simp <;> ring
  one_mul x := by ext : 1 <;> simp
  mul_one x := by ext : 1 <;> simp
  mul_comm x y := by ext : 1 <;> simp <;> ring
  zero_mul x := by ext : 1 <;> simp
  mul_zero x := by ext : 1 <;> simp

namespace Dodecic

private theorem mul_inv_mul {x y : Dodecic} (nonzero : x ≠ 0) (nonzero' : y ≠ 0) :
    x * y * (x⁻¹ * y⁻¹) = 1 := by
  rw [mul_mul_mul_comm, mul_inv_cancel nonzero, mul_inv_cancel nonzero', one_mul]

theorem mul_ne_zero {x y : Dodecic} (nonzero : x ≠ 0) (nonzero' : y ≠ 0) : x * y ≠ 0 := by
  intro zero
  have unit := mul_inv_mul nonzero nonzero'
  rw [zero, zero_mul] at unit
  exact absurd unit (by decide)

theorem inv_mul {x y : Dodecic} (nonzero : x ≠ 0) (nonzero' : y ≠ 0) :
    (x * y)⁻¹ = x⁻¹ * y⁻¹ :=
  calc (x * y)⁻¹ = (x * y)⁻¹ * (x * y * (x⁻¹ * y⁻¹)) := by
        rw [mul_inv_mul nonzero nonzero', mul_one]
    _ = x * y * (x * y)⁻¹ * (x⁻¹ * y⁻¹) := by rw [← mul_assoc, mul_comm (x * y)⁻¹]
    _ = x⁻¹ * y⁻¹ := by rw [mul_inv_cancel (mul_ne_zero nonzero nonzero'), one_mul]

/-- Elements of the extension of degree six, which conjugation leaves alone. -/
def ofSextic (x : Sextic) : Dodecic := ⟨x, 0⟩

theorem ofSextic_mul (x y : Sextic) : ofSextic (x * y) = ofSextic x * ofSextic y := by
  ext : 1 <;> simp [ofSextic]

theorem ofSextic_ne_zero {x : Sextic} (nonzero : x ≠ 0) : ofSextic x ≠ 0 := fun zero =>
  nonzero (congrArg c0 zero)

theorem conjugate_ofSextic (x : Sextic) : (ofSextic x).conjugate = ofSextic x := by
  ext : 1 <;> simp [ofSextic, conjugate]

theorem conjugate_mul (x y : Dodecic) : (x * y).conjugate = x.conjugate * y.conjugate := by
  ext : 1
  · simp [conjugate]
  · simp only [conjugate, mul_c1]
    ring

@[simp] theorem conjugate_conjugate (x : Dodecic) : x.conjugate.conjugate = x := by
  ext : 1 <;> simp [conjugate]

theorem mul_conjugate (x : Dodecic) : x * x.conjugate = ofSextic x.norm := by
  ext : 1
  · simp only [mul_c0, conjugate, ofSextic, norm]
    ring
  · simp only [mul_c1, conjugate, ofSextic]
    ring

end Dodecic

end MailProof
