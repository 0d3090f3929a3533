import MailProof.Constraint
import MailProof.Proofs.Curve.Field
import Mathlib.Tactic.Ring

/-! Arithmetic of the scalar field, and values of sums of wires. -/

namespace MailProof

open Fin.CommRing

namespace Scalar

theorem ofNat_eq_cast (n : Nat) : ofNat n = (n : Scalar) := rfl

@[simp] theorem val_ofNat (n : Nat) : (ofNat n).val = n % scalarOrder := rfl

@[simp] theorem ofNat_val (x : Scalar) : ofNat x.val = x := by
  apply Fin.ext
  rw [val_ofNat, Nat.mod_eq_of_lt x.isLt]

theorem ofNat_injective_of_lt {m n : Nat} (same : ofNat m = ofNat n) (left : m < scalarOrder)
    (right : n < scalarOrder) : m = n := by
  have values := congrArg Fin.val same
  rwa [val_ofNat, val_ofNat, Nat.mod_eq_of_lt left, Nat.mod_eq_of_lt right] at values

/-- The field order is prime, so there are no zero divisors. -/
theorem eq_zero_or_eq_zero_of_mul {x y : Scalar} (zero : x * y = 0) : x = 0 ∨ y = 0 := by
  have divides : scalarOrder ∣ x.val * y.val := Nat.dvd_of_mod_eq_zero (congrArg Fin.val zero)
  rcases scalarOrder_prime.dvd_mul.mp divides with left | right
  · exact .inl (Fin.ext (Nat.eq_zero_of_dvd_of_lt left x.isLt))
  · exact .inr (Fin.ext (Nat.eq_zero_of_dvd_of_lt right y.isLt))

/-- The element that stands for a truth value. -/
def ofBool (bit : Bool) : Scalar := if bit then 1 else 0

@[simp] theorem ofBool_true : ofBool true = 1 := rfl

@[simp] theorem ofBool_false : ofBool false = 0 := rfl

theorem ofBool_eq_one_iff (bit : Bool) : ofBool bit = 1 ↔ bit = true := by
  cases bit <;> decide

theorem ofBool_eq_cast (bit : Bool) : ofBool bit = ((bit.toNat : Nat) : Scalar) := by
  cases bit <;> simp

end Scalar

namespace LinearCombination

variable (value : Wire → Scalar)

@[simp] theorem eval_nil : eval [] value = 0 := rfl

@[simp] theorem eval_cons (term : Scalar × Wire) (terms : LinearCombination) :
    eval (term :: terms) value = term.1 * value term.2 + eval terms value := rfl

@[simp] theorem eval_append (left right : LinearCombination) :
    eval (left ++ right) value = eval left value + eval right value := by
  induction left with
  | nil => simp
  | cons term terms ih => simp [ih, add_assoc]

@[simp] theorem eval_scale (factor : Scalar) (terms : LinearCombination) :
    (terms.scale factor).eval value = factor * terms.eval value := by
  induction terms with
  | nil => simp [scale]
  | cons term terms ih =>
    simp only [scale, List.map_cons, eval_cons] at ih ⊢
    rw [ih]
    ring

@[simp] theorem eval_sub (left right : LinearCombination) :
    (left.sub right).eval value = left.eval value - right.eval value := by
  simp [sub, sub_eq_add_neg]

@[simp] theorem eval_ofWire (wire : Wire) : (ofWire wire).eval value = value wire := by
  simp [ofWire]

@[simp] theorem eval_ofConstant (constant : Scalar) :
    (ofConstant constant).eval value = constant * value .one := by
  simp [ofConstant]

end LinearCombination

end MailProof
