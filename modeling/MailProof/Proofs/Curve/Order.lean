import Mathlib.GroupTheory.Perm.Cycle.Type
import MailProof.Proofs.Curve.Canonical
import MailProof.Proofs.Curve.Group

/-! The order of the curve over the base field. A point is known from its first coordinate and one
sign, so there are fewer than three times as many points as the group order. A point of this order
is on the curve and none of order two is, so the curve has exactly as many points as the order, and
all of its points are in the group. -/

namespace MailProof

/-- The point `(1, 2)`. -/
def firstGenerator : Point Base := .affine 1 2

def secondGenerator : Point Quadratic := .affine
  ⟨10857046999023057135944570762232829481370756359578518086990519993285655852781,
    11559732032986387107991004021392285783925812861821192530917403151452391805634⟩
  ⟨8495653923123431417604973247489272438418190587263600148770280649306958101930,
    4082367875863433681332203403145435568316851327593401208105741076214120093531⟩

theorem firstGenerator_inGroup : firstGenerator.InGroup := ⟨by decide, by decide +kernel⟩

theorem secondGenerator_inGroup : secondGenerator.InGroup := ⟨by decide +kernel, by decide +kernel⟩

namespace Curve

/-- The first coordinate of a point with the sign of the second one. -/
def code : (curve Base).Point → Option (Base × Bool)
  | .zero => none
  | .some x y _ => some (x, y.exceedsNegative)

theorem code_injective : Function.Injective code := by
  intro first second same
  cases first with
  | zero =>
    cases second with
    | zero => rfl
    | some x y on => cases same
  | some x y on =>
    cases second with
    | zero => cases same
    | some x' y' on' =>
      obtain ⟨rfl, sign⟩ := Prod.mk.inj (Option.some.inj same)
      have equation := nonsingular_iff.mp on
      have equation' := nonsingular_iff.mp on'
      have apart : -y' ≠ y' := CanonicalCompressible.apart x y' equation'
      have level : y = y' := by
        refine (mul_self_eq_mul_self_iff.mp (equation.trans equation'.symm)).resolve_right ?_
        rintro rfl
        have opposite := Base.exceedsNegative_neg apart
        rw [opposite] at sign
        exact absurd sign (Bool.not_ne_self _)
      subst level
      rfl

instance : Finite (curve Base).Point := Finite.of_injective code code_injective

private theorem card_le : Nat.card (curve Base).Point ≤ 2 * baseOrder + 1 := by
  have codes : Nat.card (Option (Base × Bool)) = 2 * baseOrder + 1 := by
    rw [Finite.card_option, Nat.card_prod, Nat.card_eq_fintype_card, Fintype.card_fin,
      Nat.card_eq_fintype_card, Fintype.card_bool, mul_comm]
  exact codes ▸ Nat.card_le_card_of_injective code code_injective

/-- No point is its own opposite. -/
theorem eq_zero_of_add_self {g : (curve Base).Point} (doubled : g + g = 0) : g = 0 := by
  cases g with
  | zero => rfl
  | some x y on =>
    have level : y = (curve Base).negY x y := by
      by_contra steep
      rw [WeierstrassCurve.Affine.Point.add_self_of_Y_ne steep] at doubled
      cases doubled
    rw [negY_eq] at level
    exact absurd level.symm (CanonicalCompressible.apart x y (nonsingular_iff.mp on))

private theorem card_odd : ¬2 ∣ Nat.card (curve Base).Point := by
  intro even
  have : Fact (Nat.Prime 2) := ⟨Nat.prime_two⟩
  obtain ⟨g, order⟩ := exists_prime_addOrderOf_dvd_card' 2 even
  have doubled : g + g = 0 := by
    rw [← two_nsmul, ← order]
    exact addOrderOf_nsmul_eq_zero g
  rw [eq_zero_of_add_self doubled, addOrderOf_zero] at order
  exact absurd order (by decide)

private theorem scalarOrder_dvd_card : scalarOrder ∣ Nat.card (curve Base).Point := by
  obtain ⟨g, same, order⟩ := Point.inGroup_iff.mp firstGenerator_inGroup
  have proper : g ≠ 0 := by
    rintro rfl
    cases same
  have : Fact scalarOrder.Prime := ⟨scalarOrder_prime⟩
  rw [← addOrderOf_eq_prime order proper]
  exact addOrderOf_dvd_natCard g

/-- The curve has as many points as the group order. -/
theorem card_eq : Nat.card (curve Base).Point = scalarOrder := by
  obtain ⟨count, multiple⟩ := scalarOrder_dvd_card
  have positive : 0 < Nat.card (curve Base).Point := Nat.card_pos
  have upper := card_le
  have odd := card_odd
  rw [multiple] at positive upper odd ⊢
  have small : count < 3 := by
    by_contra large
    have times := Nat.mul_le_mul_left scalarOrder (Nat.le_of_not_lt large)
    exact absurd (times.trans upper) (by decide)
  interval_cases count
  · exact absurd positive (Nat.lt_irrefl 0)
  · exact mul_one scalarOrder
  · exact absurd (Nat.dvd_mul_left 2 scalarOrder) odd

theorem order_nsmul (g : (curve Base).Point) : scalarOrder • g = 0 := by
  rw [← card_eq]
  exact card_nsmul_eq_zero'

end Curve

end MailProof
