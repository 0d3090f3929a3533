import Mathlib.Algebra.Group.TypeTags.Basic
import Mathlib.GroupTheory.SpecificGroups.Cyclic
import MailProof.Proofs.Curve.Order

/-! Pairings of the two groups with the laws that proof systems rely on: they turn sums in either
group into products, and only pairs with the point at infinity go to one. Such a pairing tells the
points of one group apart by their pairing with any fixed point of the other. -/

namespace MailProof

namespace Point

variable {K : Type} [CurveField K] [DecidableEq K] {p : Point K}

omit [DecidableEq K] in
theorem OnCurve.neg (on : p.OnCurve) : p.neg.OnCurve := by
  obtain ⟨g, rfl⟩ := onCurve_iff.mp on
  exact onCurve_iff.mpr ⟨-g, neg_ofElement g⟩

theorem InGroup.neg (member : p.InGroup) : p.neg.InGroup := by
  obtain ⟨g, rfl, order⟩ := inGroup_iff.mp member
  exact inGroup_iff.mpr ⟨-g, neg_ofElement g, by rw [smul_neg, order, neg_zero]⟩

end Point

namespace Pairing

variable {T : Type} [CommMonoid T]

/-- A bilinear and non-degenerate pairing of the points of the curve with those of the twist that
have the group order. -/
structure Lawful (pairing : Point Base → Point Quadratic → T) : Prop where
  add_first : ∀ (g h : (curve Base).Point) (k : (curve Quadratic).Point), scalarOrder • k = 0 →
    pairing (.ofElement (g + h)) (.ofElement k) =
      pairing (.ofElement g) (.ofElement k) * pairing (.ofElement h) (.ofElement k)
  add_second : ∀ (g : (curve Base).Point) (k l : (curve Quadratic).Point), scalarOrder • k = 0 →
    scalarOrder • l = 0 → pairing (.ofElement g) (.ofElement (k + l)) =
      pairing (.ofElement g) (.ofElement k) * pairing (.ofElement g) (.ofElement l)
  eq_one_iff : ∀ (g : (curve Base).Point) (k : (curve Quadratic).Point), scalarOrder • k = 0 →
    (pairing (.ofElement g) (.ofElement k) = 1 ↔ g = 0 ∨ k = 0)

namespace Lawful

variable {pairing : Point Base → Point Quadratic → T} (lawful : Lawful pairing)

include lawful

theorem mul_neg_first {p : Point Base} {q : Point Quadratic} (on : p.OnCurve) (member : q.InGroup) :
    pairing p q * pairing p.neg q = 1 := by
  obtain ⟨g, rfl⟩ := Point.onCurve_iff.mp on
  obtain ⟨k, rfl, order⟩ := Point.inGroup_iff.mp member
  rw [Point.neg_ofElement, ← lawful.add_first g (-g) k order, add_neg_cancel,
    lawful.eq_one_iff 0 k order]
  exact .inl rfl

private theorem mul_neg_second {p : Point Base} {q : Point Quadratic} (on : p.OnCurve)
    (member : q.InGroup) :
    pairing p q * pairing p q.neg = 1 := by
  obtain ⟨g, rfl⟩ := Point.onCurve_iff.mp on
  obtain ⟨k, rfl, order⟩ := Point.inGroup_iff.mp member
  have opposite : scalarOrder • -k = 0 := by rw [smul_neg, order, neg_zero]
  rw [Point.neg_ofElement, ← lawful.add_second g k (-k) order opposite, add_neg_cancel,
    lawful.eq_one_iff g 0 (nsmul_zero scalarOrder)]
  exact .inr rfl

/-- Factors that a pairing gives can be cancelled. -/
theorem mul_left_cancel {p : Point Base} {q : Point Quadratic} (on : p.OnCurve) (member : q.InGroup)
    {x y : T} (same : pairing p q * x = pairing p q * y) : x = y := by
  have unit : pairing p.neg q * pairing p q = 1 := by
    rw [mul_comm, lawful.mul_neg_first on member]
  calc x = pairing p.neg q * (pairing p q * x) := by rw [← mul_assoc, unit, one_mul]
    _ = pairing p.neg q * (pairing p q * y) := by rw [same]
    _ = y := by rw [← mul_assoc, unit, one_mul]

/-- Points of the curve are told apart by any point of the twist but the one at infinity. -/
theorem first_injective {p p' : Point Base} {q : Point Quadratic} (on : p.OnCurve)
    (on' : p'.OnCurve) (member : q.InGroup) (finite : q ≠ .infinity)
    (same : pairing p q = pairing p' q) : p = p' := by
  have cancel := lawful.mul_neg_first on' member
  obtain ⟨g, rfl⟩ := Point.onCurve_iff.mp on
  obtain ⟨h, rfl⟩ := Point.onCurve_iff.mp on'
  obtain ⟨k, rfl, order⟩ := Point.inGroup_iff.mp member
  rw [← same, Point.neg_ofElement, ← lawful.add_first g (-h) k order,
    lawful.eq_one_iff _ k order] at cancel
  rcases cancel with zero | zero
  · rw [eq_of_sub_eq_zero ((sub_eq_add_neg g h).trans zero)]
  · subst zero
    exact absurd rfl finite

/-- Points of the twist are told apart by any point of the curve but the one at infinity. -/
theorem second_injective {p : Point Base} {q q' : Point Quadratic} (on : p.OnCurve)
    (member : q.InGroup) (member' : q'.InGroup) (finite : p ≠ .infinity)
    (same : pairing p q = pairing p q') : q = q' := by
  have cancel := lawful.mul_neg_second on member'
  obtain ⟨g, rfl⟩ := Point.onCurve_iff.mp on
  obtain ⟨k, rfl, order⟩ := Point.inGroup_iff.mp member
  obtain ⟨l, rfl, order'⟩ := Point.inGroup_iff.mp member'
  have opposite : scalarOrder • -l = 0 := by rw [smul_neg, order', neg_zero]
  have total : scalarOrder • (k + -l) = 0 := by rw [smul_add, order, opposite, add_zero]
  rw [← same, Point.neg_ofElement, ← lawful.add_second g k (-l) order opposite,
    lawful.eq_one_iff g _ total] at cancel
  rcases cancel with zero | zero
  · subst zero
    exact absurd rfl finite
  · rw [eq_of_sub_eq_zero ((sub_eq_add_neg k l).trans zero)]

/-- Multiples in either group go to powers. -/
private theorem pairing_nsmul (g : (curve Base).Point) {k : (curve Quadratic).Point}
    (order : scalarOrder • k = 0) (m n : Nat) :
    pairing (.ofElement (m • g)) (.ofElement (n • k)) =
      pairing (.ofElement g) (.ofElement k) ^ (m * n) := by
  have multiples (n : Nat) : scalarOrder • n • k = 0 := by rw [smul_comm, order, nsmul_zero]
  have second : pairing (.ofElement g) (.ofElement (n • k)) =
      pairing (.ofElement g) (.ofElement k) ^ n := by
    induction n with
    | zero =>
      rw [zero_nsmul, pow_zero, lawful.eq_one_iff g 0 (nsmul_zero scalarOrder)]
      exact .inr rfl
    | succ n ih => rw [succ_nsmul, lawful.add_second g _ k (multiples n) order, ih, pow_succ]
  rw [mul_comm, pow_mul, ← second]
  induction m with
  | zero =>
    rw [zero_nsmul, pow_zero, lawful.eq_one_iff 0 _ (multiples n)]
    exact .inl rfl
  | succ m ih => rw [succ_nsmul, lawful.add_first _ g _ (multiples n), ih, pow_succ]

/-- A product of pairings of multiples of two points is a power of their pairing, by the sum of the
products of the multiples. -/
theorem prod_multiples {p : Point Base} {q : Point Quadratic} (on : p.OnCurve) (member : q.InGroup)
    (pairs : List (Scalar × Scalar)) :
    (pairs.map fun pair => pairing (p.multiple pair.1) (q.multiple pair.2)).prod =
      pairing p q ^ (pairs.map fun pair : Scalar × Scalar => pair.1 * pair.2).sum.val := by
  obtain ⟨g, rfl⟩ := Point.onCurve_iff.mp on
  obtain ⟨k, rfl, order⟩ := Point.inGroup_iff.mp member
  have cycle : pairing (.ofElement g) (.ofElement k) ^ scalarOrder = 1 := by
    have powers := lawful.pairing_nsmul g order 1 scalarOrder
    rw [one_mul, order] at powers
    rw [← powers, lawful.eq_one_iff _ 0 (nsmul_zero scalarOrder)]
    exact .inr rfl
  simp only [Point.multiple_ofElement, lawful.pairing_nsmul g order]
  induction pairs with
  | nil => exact (pow_zero _).symm
  | cons pair pairs ih =>
    rw [List.map_cons, List.map_cons, List.prod_cons, List.sum_cons, ih, ← pow_add,
      pow_eq_pow_mod _ cycle, Fin.val_add, Fin.val_mul, Nat.mod_add_mod]

end Lawful

end Pairing

namespace Curve

/-- The element with the coordinates of the generator. -/
def generator : (curve Base).Point := .some 1 2 (nonsingular_iff.mpr (by decide))

private theorem addOrderOf_generator : addOrderOf generator = scalarOrder := by
  have : Fact scalarOrder.Prime := ⟨scalarOrder_prime⟩
  refine addOrderOf_eq_prime (order_nsmul generator) ?_
  rintro ⟨⟩

/-- Every element is a multiple of the generator, as the order is prime. -/
theorem exists_nsmul_generator (g : (curve Base).Point) : ∃ n : Nat, n • generator = g := by
  have : Fact scalarOrder.Prime := ⟨scalarOrder_prime⟩
  have proper : generator ≠ 0 := by rintro ⟨⟩
  exact (AddSubmonoid.mem_multiples_iff g generator).mp (mem_multiples_of_prime_card card_eq proper)

/-- A multiplier that gives the element. -/
noncomputable def logarithm (g : (curve Base).Point) : Nat := (exists_nsmul_generator g).choose

private theorem logarithm_nsmul (g : (curve Base).Point) : logarithm g • generator = g :=
  (exists_nsmul_generator g).choose_spec

private theorem logarithm_add (g h : (curve Base).Point) :
    logarithm (g + h) % scalarOrder = (logarithm g + logarithm h) % scalarOrder := by
  have same : logarithm (g + h) • generator = (logarithm g + logarithm h) • generator := by
    rw [add_nsmul, logarithm_nsmul, logarithm_nsmul, logarithm_nsmul]
  have congruent := nsmul_eq_nsmul_iff_modEq.mp same
  rwa [addOrderOf_generator] at congruent

theorem logarithm_dvd_iff (g : (curve Base).Point) : scalarOrder ∣ logarithm g ↔ g = 0 := by
  rw [← addOrderOf_generator, addOrderOf_dvd_iff_nsmul_eq_zero, logarithm_nsmul]

end Curve

namespace Pairing

/-- The multiple of a point of the twist by the logarithm of a point of the curve. -/
noncomputable def logarithmic (p : Point Base) (q : Point Quadratic) :
    Multiplicative (curve Quadratic).Point :=
  .ofAdd (Curve.logarithm (Function.invFun Point.ofElement p) • Function.invFun Point.ofElement q)

private theorem logarithmic_ofElement (g : (curve Base).Point) (k : (curve Quadratic).Point) :
    logarithmic (.ofElement g) (.ofElement k) = .ofAdd (Curve.logarithm g • k) := by
  rw [logarithmic, Function.leftInverse_invFun Point.ofElement_injective,
    Function.leftInverse_invFun Point.ofElement_injective]

/-- The laws have a model. -/
theorem logarithmic_lawful : Lawful logarithmic where
  add_first g h k order := by
    rw [logarithmic_ofElement, logarithmic_ofElement, logarithmic_ofElement, ← ofAdd_add,
      ← add_nsmul, ← Point.mod_order_nsmul order, Curve.logarithm_add, Point.mod_order_nsmul order]
  add_second g k l _ _ := by
    rw [logarithmic_ofElement, logarithmic_ofElement, logarithmic_ofElement, ← ofAdd_add,
      nsmul_add]
  eq_one_iff g k order := by
    rw [logarithmic_ofElement, ofAdd_eq_one]
    constructor
    · intro zero
      by_cases proper : k = 0
      · exact .inr proper
      · have : Fact scalarOrder.Prime := ⟨scalarOrder_prime⟩
        rw [← addOrderOf_dvd_iff_nsmul_eq_zero, addOrderOf_eq_prime order proper] at zero
        exact .inl ((Curve.logarithm_dvd_iff g).mp zero)
    · rintro (zero | rfl)
      · obtain ⟨count, multiple⟩ := (Curve.logarithm_dvd_iff g).mpr zero
        rw [multiple, mul_comm, mul_nsmul', order, nsmul_zero]
      · exact nsmul_zero _

end Pairing

end MailProof
