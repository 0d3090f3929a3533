import MailProof.Groth16.Prover
import MailProof.Proofs.Circuit.Assignment
import MailProof.Proofs.Curve.Group
import MailProof.Proofs.Groth16.Quotient
import MailProof.Proofs.Scalar

/-! Key generation. The points of both keys are multiples of two generators, by secret elements
and by values of the wires' polynomials at a secret point. A proof under such a key is then a
pair of multiples too, and its multiples are those of the pairing equation. -/

namespace MailProof

open MailProof.Quotient

namespace LinearCombination

/-- What a wire counts for in a sum. -/
def weight (terms : LinearCombination) (wire : Wire) : Scalar :=
  (terms.map fun term => if term.2 = wire then term.1 else 0).sum

end LinearCombination

namespace Layout

/-- The constant and the public inputs. -/
def publicWires (layout : Layout) : List Wire := .one :: (List.range layout.inputs).map .input

def witnessWires (layout : Layout) : List Wire := (List.range layout.witnesses).map .witness

def wires (layout : Layout) : List Wire := layout.publicWires ++ layout.witnessWires

end Layout

/-- The random choices of a key generation: generators of the two groups and secret elements. -/
structure Ceremony where
  first : G1
  second : G2
  alpha : Scalar
  beta : Scalar
  gamma : Scalar
  delta : Scalar
  tau : Scalar
  first_inGroup : first.InGroup
  second_inGroup : second.InGroup
  gamma_ne_zero : gamma ≠ 0
  delta_ne_zero : delta ≠ 0

namespace Ceremony

variable (ceremony : Ceremony) (constraints : List Constraint) (layout : Layout)

/-- Number of levels of the domain, which has a member for each constraint and each public wire. -/
def levels : Nat := levelsFor (constraints.length + (layout.inputs + 1))

/-- The value at the secret point of the polynomial with the given values on the domain. -/
noncomputable def valueOf (values : List Scalar) : Scalar :=
  (interpolant (levels constraints layout) values).eval ceremony.tau

/-- The left polynomial of a wire, which is one at the place of the wire if it is public. -/
noncomputable def left (wire : Wire) : Scalar :=
  ceremony.valueOf constraints layout (constraints.map (·.left.weight wire) ++
    layout.publicWires.map fun other => if other = wire then 1 else 0)

noncomputable def right (wire : Wire) : Scalar :=
  ceremony.valueOf constraints layout (constraints.map (·.right.weight wire))

noncomputable def output (wire : Wire) : Scalar :=
  ceremony.valueOf constraints layout (constraints.map (·.output.weight wire))

/-- The three polynomials of a wire in one. -/
noncomputable def blend (wire : Wire) : Scalar :=
  ceremony.beta * ceremony.left constraints layout wire +
    ceremony.alpha * ceremony.right constraints layout wire + ceremony.output constraints layout wire

/-- The value at the secret point of the polynomial that vanishes on the domain. -/
def vanishing : Scalar := ceremony.tau ^ 2 ^ levels constraints layout - 1

noncomputable def verifyingKey : VerifyingKey where
  alpha := ceremony.first.multiple ceremony.alpha
  beta := ceremony.second.multiple ceremony.beta
  gamma := ceremony.second.multiple ceremony.gamma
  delta := ceremony.second.multiple ceremony.delta
  inputs := layout.publicWires.map fun wire =>
    ceremony.first.multiple (ceremony.blend constraints layout wire * ceremony.gamma⁻¹)

noncomputable def provingKey : ProvingKey where
  verifyingKey := ceremony.verifyingKey constraints layout
  beta := ceremony.first.multiple ceremony.beta
  delta := ceremony.first.multiple ceremony.delta
  left := layout.wires.map fun wire => ceremony.first.multiple (ceremony.left constraints layout wire)
  right := layout.wires.map fun wire =>
    ceremony.first.multiple (ceremony.right constraints layout wire)
  rightTwist := layout.wires.map fun wire =>
    ceremony.second.multiple (ceremony.right constraints layout wire)
  quotient := (List.range (2 ^ levels constraints layout - 1)).map fun i =>
    ceremony.first.multiple
      (ceremony.vanishing constraints layout * ceremony.delta⁻¹ * ceremony.tau ^ i)
  witness := layout.witnessWires.map fun wire =>
    ceremony.first.multiple (ceremony.blend constraints layout wire * ceremony.delta⁻¹)

end Ceremony

section Wires

/-- Selecting one wire out of a list without repetitions. -/
theorem sum_select {wires : List Wire} (distinct : wires.Nodup) (value : Wire → Scalar)
    {wire : Wire} (covered : wire ∉ wires → value wire = 0) (factor : Scalar) :
    (wires.map fun other => value other * if wire = other then factor else 0).sum =
      factor * value wire := by
  induction wires with
  | nil => simp [covered (List.not_mem_nil)]
  | cons first rest ih =>
    rw [List.map_cons, List.sum_cons]
    by_cases same : wire = first
    · subst same
      have others : (rest.map fun other => value other * if wire = other then factor else 0).sum = 0 := by
        refine List.sum_eq_zero fun term member => ?_
        obtain ⟨other, present, rfl⟩ := List.mem_map.mp member
        have apart : wire ≠ other := fun equal => (List.nodup_cons.mp distinct).1 (equal ▸ present)
        rw [if_neg apart, mul_zero]
      rw [others, if_pos rfl, add_zero, mul_comm]
    · rw [if_neg same, mul_zero, zero_add]
      exact ih (List.nodup_cons.mp distinct).2 fun absent => covered (by simp [same, absent])

/-- A sum is made up of what each wire counts for. -/
theorem sum_weight {wires : List Wire} (distinct : wires.Nodup) {value : Wire → Scalar}
    (covered : ∀ wire, wire ∉ wires → value wire = 0) (terms : LinearCombination) :
    (wires.map fun wire => value wire * terms.weight wire).sum = terms.eval value := by
  induction terms with
  | nil => simp [LinearCombination.weight]
  | cons term terms ih =>
    have split (wire : Wire) : value wire * LinearCombination.weight (term :: terms) wire =
        (value wire * if term.2 = wire then term.1 else 0) +
          value wire * LinearCombination.weight terms wire := by
      rw [LinearCombination.weight, List.map_cons, List.sum_cons, mul_add]
      rfl
    simp only [split, List.sum_map_add]
    rw [ih, sum_select distinct value (covered term.2), LinearCombination.eval_cons]

namespace Layout

variable (layout : Layout)

theorem publicWires_length : layout.publicWires.length = layout.inputs + 1 := by simp [publicWires]

theorem witnessWires_length : layout.witnessWires.length = layout.witnesses := by simp [witnessWires]

theorem mem_wires_iff {wire : Wire} : wire ∈ layout.wires ↔ layout.Has wire := by
  cases wire <;> simp [wires, publicWires, witnessWires, Has]

private theorem wires_nodup : layout.wires.Nodup := by
  have inputs : ((List.range layout.inputs).map Wire.input).Nodup :=
    List.nodup_range.map fun _ _ => Wire.input.inj
  have witnesses : ((List.range layout.witnesses).map Wire.witness).Nodup :=
    List.nodup_range.map fun _ _ => Wire.witness.inj
  simp only [wires, publicWires, witnessWires, List.cons_append, List.nodup_cons, List.nodup_append]
  refine ⟨by simp, inputs, witnesses, ?_⟩
  simp

end Layout

namespace Assignment

variable {assignment : Assignment} {layout : Layout}

/-- Wires that are not allocated carry zero. -/
theorem Fits.value_eq_zero (fits : assignment.Fits layout) {wire : Wire} (absent : wire ∉ layout.wires) :
    assignment.value wire = 0 := by
  rw [layout.mem_wires_iff] at absent
  cases wire with
  | one => exact absurd trivial absent
  | input index =>
    have outside : ¬ index < assignment.inputs.size := fits.1 ▸ absent
    simp [value, outside]
  | witness index =>
    have outside : ¬ index < assignment.witnesses.size := fits.2 ▸ absent
    simp [value, outside]

theorem Fits.publicValues (fits : assignment.Fits layout) :
    1 :: assignment.inputs.toList = layout.publicWires.map assignment.value := by
  rw [Layout.publicWires, List.map_cons, List.map_map]
  refine congrArg (1 :: ·) (List.ext_getElem ?_ ?_)
  · simp [fits.1]
  · intro i bounded _
    have inside : i < assignment.inputs.size := by simpa using bounded
    simp [value, inside]

theorem Fits.witnessValues (fits : assignment.Fits layout) :
    assignment.witnesses.toList = layout.witnessWires.map assignment.value := by
  rw [Layout.witnessWires, List.map_map]
  refine List.ext_getElem ?_ ?_
  · simp [fits.2]
  · intro i bounded _
    have inside : i < assignment.witnesses.size := by simpa using bounded
    simp [value, inside]

end Assignment

end Wires

namespace Ceremony

variable (ceremony : Ceremony) {constraints : List Constraint} {layout : Layout}

/-- The value at the secret point is linear in the values on the domain. -/
theorem valueOf_sum (wires : List Wire) (value : Wire → Scalar) (column : Wire → List Scalar)
    {values : List Scalar}
    (combined : ∀ i, (wires.map fun wire => value wire * (column wire).getD i 0).sum =
      values.getD i 0) :
    (wires.map fun wire => value wire * ceremony.valueOf constraints layout (column wire)).sum =
      ceremony.valueOf constraints layout values := by
  have linear (functional : (Nat → Scalar) →ₗ[Scalar] Scalar) :
      (wires.map fun wire => value wire * functional fun i => (column wire).getD i 0).sum =
        functional fun i => (wires.map fun wire => value wire * (column wire).getD i 0).sum := by
    clear combined
    induction wires with
    | nil => exact (map_zero functional).symm
    | cons wire wires ih =>
      rw [List.map_cons, List.sum_cons, ih, ← smul_eq_mul, ← map_smul, ← map_add]
      rfl
  have applied := linear (Polynomial.leval ceremony.tau ∘ₗ
    Lagrange.interpolate (Finset.range (2 ^ levels constraints layout))
      fun i => rootOfUnity (levels constraints layout) ^ i)
  simp only [combined] at applied
  exact applied

variable {assignment : Assignment} (fits : assignment.Fits layout)

include fits

theorem sum_left : (layout.wires.map fun wire =>
      assignment.value wire * ceremony.left constraints layout wire).sum =
    ceremony.valueOf constraints layout (leftValues constraints assignment) := by
  refine ceremony.valueOf_sum _ _ _ fun i => ?_
  rw [leftValues, fits.publicValues]
  rcases Nat.lt_or_ge i constraints.length with within | beyond
  · have here := sum_weight layout.wires_nodup (fun _ => fits.value_eq_zero) constraints[i].left
    simpa [List.getElem?_append, within] using here
  · rcases Nat.lt_or_ge (i - constraints.length) layout.publicWires.length with inside | outside
    · have absent : layout.publicWires[i - constraints.length] ∉ layout.wires → _ := fits.value_eq_zero
      have place := sum_select layout.wires_nodup assignment.value absent 1
      simpa [List.getElem?_append, Nat.not_lt.mpr beyond, inside] using place
    · simp [List.getElem?_append, Nat.not_lt.mpr beyond, List.getElem?_eq_none outside]

variable (constraints) in
private theorem sum_side (side : Constraint → LinearCombination) : (layout.wires.map fun wire =>
      assignment.value wire * ceremony.valueOf constraints layout
        (constraints.map fun constraint => (side constraint).weight wire)).sum =
    ceremony.valueOf constraints layout
      (constraints.map fun constraint => (side constraint).eval assignment.value) := by
  refine ceremony.valueOf_sum _ _ _ fun i => ?_
  rcases Nat.lt_or_ge i constraints.length with within | beyond
  · have here := sum_weight layout.wires_nodup (fun _ => fits.value_eq_zero) (side constraints[i])
    simpa [within] using here
  · simp [List.getElem?_eq_none beyond]

theorem sum_right : (layout.wires.map fun wire =>
      assignment.value wire * ceremony.right constraints layout wire).sum =
    ceremony.valueOf constraints layout (rightValues constraints assignment) :=
  ceremony.sum_side constraints fits (·.right)

variable (constraints) in
theorem sum_blend : (layout.wires.map fun wire =>
      assignment.value wire * ceremony.blend constraints layout wire).sum =
    ceremony.beta * ceremony.valueOf constraints layout (leftValues constraints assignment) +
      ceremony.alpha * ceremony.valueOf constraints layout (rightValues constraints assignment) +
      ceremony.valueOf constraints layout (outputValues constraints assignment) := by
  have output := ceremony.sum_side constraints fits (·.output)
  rw [← ceremony.sum_left fits, ← ceremony.sum_right fits, outputValues, ← output,
    ← List.sum_map_mul_left, ← List.sum_map_mul_left, ← List.sum_map_add, ← List.sum_map_add]
  refine congrArg List.sum (List.map_congr_left fun wire _ => ?_)
  rw [blend, Ceremony.output]
  ring

/-- The products of a satisfied system hold at the secret point, up to the quotient. -/
theorem valueOf_product (domain : Domain (levels constraints layout))
    (holds : ∀ constraint ∈ constraints, constraint.Holds assignment.value) :
    ceremony.valueOf constraints layout (leftValues constraints assignment) *
        ceremony.valueOf constraints layout (rightValues constraints assignment) -
      ceremony.valueOf constraints layout (outputValues constraints assignment) =
    (polynomial (coefficients constraints assignment)).eval ceremony.tau *
      ceremony.vanishing constraints layout := by
  have same : systemLevels constraints assignment = levels constraints layout := by
    rw [systemLevels, levels, fits.1]
  have identity := (coefficients_eq (same ▸ domain) holds).2
  have evaluated := congrArg (Polynomial.eval ceremony.tau) identity
  rw [same] at evaluated
  simp only [Polynomial.eval_mul, Polynomial.eval_sub, Polynomial.eval_pow, Polynomial.eval_X,
    Polynomial.eval_one] at evaluated
  exact evaluated.symm

/-- The points of the quotient do without its last coefficient, which is zero. -/
theorem sum_quotient (domain : Domain (levels constraints layout))
    (holds : ∀ constraint ∈ constraints, constraint.Holds assignment.value) (factor : Scalar) :
    ((List.range (2 ^ levels constraints layout - 1)).map fun i =>
      (coefficients constraints assignment).getD i 0 * (factor * ceremony.tau ^ i)).sum =
      factor * (polynomial (coefficients constraints assignment)).eval ceremony.tau := by
  have same : systemLevels constraints assignment = levels constraints layout := by
    rw [systemLevels, levels, fits.1]
  have size := (coefficients_eq (same ▸ domain) holds).1
  have last := coefficients_last (same ▸ domain) holds
  have count : 2 ^ levels constraints layout = 2 ^ levels constraints layout - 1 + 1 :=
    (Nat.sub_add_cancel Nat.one_le_two_pow).symm
  have listed : ((List.range (2 ^ levels constraints layout - 1)).map fun i =>
      (coefficients constraints assignment).getD i 0 * (factor * ceremony.tau ^ i)).sum =
      ∑ i ∈ Finset.range (2 ^ levels constraints layout - 1),
        (coefficients constraints assignment).getD i 0 * (factor * ceremony.tau ^ i) := rfl
  rw [same] at size last
  rw [eval_polynomial, size, count, Finset.sum_range_succ, last, zero_mul, add_zero, Finset.mul_sum,
    ← count, listed]
  exact Finset.sum_congr rfl fun i _ => by ring

end Ceremony

end MailProof
