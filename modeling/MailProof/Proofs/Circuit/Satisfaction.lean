import MailProof.Proofs.Circuit.Assignment
import MailProof.Proofs.Circuit.Building
import MailProof.Proofs.Code

/-! When the constraints of the verification circuit hold. Every assignment that satisfies them
has the public code of its email and salt, and the assignment of a claim satisfies them if the
claim is right. -/

namespace MailProof

open Synthesis Gadget

namespace CodeClaim

/-- The values that an honest prover supplies. -/
def honest (email salt : PackedText) (code : CodeDigits) : Assignment :=
  ⟨(salt.toList ++ digitElements code).toArray, email.toList.toArray⟩

theorem digitElements_length (code : CodeDigits) : (digitElements code).length = codeLength := by
  simp [digitElements]

theorem honest_fits (email salt : PackedText) (code : CodeDigits) :
    (honest email salt code).Fits Verification.supplied := by
  simp [Assignment.Fits, honest, Verification.supplied, digitElements_length]

variable {email salt : PackedText} {code : CodeDigits}

private theorem honest_salt (i : Nat) (bounded : i < packedSize) :
    (honest email salt code).value (.input i) = salt[i] := by
  simp [honest, Assignment.value, List.getElem?_append, bounded]

theorem honest_code (i : Nat) (bounded : i < codeLength) :
    (honest email salt code).value (.input (packedSize + i)) = Scalar.ofNat code[i].toNat := by
  simp [honest, Assignment.value, digitElements, bounded]

private theorem honest_email (i : Nat) (bounded : i < packedSize) :
    (honest email salt code).value (.witness i) = email[i] := by
  simp [honest, Assignment.value, bounded]

private theorem assign_supply (steps : List Step) :
    assign (supply ⟨some email, some salt, some code⟩) {}
        (List.replicate packedSize .input ++ (List.replicate codeLength .input ++
          (List.replicate packedSize .secret ++ steps))) =
      assign {} (honest email salt code) steps := by
  have known : supply ⟨some email, some salt, some code⟩ =
      ⟨salt.toList.map some ++ ((digitElements code).map some ++ []), email.toList.map some ++ []⟩ := by
    simp [supply, known]
  rw [known, assign_inputs salt.length_toList, assign_inputs (digitElements_length code),
    assign_secrets email.length_toList]
  simp [honest]

/-- An honest prover gets values for all wires, with the supplied ones in their places. -/
theorem synthesize_proving (email salt : PackedText) (code : CodeDigits) :
    ∃ assignment, synthesize ⟨some email, some salt, some code⟩ .proving =
        .ok ⟨verificationDraft.constraints, verificationDraft.shape, some assignment⟩ ∧
      (∀ wire, Verification.supplied.Has wire →
        assignment.value wire = (honest email salt code).value wire) ∧
      Computed assignment.value Verification.supplied
        (Verification.body Verification.supplied).steps := by
  have internal : ∀ step ∈ (Verification.body Verification.supplied).steps,
      step ≠ .input ∧ step ≠ .secret := Internal.derived_only Verification.supplied
  obtain ⟨assignment, run, kept, computed⟩ :=
    assign_internal {} (honest_fits email salt code) _ internal
  refine ⟨assignment, ?_, kept, computed⟩
  rw [synthesize_eq, Draft.system, Verification.steps_eq, assign_supply, run]
  rfl

/-- The digest that the supplied wires carry. -/
theorem digest_eq {value : Wire → Scalar}
    (kept : ∀ wire, Verification.supplied.Has wire →
      value wire = (honest email salt code).value wire) :
    Verification.digest value = mixedDigest email salt := by
  have blocks : (List.range packedSize).map (fun i =>
      Scalar.ofNat ((value (.witness i)).val ^^^ (value (.input i)).val)) =
      List.zipWith (fun x y : Scalar => Scalar.ofNat (x.val ^^^ y.val)) email.toList salt.toList := by
    apply List.ext_getElem
    · simp
    · intro i bounded _
      have inRange : i < packedSize := by simpa using bounded
      have hasEmail : Verification.supplied.Has (.witness i) := inRange
      have hasSalt : Verification.supplied.Has (.input i) :=
        Nat.lt_of_lt_of_le inRange (Nat.le_add_right ..)
      simp [kept _ hasEmail, kept _ hasSalt, honest_email i inRange, honest_salt i inRange]
  rw [Verification.digest, blocks, mixedDigest]

theorem digit_eq_iff (digit : UInt8) (d : Scalar) (i : Nat) :
    Scalar.ofNat digit.toNat = Scalar.ofNat (codeNibble d i) ↔ digit = UInt8.ofNat (codeNibble d i) := by
  have small : codeNibble d i < 256 := Nat.lt_trans (codeNibble_lt d i) (by decide)
  have fits : ∀ n < 256, n < scalarOrder := fun n bounded => Nat.lt_trans bounded (by decide)
  constructor
  · intro same
    rw [← Scalar.ofNat_injective_of_lt same (fits _ digit.toNat_lt) (fits _ small)]
    exact (UInt8.ofNat_toNat ..).symm
  · intro same
    rw [same, UInt8.toNat_ofNat_of_lt' small]

theorem derived_iff {value : Wire → Scalar}
    (kept : ∀ wire, Verification.supplied.Has wire →
      value wire = (honest email salt code).value wire) :
    Verification.Derived value ↔ code = CodeDigits.ofDigest (mixedDigest email salt) := by
  have carried : ∀ i (bounded : i < codeLength),
      value (.input (packedSize + i)) = Scalar.ofNat code[i].toNat := by
    intro i bounded
    have has : Verification.supplied.Has (.input (packedSize + i)) :=
      Nat.add_lt_add_left bounded packedSize
    rw [kept _ has, honest_code i bounded]
  rw [Verification.Derived, digest_eq kept, Vector.ext_iff]
  refine forall₂_congr fun i bounded => ?_
  rw [carried i bounded, digit_eq_iff, CodeDigits.ofDigest, Vector.getElem_ofFn, codeNibble]

end CodeClaim

/-- Only the required part of the circuit states constraints. -/
theorem constraints_hold_iff (value : Wire → Scalar) :
    (∀ constraint ∈ verificationDraft.constraints, constraint.Holds value) ↔
      Constrained value (Verification.body Verification.supplied).steps := by
  have silent (step : Step) (none : step.constraint? = none) (count : Nat) :
      Constrained value (List.replicate count step) := by
    intro constraint member
    obtain ⟨other, present, stated⟩ := List.mem_filterMap.mp member
    rw [List.eq_of_mem_replicate present, none] at stated
    cases stated
  change Constrained value verificationDraft.steps ↔ _
  rw [Verification.steps_eq, constrained_append, constrained_append, constrained_append]
  simp only [silent .input rfl, silent .secret rfl, true_and]

theorem firstUnsatisfied_eq_none_iff (constraints : List Constraint) (value : Wire → Scalar) :
    firstUnsatisfied constraints value = none ↔
      ∀ constraint ∈ constraints, constraint.Holds value := by
  simp [firstUnsatisfied]

/-- Every assignment that satisfies the constraints has the code that it derives. -/
theorem derived_of_constraints {value : Wire → Scalar} (one : value .one = 1)
    (holds : ∀ constraint ∈ verificationDraft.constraints, constraint.Holds value) :
    Verification.Derived value :=
  (Verification.body_meets ⟨.constrained, value, one⟩ nofun
    ((constraints_hold_iff value).mp holds)).2

/-- Values that follow the rules satisfy the constraints if the code is derived. -/
theorem constraints_of_derived {value : Wire → Scalar} (one : value .one = 1)
    (computed : Computed value Verification.supplied (Verification.body Verification.supplied).steps)
    (derived : Verification.Derived value) :
    ∀ constraint ∈ verificationDraft.constraints, constraint.Holds value :=
  (constraints_hold_iff value).mpr
    (Verification.body_meets ⟨.computed, value, one⟩ (fun _ => derived) computed).1

namespace CodeClaim

/-- The values of an honest prover satisfy the constraints for the right code and no other. -/
theorem satisfied_iff (email salt : PackedText) (code : CodeDigits) :
    ∃ assignment, synthesize ⟨some email, some salt, some code⟩ .proving =
        .ok ⟨verificationDraft.constraints, verificationDraft.shape, some assignment⟩ ∧
      (firstUnsatisfied verificationDraft.constraints assignment.value = none ↔
        code = CodeDigits.ofDigest (mixedDigest email salt)) := by
  obtain ⟨assignment, run, kept, computed⟩ := synthesize_proving email salt code
  refine ⟨assignment, run, ?_⟩
  rw [← derived_iff kept, firstUnsatisfied_eq_none_iff]
  exact ⟨derived_of_constraints rfl, constraints_of_derived rfl computed⟩

private theorem empty_right : ∃ zeros : PackedText,
    empty = ⟨some zeros, some zeros, some (CodeDigits.ofDigest (mixedDigest zeros zeros))⟩ := by
  refine ⟨Vector.replicate packedSize 0, ?_⟩
  have mixed : List.zipWith (fun x y : Scalar => Scalar.ofNat (x.val ^^^ y.val))
      (List.replicate packedSize 0) (List.replicate packedSize 0) = List.replicate packedSize 0 := by
    rw [List.zipWith_replicate]
    rfl
  rw [empty, mixedDigest, Vector.toList_replicate, mixed]

end CodeClaim

/-- Whatever the other witnesses are, the public code is the one that the email witnesses derive
under the public salt: its digits are the nibbles of the low twenty-four bits of the digest. -/
theorem public_code_forced (value : Wire → Scalar) (one : value .one = 1)
    (holds : ∀ constraint ∈ verificationDraft.constraints, constraint.Holds value)
    (i : Fin codeLength) :
    (value (.input (packedSize + i.val))).val =
      (Verification.digest value).val >>> (4 * (codeLength - 1 - i.val)) % 16 := by
  have digit := derived_of_constraints one holds i.val i.isLt
  have small : codeNibble (Verification.digest value) i.val < scalarOrder :=
    Nat.lt_trans (codeNibble_lt _ _) (by decide)
  rw [digit, Scalar.val_ofNat, Nat.mod_eq_of_lt small, codeNibble]

/-- The values of the all-zero claim satisfy the constraints, so its code is forced. -/
theorem public_code_forced_empty :
    ∃ system assignment, CodeClaim.empty.synthesize .proving = .ok system ∧
      system.assignment = some assignment ∧
      (∀ constraint ∈ verificationDraft.constraints, constraint.Holds assignment.value) ∧
      ∀ i : Fin codeLength, (assignment.value (.input (packedSize + i.val))).val =
        (Verification.digest assignment.value).val >>> (4 * (codeLength - 1 - i.val)) % 16 := by
  obtain ⟨zeros, right⟩ := CodeClaim.empty_right
  obtain ⟨assignment, run, kept, computed⟩ := CodeClaim.synthesize_proving zeros zeros
    (CodeDigits.ofDigest (mixedDigest zeros zeros))
  have holds := constraints_of_derived rfl computed ((CodeClaim.derived_iff kept).mpr rfl)
  rw [← right] at run
  exact ⟨_, assignment, run, rfl, holds, public_code_forced assignment.value rfl holds⟩

end MailProof
