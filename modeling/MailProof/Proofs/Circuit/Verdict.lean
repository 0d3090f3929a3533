import MailProof.Proofs.Circuit.Uniformity

/-! The verdict of the verification circuit. Whatever elements and bytes a claim has, an honest
prover meets all constraints but the last six, and each of these compares one digit of the code
with a digit of the digest. -/

namespace MailProof

open Synthesis Gadget

variable {reading : Reading} {layout : Layout}

namespace CodeDigits

/-- A byte falls into two nibbles. -/
theorem nibbles_ofNat (n : Nat) : [UInt8.ofNat (n % 256) >>> 4, UInt8.ofNat (n % 256) &&& 15] =
    [UInt8.ofNat (n / 16 % 16), UInt8.ofNat (n % 16)] := by
  have known : ∀ k < 256, UInt8.ofNat k >>> 4 = UInt8.ofNat (k / 16) ∧
      UInt8.ofNat k &&& 15 = UInt8.ofNat (k % 16) := by decide +kernel
  have high : n % 256 / 16 = n / 16 % 16 := by omega
  have low : n % 256 % 16 = n % 16 := by omega
  obtain ⟨first, second⟩ := known (n % 256) (Nat.mod_lt n (by decide))
  rw [first, second, high, low]

/-- The digits of a digest are the nibbles of its last three bytes. -/
theorem ofDigest_toList_eq_nibbles (digest : Scalar) : (ofDigest digest).toList =
    (digest.toBytes.drop 29).flatMap fun byte : UInt8 => [byte >>> 4, byte &&& 15] := by
  have tail : digest.toBytes.drop 29 = Bytes.bigEndian 3 digest.val :=
    Bytes.bigEndian_drop 29 3 digest.val
  have places : List.range codeLength = [0, 1, 2, 3, 4, 5] := rfl
  rw [tail, ofDigest_toList, places]
  simp only [Bytes.bigEndian, Bytes.littleEndian, List.reverse_cons, List.reverse_nil,
    List.nil_append, List.cons_append, List.flatMap_cons, List.flatMap_nil, nibbles_ofNat,
    List.map_cons, List.map_nil, codeNibble, codeLength, Nat.shiftRight_eq_div_pow,
    Nat.div_div_eq_div_mul]
  norm_num

end CodeDigits

namespace Verification

/-- The constraint that a digit of the code is a nibble of the digest. -/
def comparison (digits : List Wire) (digit : Wire × Nat) : Constraint :=
  ⟨(weigh ((digits.drop (4 * (codeLength - 1 - digit.2))).take 4)).sub (.ofWire digit.1),
    .ofConstant 1, []⟩

private theorem each_enforceDigit_steps (digits : List Wire) (items : List (Wire × Nat))
    (layout : Layout) :
    (each (enforceDigit digits) items layout).steps =
      items.map fun digit => .enforce (comparison digits digit) := by
  induction items generalizing layout with
  | nil => rfl
  | cons item items ih =>
    rw [each, bind_apply, bind_apply, ih, List.map_cons, pure_apply, List.append_nil]
    rfl

private theorem body_steps : (body supplied).steps = (digestBits supplied).steps ++
    codeWires.zipIdx.map fun digit => .enforce (comparison (digestBits supplied).output digit) := by
  rw [body_eq, bind_apply, bind_apply, each_enforceDigit_steps, pure_apply, List.append_nil]

/-- The last constraints compare the digits of the code, the first digit first. -/
theorem constraints_eq : verificationDraft.constraints =
    (digestBits supplied).constraints ++ (List.finRange codeLength).map fun j =>
      comparison (digestBits supplied).output (.input (packedSize + j.val), j.val) := by
  have silent (step : Step) (none : step.constraint? = none) (count : Nat) :
      (List.replicate count step).filterMap Step.constraint? = [] := by
    rw [List.filterMap_replicate_of_none none]
  have places : codeWires.zipIdx =
      (List.finRange codeLength).map fun j => (.input (packedSize + j.val), j.val) := by decide
  have stated : (codeWires.zipIdx.map fun digit =>
      Step.enforce (comparison (digestBits supplied).output digit)).filterMap Step.constraint? =
      codeWires.zipIdx.map (comparison (digestBits supplied).output) := by
    rw [List.filterMap_map, ← List.filterMap_eq_map]
    rfl
  rw [Draft.constraints, steps_eq, body_steps]
  simp only [List.filterMap_append, silent .input rfl, silent .secret rfl, List.nil_append, stated]
  rw [places, List.map_map]
  rfl

theorem digestBits_length : (digestBits supplied).constraints.length = 73204 := by
  have counted := Layout.after_constraints supplied (digestBits supplied).steps
  rw [← Counted.layout_eq, digestBits_costs.layout] at counted
  exact (Nat.add_left_cancel counted).symm

/-- A comparison holds if the digit is the nibble of the digest in its place. -/
theorem comparison_holds_iff {digits : List Wire} {digest : Scalar}
    (areBits : ∀ wire ∈ digits, reading.IsBit layout wire)
    (decomposed : digits.map reading.bit = lowBits scalarBits digest.val) (digit : Wire)
    (index : Nat) : (comparison digits (digit, index)).Holds reading.value ↔
      reading.value digit = Scalar.ofNat (codeNibble digest index) := by
  rw [Constraint.Holds, comparison, LinearCombination.eval_sub,
    weigh_nibble areBits decomposed index]
  simp [reading.one, sub_eq_zero, eq_comm (a := reading.value digit)]

end Verification

/-- The first place at which two codes differ. -/
def CodeDigits.firstDifference (code other : CodeDigits) : Option Nat :=
  (List.finRange codeLength).findIdx? fun j => code[j] ≠ other[j]

/-- What the constraints of a system say about a code and the digits that it ought to have. -/
structure System.Judges (system : System) (code expected : CodeDigits) : Prop where
  /-- All constraints but the last six hold, and each of these compares the digits in one place. -/
  constraints : ∃ assignment, system.assignment = some assignment ∧
    system.constraints.length = 73210 ∧
    (∀ constraint ∈ system.constraints.take 73204, constraint.Holds assignment.value) ∧
    ∀ j : Fin codeLength, ∃ constraint, system.constraints[73204 + j.val]? = some constraint ∧
      (constraint.Holds assignment.value ↔ code[j] = expected[j])
  first : system.firstUnsatisfied = .ok ((code.firstDifference expected).map (73204 + ·))
  satisfied : system.firstUnsatisfied = .ok none ↔ code = expected

namespace CodeClaim

variable {email salt : PackedText} {code : CodeDigits}

/-- An honest prover meets the constraints of the digest, whatever the code. -/
theorem digestBits_hold {assignment : Assignment}
    (kept : ∀ wire, Verification.supplied.Has wire →
      assignment.value wire = (honest email salt code).value wire)
    (computed : Computed assignment.value Verification.supplied
      (Verification.body Verification.supplied).steps) :
    (∀ constraint ∈ (Verification.digestBits Verification.supplied).constraints,
      constraint.Holds assignment.value) ∧
    ∀ j : Fin codeLength,
      (Verification.comparison (Verification.digestBits Verification.supplied).output
        (.input (packedSize + j.val), j.val)).Holds assignment.value ↔
      code[j] = (CodeDigits.ofDigest (mixedDigest email salt))[j] := by
  let reading : Reading := ⟨.computed, assignment.value, rfl⟩
  rw [Verification.body_steps, computed_append] at computed
  have meets : Meets reading Verification.supplied Verification.digestBits _ :=
    Verification.digestBits_meets
  obtain ⟨holds, areBits, decomposed⟩ := meets computed.1
  refine ⟨holds, fun j => ?_⟩
  have has : Verification.supplied.Has (.input (packedSize + j.val)) :=
    Nat.add_lt_add_left j.isLt packedSize
  rw [Verification.comparison_holds_iff areBits decomposed]
  have carried : reading.value = assignment.value := rfl
  rw [carried, kept _ has, honest_code j.val j.isLt, digest_eq kept, digit_eq_iff]
  simp [CodeDigits.ofDigest, codeNibble]

/-- The first broken constraint is the comparison at the first place where the codes differ. -/
theorem firstUnsatisfied_eq {value : Wire → Scalar} {expected : CodeDigits}
    (derivation : ∀ constraint ∈ (Verification.digestBits Verification.supplied).constraints,
      constraint.Holds value)
    (compares : ∀ j : Fin codeLength,
      (Verification.comparison (Verification.digestBits Verification.supplied).output
        (.input (packedSize + j.val), j.val)).Holds value ↔ code[j] = expected[j]) :
    firstUnsatisfied verificationDraft.constraints value =
      (code.firstDifference expected).map (73204 + ·) := by
  have met : (Verification.digestBits Verification.supplied).constraints.findIdx?
      (fun constraint => ¬ constraint.Holds value) = none := by
    simpa using derivation
  have place : (fun constraint => decide ¬ constraint.Holds value) ∘ (fun j : Fin codeLength =>
      Verification.comparison (Verification.digestBits Verification.supplied).output
        (.input (packedSize + j.val), j.val)) = fun j => decide (code[j] ≠ expected[j]) := by
    funext j
    simp only [Function.comp_apply, compares j, ne_eq]
  rw [firstUnsatisfied, Verification.constraints_eq, List.findIdx?_append, met, Option.none_or,
    List.findIdx?_map, place, Verification.digestBits_length, CodeDigits.firstDifference]
  simp only [Nat.add_comm]

end CodeClaim

theorem CodeDigits.firstDifference_eq_none_iff (code other : CodeDigits) :
    code.firstDifference other = none ↔ code = other := by
  simp [firstDifference, Vector.ext_iff, Fin.forall_iff]

/-- The verdict on a claim of any elements and bytes. The constraints of the derivation hold, and a
digit of the code is accepted if it is the one of the digest, which the elements mix to by the
exclusive or of their canonical values, reduced where it exceeds the field order. The digits of the
digest are the nibbles of its last three bytes. -/
theorem circuit_verdict (email salt : PackedText) (code : CodeDigits) :
    let expected := CodeDigits.ofDigest (mixedDigest email salt)
    (∃ system, CodeClaim.synthesize ⟨some email, some salt, some code⟩ .proving = .ok system ∧
      system.Judges code expected) ∧
    expected.toList = ((mixedDigest email salt).toBytes.drop 29).flatMap fun byte : UInt8 =>
      [byte >>> 4, byte &&& 15] := by
  intro expected
  refine ⟨?_, CodeDigits.ofDigest_toList_eq_nibbles _⟩
  obtain ⟨assignment, run, kept, computed⟩ := CodeClaim.synthesize_proving email salt code
  obtain ⟨derivation, compares⟩ := CodeClaim.digestBits_hold kept computed
  let system : System := ⟨verificationDraft.constraints, verificationDraft.shape, some assignment⟩
  have first : system.firstUnsatisfied =
      .ok ((code.firstDifference expected).map (73204 + ·)) :=
    congrArg Except.ok (CodeClaim.firstUnsatisfied_eq derivation compares)
  refine ⟨system, run, ?_, first, ?_⟩
  · refine ⟨assignment, rfl, verificationConstraints_length, ?_, fun j => ⟨_, ?_, compares j⟩⟩
    · change ∀ constraint ∈ verificationDraft.constraints.take 73204, _
      rw [Verification.constraints_eq, List.take_left' Verification.digestBits_length]
      exact derivation
    · change verificationDraft.constraints[73204 + j.val]? = _
      rw [Verification.constraints_eq, ← Verification.digestBits_length,
        List.getElem?_append_right (Nat.le_add_right ..), Nat.add_sub_cancel_left]
      simp
  · rw [first, ← CodeDigits.firstDifference_eq_none_iff]
    simp

end MailProof
