import MailProof.Circuit
import MailProof.Proofs.Circuit.Bits
import MailProof.Proofs.Packing

/-! The verification circuit. Behind the supplied wires, its constraints hold exactly if the
public code is the one that the public salt and the secret email derive. -/

namespace MailProof

open Synthesis Gadget

variable {reading : Reading} {layout : Layout}

section Parts

instance (digest : Quantity) (pair : Wire × Wire) : Internal (absorbMixed digest pair) := by
  unfold absorbMixed; infer_instance

instance (digits : List Wire) (digit : Wire × Nat) : Internal (enforceDigit digits digit) := by
  unfold enforceDigit; infer_instance

private theorem absorbMixed_meets {digest : Quantity} {email salt : Wire}
    (carried : digest.Carries reading layout d) (hasEmail : layout.Has email)
    (hasSalt : layout.Has salt) :
    Meets reading layout (absorbMixed digest (email, salt)) fun output later =>
      output.Carries reading later (Mimc.chain d
        (Scalar.ofNat ((reading.value email).val ^^^ (reading.value salt).val))) := by
  refine .bind (mix_meets (LinearCombination.within_ofWire hasEmail)
    (LinearCombination.within_ofWire hasSalt)) fun mixed later grows known => ?_
  rw [LinearCombination.eval_ofWire, LinearCombination.eval_ofWire] at known
  exact absorb_meets (carried.mono grows) known

/-- Four consecutive digits of the digest weigh as much as a nibble. -/
theorem weigh_nibble {digits : List Wire} {digest : Scalar}
    (areBits : ∀ wire ∈ digits, reading.IsBit layout wire)
    (decomposed : digits.map reading.bit = lowBits scalarBits digest.val) (index : Nat) :
    (weigh ((digits.drop (4 * (codeLength - 1 - index))).take 4)).eval reading.value =
      Scalar.ofNat (codeNibble digest index) := by
  have chosen : ∀ wire ∈ (digits.drop (4 * (codeLength - 1 - index))).take 4,
      reading.IsBit layout wire :=
    fun wire member => areBits wire (List.mem_of_mem_drop (List.mem_of_mem_take member))
  have fits : 4 * (codeLength - 1 - index) + 4 ≤ scalarBits := by
    simp only [codeLength, scalarBits]
    omega
  rw [weigh_eval chosen, List.map_take, List.map_drop, decomposed, binaryValue_middle fits]
  rfl

private theorem enforceDigit_meets {digits : List Wire} {digit : Wire} {index : Nat}
    {digest : Scalar}
    (areBits : ∀ wire ∈ digits, reading.IsBit layout wire)
    (decomposed : digits.map reading.bit = lowBits scalarBits digest.val)
    (follows : reading.basis = .computed →
      reading.value digit = Scalar.ofNat (codeNibble digest index)) :
    Meets reading layout (enforceDigit digits (digit, index)) fun _ _ =>
      reading.value digit = Scalar.ofNat (codeNibble digest index) := by
  have nibble := weigh_nibble areBits decomposed index
  refine Meets.weaken (Quantity.enforceEqual_meets rfl fun basis => ?_) fun _ _ equal => ?_
  · simp only [Quantity.eval, Quantity.ofWire, LinearCombination.eval_ofWire, nibble, follows basis]
  · simp only [Quantity.eval, Quantity.ofWire, LinearCombination.eval_ofWire, nibble] at equal
    exact equal.symm

end Parts

namespace Verification

def saltWires : List Wire := (List.range packedSize).map .input

def codeWires : List Wire := (List.range' packedSize codeLength).map .input

def emailWires : List Wire := (List.range packedSize).map .witness

/-- The layout behind the supplied wires. -/
def supplied : Layout := { inputs := packedSize + codeLength, witnesses := packedSize }

/-- What the circuit requires of the supplied wires. -/
def body : Synthesis Unit := do
  let digest ← chain absorbMixed (.constant 0) (emailWires.zip saltWires)
  let digits ← bits digest.terms
  let _ ← each (enforceDigit digits) codeWires.zipIdx
  return ()

instance : Internal body := by unfold body; infer_instance

theorem steps_eq : verificationDraft.steps =
    List.replicate packedSize .input ++ (List.replicate codeLength .input ++
      (List.replicate packedSize .secret ++ (body supplied).steps)) := by
  rw [verificationDraft, verificationCircuit, bind_apply, replicate_input, bind_apply,
    replicate_input, bind_apply, replicate_secret]
  rfl

/-- The digest of the email and the salt on the wires. -/
def digest (value : Wire → Scalar) : Scalar :=
  Mimc.hash ((List.range packedSize).map fun i =>
    Scalar.ofNat ((value (.witness i)).val ^^^ (value (.input i)).val))

/-- The code on the wires is the one of the digest. -/
def Derived (value : Wire → Scalar) : Prop :=
  ∀ i < codeLength,
    value (.input (packedSize + i)) = Scalar.ofNat (codeNibble (digest value) i)

private theorem digest_meets :
    Meets reading supplied (chain absorbMixed (.constant 0) (emailWires.zip saltWires))
      fun output later => output.Carries reading later (digest reading.value) := by
  have pairs : emailWires.zip saltWires =
      (List.range packedSize).map fun i => (.witness i, .input i) := by
    rw [emailWires, saltWires, List.zip_map']
  have allocated : ∀ pair ∈ emailWires.zip saltWires, supplied.Has pair.1 ∧ supplied.Has pair.2 := by
    intro pair member
    rw [pairs] at member
    obtain ⟨i, present, rfl⟩ := List.mem_map.mp member
    have bounded : i < packedSize := List.mem_range.mp present
    exact ⟨bounded, Nat.lt_of_lt_of_le bounded (Nat.le_add_right ..)⟩
  have chained : Meets reading supplied
      (chain absorbMixed (.constant 0) (emailWires.zip saltWires)) _ :=
    .chain (fun output d later => output.Carries reading later d)
      (fun d pair => Mimc.chain d
        (Scalar.ofNat ((reading.value pair.1).val ^^^ (reading.value pair.2).val)))
      (emailWires.zip saltWires)
      (fun later grows pair member _ _ carried => absorbMixed_meets carried
        ((allocated pair member).1.mono grows) ((allocated pair member).2.mono grows))
      (Quantity.carries_constant 0)
  refine chained.weaken fun output later carried => ?_
  rw [pairs, List.foldl_map] at carried
  rwa [digest, Mimc.hash, List.foldl_map]

/-- The wires that carry the binary digits of the digest. -/
def digestBits : Synthesis (List Wire) := do
  let digest ← chain absorbMixed (.constant 0) (emailWires.zip saltWires)
  bits digest.terms

instance : Internal digestBits := by unfold digestBits; infer_instance

theorem digestBits_meets : Meets reading supplied digestBits fun digits later =>
    (∀ wire ∈ digits, reading.IsBit later wire) ∧
      digits.map reading.bit = lowBits scalarBits (digest reading.value).val := by
  refine .bind digest_meets fun output second _ carried => ?_
  have decomposed : Meets reading second (bits output.terms) _ := bits_meets carried.1
  rwa [Quantity.eval_terms, carried.2] at decomposed

theorem body_eq : body = digestBits >>= fun digits =>
    each (enforceDigit digits) codeWires.zipIdx >>= fun _ => pure () :=
  (bind_assoc ..).symm

private theorem codeWires_zipIdx :
    codeWires.zipIdx = (List.range codeLength).map fun i => (.input (packedSize + i), i) := by
  decide

/-- Behind the supplied wires, the constraints of the circuit and a derived code are one. -/
theorem body_meets (reading : Reading) (follows : reading.basis = .computed → Derived reading.value) :
    Meets reading supplied body fun _ _ => Derived reading.value := by
  rw [body_eq]
  refine .bind digestBits_meets fun digits third _ ⟨areBits, decomposed⟩ => ?_
  have expected (basis : reading.basis = .computed) : ∀ digit ∈ codeWires.zipIdx,
      reading.value digit.1 = Scalar.ofNat (codeNibble (digest reading.value) digit.2) := by
    intro digit member
    rw [codeWires_zipIdx] at member
    obtain ⟨i, present, rfl⟩ := List.mem_map.mp member
    exact follows basis i (List.mem_range.mp present)
  have compared : Meets reading third (each (enforceDigit digits) codeWires.zipIdx) _ :=
    .each (fun (digit : Wire × Nat) _ _ =>
        reading.value digit.1 = Scalar.ofNat (codeNibble (digest reading.value) digit.2))
      codeWires.zipIdx (fun _ _ _ _ known _ => known)
      (fun later grows digit member => enforceDigit_meets
        (fun wire present => (areBits wire present).mono grows) decomposed
        fun basis => expected basis digit member)
  refine .bind compared fun _ last _ related => .pure fun i bounded => ?_
  have listed : (Wire.input (packedSize + i), i) ∈ codeWires.zipIdx := by
    rw [codeWires_zipIdx]
    exact List.mem_map.mpr ⟨i, List.mem_range.mpr bounded, rfl⟩
  obtain ⟨_, _, known⟩ := exists_related related.flip listed
  exact known

end Verification

end MailProof
