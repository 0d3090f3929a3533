import MailProof.Packing
import MailProof.Hex
import MailProof.Proofs.Bytes
import MailProof.Proofs.Scalar
import Mathlib.Data.List.GetD

/-! Packed texts and codes. An element of a packed text is far below the field order, and the
digits of a code are read from its lowercase hexadecimal text and from no other. -/

namespace MailProof

theorem packPoints_lt (points : List Char) : packPoints points < 2 ^ (32 * points.length) := by
  induction points with
  | nil => simp [packPoints]
  | cons point points ih =>
    have low : point.toNat < 2 ^ 32 := point.val.toNat_lt
    have width : 2 ^ (32 * (points.length + 1)) = 2 ^ 32 * 2 ^ (32 * points.length) := by
      rw [Nat.mul_succ, Nat.pow_add, Nat.mul_comm]
    rw [List.length_cons, width, packPoints, List.foldr_cons, ← packPoints, UInt32.size]
    omega

theorem pack_of_long {text : String} (long : text.length > textCapacity) :
    pack text = .error (.inputTooLong text.length textCapacity) := by
  rw [pack, String.length_toList, if_pos long]

theorem pack_of_fits {text : String} (fits : text.length ≤ textCapacity) :
    ∃ packed, pack text = .ok packed := by
  rw [pack, String.length_toList, if_neg (Nat.not_lt_of_le fits)]
  exact ⟨_, rfl⟩

/-- The width of a packed element in bits. -/
def packedBits : Nat := 32 * charsPerElement

theorem packedBits_lt_scalarOrder : 2 ^ packedBits < scalarOrder := by decide

theorem pack_bounded {text : String} {packed : PackedText} (packs : pack text = .ok packed)
    (i : Nat) (inRange : i < packedSize) : packed[i].val < 2 ^ packedBits := by
  rw [pack] at packs
  split at packs
  · exact absurd packs nofun
  · rw [← Except.ok.inj packs, Vector.getElem_ofFn, Scalar.val_ofNat]
    have short : ((text.toList.drop (charsPerElement * i)).take charsPerElement).length ≤
        charsPerElement := List.length_take_le ..
    have bounded := Nat.lt_of_lt_of_le (packPoints_lt _)
      (Nat.pow_le_pow_right (by decide : 0 < 2) (Nat.mul_le_mul_left 32 short))
    exact Nat.lt_of_le_of_lt (Nat.mod_le ..) bounded

/-- Packed texts mix to canonical elements: each has 224 bits, and so has their exclusive or. -/
theorem xor_of_packs {email salt : String} {packedEmail packedSalt : PackedText}
    (packs : pack email = .ok packedEmail) (packs' : pack salt = .ok packedSalt)
    (i : Nat) (inRange : i < packedSize) :
    packedEmail[i].val ^^^ packedSalt[i].val < scalarOrder :=
  Nat.lt_trans
    (Nat.xor_lt_two_pow (pack_bounded packs i inRange) (pack_bounded packs' i inRange))
    packedBits_lt_scalarOrder

/-- The byte of a lowercase hexadecimal digit. -/
def digitByte (digit : UInt8) : UInt8 := (Hex.digit digit.toNat).val.toUInt8

theorem codeDigit?_eq_some_iff (byte digit : UInt8) :
    codeDigit? byte = some digit ↔ digit < 16 ∧ byte = digitByte digit := by
  have read : ∀ n < 256, (codeDigit? (.ofNat n)).all (fun value =>
      value < 16 && UInt8.ofNat n == digitByte value) = true := by decide +kernel
  have write : ∀ n < 16, codeDigit? (digitByte (.ofNat n)) = some (.ofNat n) := by decide
  constructor
  · intro found
    have known := read byte.toNat byte.toNat_lt
    rw [UInt8.ofNat_toNat, found] at known
    simpa using known
  · rintro ⟨small, rfl⟩
    have known := write digit.toNat small
    rwa [UInt8.ofNat_toNat] at known

theorem Hex.digit_ascii (n : Nat) : (Hex.digit n).val ≤ 127 := by
  have small : ∀ n < 16, (Hex.digit n).val ≤ 127 := by decide
  by_cases digit : n < 16
  · exact small n digit
  · rw [Hex.digit, List.getD_eq_default _ _ (Nat.le_of_not_lt digit)]
    decide

/-- A digit of the code of a digest; the first is the most significant. -/
def codeNibble (digest : Scalar) (index : Nat) : Nat :=
  digest.val >>> (4 * (codeLength - 1 - index)) % 16

theorem codeNibble_lt (digest : Scalar) (index : Nat) : codeNibble digest index < 16 :=
  Nat.mod_lt _ (by decide)

namespace CodeDigits

theorem ofDigest_toList (digest : Scalar) : (ofDigest digest).toList =
    (List.range codeLength).map fun i => UInt8.ofNat (codeNibble digest i) := by
  apply List.ext_getElem
  · simp
  · simp [ofDigest, codeNibble]

/-- The text of digits in lowercase hexadecimal. -/
def toText (digits : CodeDigits) : String :=
  String.ofList (digits.toList.map fun digit => Hex.digit digit.toNat)

private theorem encode_toText (digits : CodeDigits) :
    Utf8.encode digits.toText = digits.toList.map digitByte := by
  have ascii : ∀ char ∈ digits.toList.map fun digit => Hex.digit digit.toNat, char.val ≤ 127 := by
    intro char member
    obtain ⟨digit, _, rfl⟩ := List.mem_map.mp member
    exact Hex.digit_ascii digit.toNat
  rw [toText, Utf8.encode_ascii ascii, List.map_map]
  rfl

/-- A code is read byte by byte. -/
theorem ofText_eq_ok_iff_map (code : String) (digits : CodeDigits) :
    ofText code = .ok digits ↔ (Utf8.encode code).map codeDigit? = digits.toList.map some := by
  simp only [ofText]
  by_cases size : (Utf8.encode code).length = codeLength
  · rw [if_neg (not_not.mpr size)]
    split
    · next index found =>
      obtain ⟨inRange, bad, _⟩ := List.findIdx?_eq_some_iff_getElem.mp found
      refine ⟨nofun, fun same => ?_⟩
      have absent : none ∈ (Utf8.encode code).map codeDigit? :=
        List.mem_map.mpr ⟨_, List.getElem_mem inRange, Option.isNone_iff_eq_none.mp bad⟩
      simp [same] at absent
    · next found =>
      have place (i : Nat) (inRange : i < codeLength) (bounded : i < (Utf8.encode code).length) :
          (codeDigit? ((Utf8.encode code).getD i 0)).getD 0 = digits[i] ↔
            codeDigit? (Utf8.encode code)[i] = some digits[i] := by
        have good := List.findIdx?_eq_none_iff.mp found _ (List.getElem_mem bounded)
        obtain ⟨digit, read⟩ := Option.isSome_iff_exists.mp (Option.isNone_eq_false_iff.mp good)
        rw [List.getD_eq_getElem _ _ bounded, read, Option.getD_some, Option.some.injEq]
      rw [Except.ok.injEq, Vector.ext_iff, List.ext_getElem_iff]
      simp only [Vector.getElem_ofFn, List.length_map, size, Vector.length_toList, List.getElem_map,
        Vector.getElem_toList, true_and]
      exact ⟨fun same i inRange _ => (place i inRange (size ▸ inRange)).mp (same i inRange),
        fun same i inRange => (place i inRange (size ▸ inRange)).mpr (same i inRange inRange)⟩
  · rw [if_pos size]
    refine ⟨nofun, fun same => absurd ?_ size⟩
    simpa using congrArg List.length same

theorem ofText_eq_ok_iff (code : String) (digits : CodeDigits) :
    ofText code = .ok digits ↔ (∀ digit ∈ digits.toList, digit < 16) ∧ code = digits.toText := by
  rw [ofText_eq_ok_iff_map]
  have read {bytes : Bytes} {values : List UInt8} (same : bytes.map codeDigit? = values.map some) :
      (∀ value ∈ values, value < 16) ∧ bytes = values.map digitByte := by
    induction values generalizing bytes with
    | nil => simpa using same
    | cons value values ih =>
      cases bytes with
      | nil => simp at same
      | cons byte bytes =>
        obtain ⟨first, rest⟩ := List.cons.inj same
        obtain ⟨small, rfl⟩ := (codeDigit?_eq_some_iff byte value).mp first
        obtain ⟨others, rfl⟩ := ih rest
        exact ⟨List.forall_mem_cons.mpr ⟨small, others⟩, rfl⟩
  constructor
  · intro same
    obtain ⟨small, bytes⟩ := read same
    exact ⟨small, Utf8.encode_injective (bytes.trans digits.encode_toText.symm)⟩
  · rintro ⟨small, rfl⟩
    rw [encode_toText, List.map_map]
    exact List.map_congr_left fun digit member =>
      (codeDigit?_eq_some_iff _ digit).mpr ⟨small digit member, rfl⟩

theorem ofText_toText_ofDigest (digest : Scalar) :
    ofText (ofDigest digest).toText = .ok (ofDigest digest) := by
  refine (ofText_eq_ok_iff _ _).mpr ⟨fun digit member => ?_, rfl⟩
  rw [ofDigest_toList] at member
  obtain ⟨i, _, rfl⟩ := List.mem_map.mp member
  rw [UInt8.lt_iff_toNat_lt,
    UInt8.toNat_ofNat_of_lt' (Nat.lt_trans (codeNibble_lt digest i) (by decide))]
  exact codeNibble_lt digest i

end CodeDigits

end MailProof
