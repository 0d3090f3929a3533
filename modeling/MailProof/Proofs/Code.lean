import MailProof.Code
import MailProof.Proofs.Mimc.Hasher
import MailProof.Proofs.Packing

/-! Derivation of codes outside a circuit. Packed texts mix to canonical blocks, so the hasher
absorbs all of them, and the code is the text of the digits of their digest. -/

namespace MailProof

private theorem mixBytes_eq {email salt : Scalar}
    (canonical : email.val ^^^ salt.val < scalarOrder) :
    mixBytes email salt = (Scalar.ofNat (email.val ^^^ salt.val)).toBytes := by
  rw [mixBytes, Scalar.toBytes, Scalar.toBytes, Bytes.bigEndian_xor, Scalar.toBytes,
    Scalar.val_ofNat, Nat.mod_eq_of_lt canonical]

/-- The digest of a packed email under a packed salt. -/
def mixedDigest (email salt : PackedText) : Scalar :=
  Mimc.hash (List.zipWith (fun x y : Scalar => Scalar.ofNat (x.val ^^^ y.val))
    email.toList salt.toList)

/-- A byte is written as its two nibbles. -/
theorem Hex.ofByte_ofNat (n : Nat) :
    ofByte (UInt8.ofNat (n % 256)) = [digit (n / 16 % 16), digit (n % 16)] := by
  have value : (UInt8.ofNat (n % 256)).toNat = n % 256 :=
    UInt8.toNat_ofNat_of_lt' (Nat.mod_lt n (by decide))
  have high : n % 256 / 16 = n / 16 % 16 := by omega
  have low : n % 256 % 16 = n % 16 := by omega
  rw [ofByte, value, high, low]

/-- The last three bytes in hexadecimal are the six digits. -/
theorem encode_tail (digest : Scalar) :
    Hex.encode (digest.toBytes.drop 29) = (CodeDigits.ofDigest digest).toText := by
  have tail : digest.toBytes.drop 29 = Bytes.bigEndian 3 digest.val :=
    Bytes.bigEndian_drop 29 3 digest.val
  have nibble (i : Nat) : (UInt8.ofNat (codeNibble digest i)).toNat = codeNibble digest i :=
    UInt8.toNat_ofNat_of_lt' (Nat.lt_trans (codeNibble_lt digest i) (by decide))
  have places : List.range codeLength = [0, 1, 2, 3, 4, 5] := rfl
  have bytes : (Bytes.bigEndian 3 digest.val).flatMap Hex.ofByte =
      (List.range codeLength).map fun i => Hex.digit (codeNibble digest i) := by
    rw [places]
    simp only [Bytes.bigEndian, Bytes.littleEndian, List.reverse_cons, List.reverse_nil,
      List.nil_append, List.cons_append, List.flatMap_cons, List.flatMap_nil, Hex.ofByte_ofNat,
      List.map_cons, List.map_nil, codeNibble, codeLength, Nat.shiftRight_eq_div_pow,
      Nat.div_div_eq_div_mul]
    norm_num
  rw [tail, CodeDigits.toText, CodeDigits.ofDigest_toList, Hex.encode, bytes, List.map_map]
  simp only [Function.comp_def, nibble]

/-- Texts that can be packed always derive a code. -/
theorem deriveCode_eq {email salt : String} {packedEmail packedSalt : PackedText}
    (packs : pack email = .ok packedEmail) (packs' : pack salt = .ok packedSalt) :
    deriveCode email salt =
      .ok (CodeDigits.ofDigest (mixedDigest packedEmail packedSalt)).toText := by
  have stream : List.zipWith mixBytes packedEmail.toList packedSalt.toList =
      (List.zipWith (fun x y : Scalar => Scalar.ofNat (x.val ^^^ y.val))
        packedEmail.toList packedSalt.toList).map Scalar.toBytes := by
    apply List.ext_getElem
    · simp
    · intro i inRange _
      have bounded : i < packedSize := by simpa using inRange
      simp [mixBytes_eq (xor_of_packs packs packs' i bounded)]
  simp only [deriveCode, packs, packs', Except.mapError, bind, Except.bind, stream,
    Mimc.Hasher.update_toBytes, Mimc.Hasher.digest_absorbAll, encode_tail]
  rfl

theorem deriveCode_of_email_error {email : String} {cause : EncodingError}
    (fails : pack email = .error cause) (salt : String) :
    deriveCode email salt = .error (.encoding cause) := by
  simp [deriveCode, fails, Except.mapError, bind, Except.bind]

theorem deriveCode_of_salt_error {email salt : String} {packedEmail : PackedText}
    {cause : EncodingError} (packs : pack email = .ok packedEmail) (fails : pack salt = .error cause) :
    deriveCode email salt = .error (.encoding cause) := by
  simp [deriveCode, packs, fails, Except.mapError, bind, Except.bind]

/-- A derived code is read as the digits of the digest. -/
theorem ofText_of_deriveCode {email salt code : String} (derives : deriveCode email salt = .ok code) :
    ∃ packedEmail packedSalt, pack email = .ok packedEmail ∧ pack salt = .ok packedSalt ∧
      CodeDigits.ofText code = .ok (CodeDigits.ofDigest (mixedDigest packedEmail packedSalt)) := by
  cases packs : pack email with
  | error cause => cases (deriveCode_of_email_error packs salt).symm.trans derives
  | ok packedEmail =>
    cases packs' : pack salt with
    | error cause => cases (deriveCode_of_salt_error packs packs').symm.trans derives
    | ok packedSalt =>
      rw [deriveCode_eq packs packs'] at derives
      refine ⟨packedEmail, packedSalt, rfl, rfl, ?_⟩
      rw [← Except.ok.inj derives]
      exact CodeDigits.ofText_toText_ofDigest _

theorem deriveCode_iff {email salt code : String} {packedEmail packedSalt : PackedText}
    {digits : CodeDigits} (packs : pack email = .ok packedEmail) (packs' : pack salt = .ok packedSalt)
    (reads : CodeDigits.ofText code = .ok digits) :
    deriveCode email salt = .ok code ↔
      digits = CodeDigits.ofDigest (mixedDigest packedEmail packedSalt) := by
  have written := ((CodeDigits.ofText_eq_ok_iff code digits).mp reads).2
  rw [deriveCode_eq packs packs', Except.ok.injEq]
  constructor
  · rintro rfl
    rw [CodeDigits.ofText_toText_ofDigest] at reads
    exact (Except.ok.inj reads).symm
  · rintro rfl
    exact written.symm

end MailProof
