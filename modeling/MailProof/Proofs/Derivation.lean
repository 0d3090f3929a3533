import MailProof.Proofs.Code

/-! What a code says. A code is derived from all texts that can be packed, and is the lowercase
hexadecimal number of the low twenty-four bits of the digest of the mixed texts. -/

namespace MailProof

/-- A number in lowercase hexadecimal, with zeros in front up to a width. -/
def hexText (width n : Nat) : String := String.ofList ((Nat.toDigits 16 n).leftpad width '0')

/-- All digits of a number but the last are those of its sixteenth part. -/
theorem leftpad_toDigits (width n : Nat) : (Nat.toDigits 16 n).leftpad (width + 2) '0' =
    (Nat.toDigits 16 (n / 16)).leftpad (width + 1) '0' ++ [Nat.digitChar (n % 16)] := by
  rcases Nat.lt_or_ge n 16 with small | large
  · rw [Nat.div_eq_of_lt small, Nat.mod_eq_of_lt small, Nat.toDigits_of_lt_base small,
      Nat.toDigits_of_lt_base (by decide : 0 < 16)]
    simp [List.leftpad, List.replicate_succ']
  · rw [Nat.toDigits_of_base_le (by decide) large]
    simp [List.leftpad]

private theorem toDigits_leftpad {width n : Nat} (fits : n < 16 ^ (width + 1)) :
    (Nat.toDigits 16 n).leftpad (width + 1) '0' =
      (List.range (width + 1)).map fun i => Nat.digitChar (n / 16 ^ (width - i) % 16) := by
  induction width generalizing n with
  | zero =>
    have small : n < 16 := by simpa using fits
    simp [Nat.toDigits_of_lt_base small, Nat.mod_eq_of_lt small, List.leftpad]
  | succ width ih =>
    have high : n / 16 < 16 ^ (width + 1) := by
      rw [Nat.pow_succ] at fits
      omega
    rw [leftpad_toDigits, ih high, List.range_succ (n := width + 1), List.map_append,
      List.map_singleton, Nat.sub_self, Nat.pow_zero, Nat.div_one]
    refine congrArg (· ++ _) (List.map_congr_left fun i member => ?_)
    have place : width + 1 - i = width - i + 1 := by
      have inRange := List.mem_range.mp member
      omega
    rw [place, Nat.pow_succ', Nat.div_div_eq_div_mul]

theorem Hex.digit_eq_digitChar {n : Nat} (small : n < 16) : digit n = Nat.digitChar n := by
  have known : ∀ k < 16, digit k = Nat.digitChar k := by decide
  exact known n small

private theorem codeNibble_eq {digest : Scalar} {index : Nat} (inRange : index < codeLength) :
    codeNibble digest index = digest.val % 2 ^ 24 / 16 ^ (codeLength - 1 - index) % 16 := by
  have split : 2 ^ 24 = 16 ^ (codeLength - 1 - index) * 16 ^ (index + 1) := by
    have places : codeLength - 1 - index + (index + 1) = codeLength := by omega
    rw [← Nat.pow_add, places]
    rfl
  have shift : 2 ^ (4 * (codeLength - 1 - index)) = 16 ^ (codeLength - 1 - index) := Nat.pow_mul ..
  rw [codeNibble, Nat.shiftRight_eq_div_pow, shift, split, Nat.mod_mul_right_div_self,
    Nat.mod_mod_of_dvd _ (Dvd.intro_left _ (Nat.pow_succ ..).symm)]

/-- The code of a digest is the number of its low twenty-four bits. -/
theorem CodeDigits.toText_ofDigest (digest : Scalar) :
    (ofDigest digest).toText = hexText codeLength (digest.val % 2 ^ 24) := by
  have fits : digest.val % 2 ^ 24 < 16 ^ (5 + 1) := Nat.mod_lt _ (by decide)
  rw [toText, ofDigest_toList, hexText, codeLength, toDigits_leftpad fits, List.map_map]
  refine congrArg String.ofList (List.map_congr_left fun i member => ?_)
  have nibble := codeNibble_lt digest i
  rw [Function.comp_apply, UInt8.toNat_ofNat_of_lt' (Nat.lt_trans nibble (by decide)),
    Hex.digit_eq_digitChar nibble, codeNibble_eq (List.mem_range.mp member)]
  rfl

theorem CodeDigits.toText_length (digits : CodeDigits) : digits.toText.length = codeLength := by
  simp [toText, ← String.length_toList]

/-- A character of a code. -/
def IsCodeChar (char : Char) : Prop := ('0' ≤ char ∧ char ≤ '9') ∨ ('a' ≤ char ∧ char ≤ 'f')

theorem Hex.digit_isCodeChar {n : Nat} (small : n < 16) : IsCodeChar (digit n) := by
  have known : ∀ k < 16, ('0' ≤ digit k ∧ digit k ≤ '9') ∨ ('a' ≤ digit k ∧ digit k ≤ 'f') := by
    decide
  exact known n small

theorem CodeDigits.ofDigest_isCodeChar (digest : Scalar) :
    ∀ char ∈ (ofDigest digest).toText.toList, IsCodeChar char := by
  intro char member
  rw [toText, String.toList_ofList] at member
  obtain ⟨digit, present, rfl⟩ := List.mem_map.mp member
  have small := ((ofText_eq_ok_iff _ _).mp (ofText_toText_ofDigest digest)).1 digit present
  exact Hex.digit_isCodeChar small

/-- Exclusive or of packed texts, element by element. -/
def PackedText.mix (email salt : PackedText) : PackedText :=
  Vector.zipWith (fun x y => Scalar.ofNat (x.val ^^^ y.val)) email salt

private theorem mixedDigest_eq (email salt : PackedText) :
    mixedDigest email salt = Mimc.hash (email.mix salt).toList := by
  rw [mixedDigest, PackedText.mix, Vector.toList_zipWith]

/-- How a code is derived from packed texts and their mixture. -/
structure IsCodeOf (email salt mixed : PackedText) (code : String) : Prop where
  mixes : ∀ (i : Nat) (_ : i < packedSize), mixed[i].val = email[i].val ^^^ salt[i].val
  written : code = hexText codeLength ((Mimc.hash mixed.toList).val % 2 ^ 24)
  size : code.length = codeLength
  hexadecimal : ∀ char ∈ code.toList, IsCodeChar char
  read : CodeDigits.ofText code = .ok (.ofDigest (Mimc.hash mixed.toList))

variable {email salt : String}

private theorem deriveCode_of_packs {packedEmail packedSalt : PackedText}
    (packs : pack email = .ok packedEmail) (packs' : pack salt = .ok packedSalt) :
    ∃ code, deriveCode email salt = .ok code ∧
      IsCodeOf packedEmail packedSalt (packedEmail.mix packedSalt) code := by
  have derives := deriveCode_eq packs packs'
  rw [mixedDigest_eq] at derives
  refine ⟨_, derives, ?_, CodeDigits.toText_ofDigest _, CodeDigits.toText_length _,
    CodeDigits.ofDigest_isCodeChar _, CodeDigits.ofText_toText_ofDigest _⟩
  intro i inRange
  rw [PackedText.mix, Vector.getElem_zipWith, Scalar.val_ofNat,
    Nat.mod_eq_of_lt (xor_of_packs packs packs' i inRange)]

/-- A code is derived exactly from texts that are short enough, and the first that is too long is
reported; mixing and hashing never fail. The code is the number of the low twenty-four bits of the
digest in six lowercase hexadecimal digits, and is read as the digits of the digest. -/
theorem derivation_exact (email salt : String) :
    ((∃ code, deriveCode email salt = .ok code) ↔
      email.length ≤ textCapacity ∧ salt.length ≤ textCapacity) ∧
    (∀ cause, deriveCode email salt ≠ .error (.hash cause)) ∧
    if email.length > textCapacity then
      deriveCode email salt = .error (.encoding (.inputTooLong email.length textCapacity))
    else if salt.length > textCapacity then
      deriveCode email salt = .error (.encoding (.inputTooLong salt.length textCapacity))
    else ∃ packedEmail packedSalt mixed code, pack email = .ok packedEmail ∧
      pack salt = .ok packedSalt ∧ deriveCode email salt = .ok code ∧
      IsCodeOf packedEmail packedSalt mixed code := by
  by_cases long : email.length > textCapacity
  · have fails := deriveCode_of_email_error (pack_of_long long) salt
    rw [if_pos long, fails]
    exact ⟨⟨nofun, fun ⟨short, _⟩ => absurd long (Nat.not_lt_of_le short)⟩, nofun, rfl⟩
  · have short := Nat.le_of_not_lt long
    obtain ⟨packedEmail, packs⟩ := pack_of_fits short
    rw [if_neg long]
    by_cases long' : salt.length > textCapacity
    · have fails := deriveCode_of_salt_error packs (pack_of_long long')
      rw [if_pos long', fails]
      exact ⟨⟨nofun, fun ⟨_, short'⟩ => absurd long' (Nat.not_lt_of_le short')⟩, nofun, rfl⟩
    · have short' := Nat.le_of_not_lt long'
      obtain ⟨packedSalt, packs'⟩ := pack_of_fits short'
      obtain ⟨code, derives, written⟩ := deriveCode_of_packs packs packs'
      rw [if_neg long', derives]
      exact ⟨⟨fun _ => ⟨short, short'⟩, fun _ => ⟨code, rfl⟩⟩, nofun,
        packedEmail, packedSalt, _, code, packs, packs', rfl, written⟩

end MailProof
