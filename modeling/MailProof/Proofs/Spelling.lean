import MailProof.Proofs.Derivation
import MailProof.Proofs.Text.Utf8

/-! Spelling of codes. The digits of a code have one byte each, so the first byte that is no digit
begins the first character that is none. The length of a code is judged by its bytes but reported in
characters, and the two differ as soon as a character has more than one byte. -/

namespace MailProof

instance (char : Char) : Decidable (IsCodeChar char) :=
  inferInstanceAs (Decidable (('0' ≤ char ∧ char ≤ '9') ∨ ('a' ≤ char ∧ char ≤ 'f')))

theorem isCodeChar_iff (char : Char) : IsCodeChar char ↔
    (48 ≤ char.toNat ∧ char.toNat ≤ 57) ∨ (97 ≤ char.toNat ∧ char.toNat ≤ 102) := Iff.rfl

theorem codeDigit?_isNone_iff (byte : UInt8) : (codeDigit? byte).isNone = true ↔
    ¬((48 ≤ byte.toNat ∧ byte.toNat ≤ 57) ∨ (97 ≤ byte.toNat ∧ byte.toNat ≤ 102)) := by
  rw [codeDigit?]
  simp only [UInt8.le_iff_toNat_le, UInt8.reduceToNat]
  split_ifs <;> simp <;> omega

/-- A digit is its only byte. -/
theorem encodeChar_of_isCodeChar {char : Char} (digit : IsCodeChar char) :
    String.utf8EncodeChar char = [.ofNat char.toNat] := by
  have ascii : char.val ≤ 127 := by
    rw [isCodeChar_iff] at digit
    change char.toNat ≤ 127
    omega
  exact String.utf8EncodeChar_eq_singleton (Char.utf8Size_eq_one_iff.mpr ascii)

/-- A character whose first byte is a digit is that digit. -/
theorem isCodeChar_of_first {char : Char} {first : UInt8} {tail : Bytes}
    (encoded : String.utf8EncodeChar char = first :: tail)
    (digit : (codeDigit? first).isNone = false) : IsCodeChar char := by
  have range : (48 ≤ first.toNat ∧ first.toNat ≤ 57) ∨ (97 ≤ first.toNat ∧ first.toNat ≤ 102) := by
    by_contra other
    rw [(codeDigit?_isNone_iff first).mpr other] at digit
    cases digit
  obtain ⟨first', tail', encoded', sequence, number⟩ := Utf8.sequence_of_char char
  obtain ⟨rfl, rfl⟩ := List.cons.inj (encoded.symm.trans encoded')
  have single := sequence.announced
  rw [Utf8.width_eq, if_pos (by omega)] at single
  have alone : tail = [] := List.eq_nil_of_length_eq_zero (by omega)
  rw [isCodeChar_iff, ← number, alone]
  exact range

/-- The first byte that is no digit begins the first character that is none. -/
theorem findIdx?_encode (chars : List Char) :
    (chars.flatMap String.utf8EncodeChar).findIdx? (fun byte => (codeDigit? byte).isNone) =
      chars.findIdx? (¬IsCodeChar ·) := by
  induction chars with
  | nil => rfl
  | cons char chars ih =>
    rw [List.flatMap_cons, List.findIdx?_cons]
    by_cases digit : IsCodeChar char
    · have good : (codeDigit? (.ofNat char.toNat)).isNone ≠ true := by
        rw [Ne, codeDigit?_isNone_iff, not_not, UInt8.toNat_ofNat_of_lt' (by
          rw [isCodeChar_iff] at digit
          change _ < 256
          omega)]
        exact digit
      rw [encodeChar_of_isCodeChar digit, List.singleton_append, List.findIdx?_cons, if_neg good, ih,
        if_neg (by simpa using digit)]
    · obtain ⟨first, tail, encoded, -⟩ := Utf8.sequence_of_char char
      have bad : (codeDigit? first).isNone = true := by
        by_contra good
        exact digit (isCodeChar_of_first encoded (Bool.eq_false_iff.mpr good))
      rw [encoded, List.cons_append, List.findIdx?_cons, if_pos bad, if_pos (by simpa using digit)]

/-- How the text of a code is judged when its length is taken to be a certain count. -/
structure Judged (count : Nat) (code : String) (answer : Except EncodingError CodeDigits) : Prop where
  length (reported expected : Nat) : answer = .error (.invalidCodeLength reported expected) ↔
    count ≠ codeLength ∧ reported = code.length ∧ expected = codeLength
  fault (index : Nat) : answer = .error (.invalidCodeCharacter index) ↔
    count = codeLength ∧ code.toList.findIdx? (¬IsCodeChar ·) = some index
  accepted : (∃ digits, answer = .ok digits) ↔
    count = codeLength ∧ ∀ char ∈ code.toList, IsCodeChar char

namespace CodeDigits

private theorem judged_by_bytes (code : String) :
    Judged (Utf8.encode code).length code (ofText code) := by
  have first := findIdx?_encode code.toList
  rw [← Utf8.encode] at first
  rw [ofText]
  by_cases size : (Utf8.encode code).length = codeLength
  · rw [if_neg (not_not.mpr size), first]
    cases fault : code.toList.findIdx? (¬IsCodeChar ·) with
    | none =>
      have all : ∀ char ∈ code.toList, IsCodeChar char := fun char member => by
        simpa using List.findIdx?_eq_none_iff.mp fault char member
      constructor
      case length => simp [size]
      case fault =>
        intro found
        rw [fault]
        simp [size]
      case accepted => exact ⟨fun _ => ⟨size, all⟩, fun _ => ⟨_, rfl⟩⟩
    | some index =>
      have bad : ¬∀ char ∈ code.toList, IsCodeChar char := fun all => by
        obtain ⟨inRange, other, -⟩ := List.findIdx?_eq_some_iff_getElem.mp fault
        simp [all _ (List.getElem_mem inRange)] at other
      constructor
      case length => simp [size]
      case fault =>
        intro found
        rw [fault]
        simp [size]
      case accepted => simpa [size] using bad
  · rw [if_pos size]
    constructor
    case length =>
      intro reported expected
      rw [Except.error.injEq, EncodingError.invalidCodeLength.injEq, and_iff_right size,
        eq_comm (a := code.length), eq_comm (a := codeLength)]
    case fault => simp [size]
    case accepted => simp [size]

/-- The judgement by bytes is the one by characters if both counts are six or none is. -/
theorem judged_by_characters_iff (code : String) : Judged code.length code (ofText code) ↔
    (code.length = codeLength ↔ (Utf8.encode code).length = codeLength) := by
  have judged := judged_by_bytes code
  constructor
  · intro promised
    have same := (promised.length code.length codeLength).symm.trans (judged.length _ _)
    rw [and_iff_left ⟨rfl, rfl⟩, and_iff_left ⟨rfl, rfl⟩] at same
    exact not_iff_not.mp same
  · intro same
    refine ⟨fun reported expected => ?_, fun index => ?_, ?_⟩
    · rw [judged.length, Ne, Ne, same]
    · rw [judged.fault, same]
    · rw [judged.accepted, same]

end CodeDigits

/-- The length of a text is judged by its bytes, whatever its characters are. Six bytes are a code
exactly if all characters are lowercase hexadecimal digits, and otherwise the first character that is
none is reported by its index; any other number of bytes is reported as the number of characters.
This is the judgement by the number of characters exactly if characters and bytes are both six or
both not. -/
theorem code_judged_by_bytes (code : String) :
    Judged (Utf8.encode code).length code (CodeDigits.ofText code) ∧
      (Judged code.length code (CodeDigits.ofText code) ↔
        (code.length = codeLength ↔ (Utf8.encode code).length = codeLength)) :=
  ⟨CodeDigits.judged_by_bytes code, CodeDigits.judged_by_characters_iff code⟩

/-- Six characters in seven bytes are refused for being six, and five characters in six bytes are not
refused for being five. -/
theorem code_length_misjudged :
    CodeDigits.ofText "é24b2c" = .error (.invalidCodeLength codeLength codeLength) ∧
      CodeDigits.ofText "é24b2" = .error (.invalidCodeCharacter 0) ∧
      ¬∀ code : String, Judged code.length code (CodeDigits.ofText code) := by
  have long : (Utf8.encode "é24b2c").length ≠ codeLength := by decide
  have short : (Utf8.encode "é24b2").length = codeLength := by decide
  refine ⟨?_, ?_, fun promised => ?_⟩
  · exact ((CodeDigits.judged_by_bytes "é24b2c").length _ _).mpr ⟨long, by decide, rfl⟩
  · exact ((CodeDigits.judged_by_bytes "é24b2").fault 0).mpr ⟨short, by decide⟩
  · have same := (CodeDigits.judged_by_characters_iff "é24b2c").mp (promised "é24b2c")
    exact long (same.mp (by decide))

end MailProof
