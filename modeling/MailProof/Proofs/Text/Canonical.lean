import MailProof.Proofs.Text.Utf8
import Mathlib.Data.List.TakeWhile

/-! Only the bytes of a text are read as that text. The code point of a sequence is encoded by the
sequence itself: first bytes that would be overlong, and second bytes of overlong forms, surrogates
and numbers above the last code point, are not in order. -/

namespace MailProof.Utf8

/-- A character is encoded by the range of its number. -/
theorem encodeChar_ofNat {n : Nat} (valid : n.isValidChar) : String.utf8EncodeChar (Char.ofNat n) =
    if n < 128 then [.ofNat n]
    else if n < 2048 then [.ofNat (n / 64 % 32 + 192), .ofNat (n % 64 + 128)]
    else if n < 65536 then
      [.ofNat (n / 4096 % 16 + 224), .ofNat (n / 64 % 64 + 128), .ofNat (n % 64 + 128)]
    else [.ofNat (n / 262144 % 8 + 240), .ofNat (n / 4096 % 64 + 128), .ofNat (n / 64 % 64 + 128),
      .ofNat (n % 64 + 128)] := by
  have number : (Char.ofNat n).val.toNat = n := by
    have char : Char.ofNat n = Char.ofNatAux n valid := dif_pos valid
    rw [char]
    rfl
  simp only [String.utf8EncodeChar, number, ← Nat.lt_succ_iff]

private theorem ofNat_eq_of_toNat {n : Nat} {byte : UInt8} (same : n = byte.toNat) :
    UInt8.ofNat n = byte := by
  rw [same, UInt8.ofNat_toNat]

private theorem allowsSecond_of_ordered {first second : UInt8} {rest : Bytes}
    (ordered : goodPrefix first (second :: rest) = rest.length + 2) :
    allowsSecond first second = true ∧ ∀ byte ∈ rest, isContinuation byte = true := by
  rw [goodPrefix] at ordered
  split at ordered
  · next allowed =>
    have whole : rest.takeWhile isContinuation = rest :=
      (List.takeWhile_prefix _).eq_of_length (by omega)
    exact ⟨allowed, List.takeWhile_eq_self_iff.mp whole⟩
  · omega

section Sequences

variable {first second third fourth : UInt8}

private theorem encode_one (sequence : Sequence first []) :
    String.utf8EncodeChar (Char.ofNat (codePoint first [])) = [first] := by
  have announced := sequence.announced
  rw [width_eq, List.length_nil] at announced
  have lead : first.toNat < 128 := by split_ifs at announced <;> omega
  have number : codePoint first [] = first.toNat := rfl
  rw [number, encodeChar_ofNat (.inl (by omega)), if_pos lead, UInt8.ofNat_toNat]

private theorem encode_two (sequence : Sequence first [second]) :
    String.utf8EncodeChar (Char.ofNat (codePoint first [second])) = [first, second] := by
  have announced := sequence.announced
  rw [width_eq, List.length_singleton] at announced
  have lead : 194 ≤ first.toNat ∧ first.toNat ≤ 223 := by split_ifs at announced <;> omega
  obtain ⟨allowed, -⟩ := allowsSecond_of_ordered (sequence.ordered (by simp))
  rw [allowsSecond_iff] at allowed
  have number : codePoint first [second] = 64 * (first.toNat % 32) + second.toNat % 64 := rfl
  rw [encodeChar_ofNat (.inl (by omega)), if_neg (by omega), if_pos (by omega), number]
  congr 2 <;> exact ofNat_eq_of_toNat (by omega)

private theorem encode_three (sequence : Sequence first [second, third]) :
    String.utf8EncodeChar (Char.ofNat (codePoint first [second, third])) =
      [first, second, third] := by
  have announced := sequence.announced
  rw [width_eq, List.length_cons, List.length_singleton] at announced
  have lead : 224 ≤ first.toNat ∧ first.toNat ≤ 239 := by split_ifs at announced <;> omega
  obtain ⟨allowed, rest⟩ := allowsSecond_of_ordered (sequence.ordered (by simp))
  have continued : isContinuation third = true := by simpa using rest
  rw [allowsSecond_iff] at allowed
  rw [isContinuation_iff] at continued
  have number : codePoint first [second, third] =
      64 * (64 * (first.toNat % 16) + second.toNat % 64) + third.toNat % 64 := rfl
  rw [number, encodeChar_ofNat (by unfold Nat.isValidChar; omega), if_neg (by omega),
    if_neg (by omega), if_pos (by omega)]
  congr 3 <;> exact ofNat_eq_of_toNat (by omega)

private theorem encode_four (sequence : Sequence first [second, third, fourth]) :
    String.utf8EncodeChar (Char.ofNat (codePoint first [second, third, fourth])) =
      [first, second, third, fourth] := by
  have announced := sequence.announced
  rw [width_eq, List.length_cons, List.length_cons, List.length_singleton] at announced
  have lead : 240 ≤ first.toNat ∧ first.toNat ≤ 244 := by split_ifs at announced <;> omega
  obtain ⟨allowed, rest⟩ := allowsSecond_of_ordered (sequence.ordered (by simp))
  have continued : isContinuation third = true ∧ isContinuation fourth = true := by
    simpa using rest
  rw [allowsSecond_iff] at allowed
  rw [isContinuation_iff, isContinuation_iff] at continued
  have number : codePoint first [second, third, fourth] =
      64 * (64 * (64 * (first.toNat % 8) + second.toNat % 64) + third.toNat % 64) +
        fourth.toNat % 64 := rfl
  rw [number, encodeChar_ofNat (by unfold Nat.isValidChar; omega), if_neg (by omega),
    if_neg (by omega), if_neg (by omega)]
  congr 4 <;> exact ofNat_eq_of_toNat (by omega)

end Sequences

/-- The code point of a sequence is encoded by the sequence. -/
theorem encode_codePoint {first : UInt8} {tail : Bytes} (sequence : Sequence first tail) :
    String.utf8EncodeChar (Char.ofNat (codePoint first tail)) = first :: tail := by
  match tail, sequence with
  | [], sequence => exact encode_one sequence
  | [_], sequence => exact encode_two sequence
  | [_, _], sequence => exact encode_three sequence
  | [_, _, _], sequence => exact encode_four sequence
  | _ :: _ :: _ :: _ :: tail, sequence =>
    have announced := sequence.announced
    rw [width_eq] at announced
    simp only [List.length_cons] at announced
    split_ifs at announced <;> omega

private theorem goodPrefix_le (first : UInt8) (tail : Bytes) :
    goodPrefix first tail ≤ tail.length + 1 := by
  cases tail with
  | nil => exact le_rfl
  | cons second rest =>
    have short := (List.takeWhile_prefix (l := rest) isContinuation).length_le
    rw [goodPrefix, List.length_cons]
    split <;> omega

/-- Bytes that are in order are as many as announced, so none is missing at the end of an input. -/
theorem sequence_of_good {first : UInt8} {rest : Bytes} (announces : width first ≠ 0)
    (good : (if width first = 1 then 1 else goodPrefix first (rest.take (width first - 1))) =
      width first) : Sequence first (rest.take (width first - 1)) := by
  by_cases single : width first = 1
  · rw [single]
    exact ⟨single, nofun⟩
  · rw [if_neg single] at good
    have bounded := goodPrefix_le first (rest.take (width first - 1))
    have cut := List.length_take_le (width first - 1) rest
    have announced : width first = (rest.take (width first - 1)).length + 1 := by omega
    exact ⟨announced, fun _ => good.trans announced⟩

/-- The characters that are read have the bytes that they are read from. -/
theorem encode_of_decodeFrom {fuel index : Nat} {bytes : Bytes} {chars : List Char}
    (enough : bytes.length ≤ fuel) (reads : decodeFrom fuel index bytes = .ok chars) :
    chars.flatMap String.utf8EncodeChar = bytes := by
  fun_induction decodeFrom fuel index bytes generalizing chars with
  | case1 index bytes =>
    cases reads
    exact (List.eq_nil_of_length_eq_zero (Nat.le_zero.mp enough)).symm
  | case2 =>
    cases reads
    rfl
  | case4 fuel index first rest announced announces tail good ordered =>
    rename_i ih
    cases later : decodeFrom fuel (index + announced) (rest.drop (announced - 1)) with
    | error cause =>
      rw [later] at reads
      cases reads
    | ok others =>
      rw [later] at reads
      cases reads
      have shorter : (rest.drop (announced - 1)).length ≤ fuel := by
        rw [List.length_drop]
        exact (Nat.sub_le ..).trans (Nat.le_of_succ_le_succ enough)
      rw [List.flatMap_cons, encode_codePoint (sequence_of_good announces ordered), ih shorter later,
        List.cons_append, List.take_append_drop]
  | case3 | case5 | case6 => cases reads

/-- Bytes that are read as a text are those of the text. -/
theorem encode_of_decode {bytes : Bytes} {text : String} (reads : decode bytes = .ok text) :
    encode text = bytes := by
  cases chars : decodeFrom bytes.length 0 bytes with
  | error cause =>
    rw [decode, chars] at reads
    cases reads
  | ok read =>
    rw [decode, chars] at reads
    cases reads
    rw [encode, String.toList_ofList]
    exact encode_of_decodeFrom le_rfl chars

end MailProof.Utf8
