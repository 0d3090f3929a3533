import MailProof.Proofs.Bytes

/-! The bytes of a text are read as that text. Each character is one sequence, whose first byte
announces its length and whose code point is that of the character. -/

namespace MailProof.Utf8

/-- A first byte with the bytes after it, as many as it announces and all of them in order. -/
structure Sequence (first : UInt8) (tail : Bytes) : Prop where
  announced : width first = tail.length + 1
  ordered : tail ≠ [] → goodPrefix first tail = tail.length + 1

private theorem decodeFrom_sequence {first : UInt8} {tail : Bytes} (sequence : Sequence first tail)
    (fuel index : Nat) (rest : Bytes) :
    decodeFrom (fuel + 1) index (first :: tail ++ rest) =
      (Char.ofNat (codePoint first tail) :: ·) <$>
        decodeFrom fuel (index + (tail.length + 1)) rest := by
  have front : (tail ++ rest).take (tail.length + 1 - 1) = tail := by simp
  have back : (tail ++ rest).drop (tail.length + 1 - 1) = rest := by simp
  have good : (if tail.length + 1 = 1 then 1 else goodPrefix first tail) = tail.length + 1 := by
    by_cases single : tail = []
    · rw [single, List.length_nil, if_pos rfl]
    · have more := List.length_pos_iff.mpr single
      rw [if_neg (by omega), sequence.ordered single]
  rw [List.cons_append, decodeFrom, sequence.announced]
  simp only [front, back, good, if_true, Nat.add_eq_zero_iff, one_ne_zero, and_false, if_false]
  rfl

private theorem toNat_byte {n : Nat} (small : n < 256) : (UInt8.ofNat n).toNat = n :=
  UInt8.toNat_ofNat_of_lt' small

/-- Widths by the number of the first byte. -/
theorem width_eq (first : UInt8) : width first =
    if first.toNat < 128 then 1
    else if 194 ≤ first.toNat ∧ first.toNat ≤ 223 then 2
    else if 224 ≤ first.toNat ∧ first.toNat ≤ 239 then 3
    else if 240 ≤ first.toNat ∧ first.toNat ≤ 244 then 4
    else 0 := rfl

/-- Second bytes are continuations, with one end of their range cut off after four first bytes. -/
theorem allowsSecond_iff (first second : UInt8) : allowsSecond first second = true ↔
    128 ≤ second.toNat ∧ second.toNat ≤ 191 ∧ (first.toNat = 224 → 160 ≤ second.toNat) ∧
      (first.toNat = 237 → second.toNat ≤ 159) ∧ (first.toNat = 240 → 144 ≤ second.toNat) ∧
      (first.toNat = 244 → second.toNat ≤ 143) := by
  have literal (n : UInt8) : first = n ↔ first.toNat = n.toNat := UInt8.toNat_inj.symm
  rw [allowsSecond]
  simp only [literal, UInt8.le_iff_toNat_le, UInt8.reduceToNat]
  split_ifs <;> simp only [Bool.and_eq_true, decide_eq_true_eq] <;> omega

theorem isContinuation_iff (byte : UInt8) :
    isContinuation byte = true ↔ 128 ≤ byte.toNat ∧ byte.toNat ≤ 191 := by
  rw [isContinuation]
  simp only [Bool.and_eq_true, decide_eq_true_eq, UInt8.le_iff_toNat_le, UInt8.reduceToNat]

section Characters

variable {n : Nat}

private theorem sequence_one (small : n < 128) :
    Sequence (.ofNat n) [] ∧ codePoint (.ofNat n) [] = n := by
  have byte := toNat_byte (n := n) (by omega)
  refine ⟨⟨?_, nofun⟩, byte⟩
  rw [width_eq, byte, if_pos small, List.length_nil]

private theorem sequence_two (large : 128 ≤ n) (small : n < 2048) :
    Sequence (.ofNat (n / 64 % 32 + 192)) [.ofNat (n % 64 + 128)] ∧
      codePoint (.ofNat (n / 64 % 32 + 192)) [.ofNat (n % 64 + 128)] = n := by
  have first := toNat_byte (n := n / 64 % 32 + 192) (by omega)
  have second := toNat_byte (n := n % 64 + 128) (by omega)
  have allowed : allowsSecond (.ofNat (n / 64 % 32 + 192)) (.ofNat (n % 64 + 128)) = true := by
    rw [allowsSecond_iff, first, second]
    omega
  refine ⟨⟨?_, fun _ => ?_⟩, ?_⟩
  · rw [width_eq, first, if_neg (by omega), if_pos (by omega)]
    rfl
  · rw [goodPrefix, if_pos allowed]
    rfl
  · simp only [codePoint, List.length_singleton, List.foldl_cons, List.foldl_nil, first, second]
    omega

private theorem sequence_three (large : 2048 ≤ n) (small : n < 65536)
    (scalar : n < 0xd800 ∨ 0xdfff < n) :
    let first := UInt8.ofNat (n / 4096 % 16 + 224)
    let tail := [UInt8.ofNat (n / 64 % 64 + 128), .ofNat (n % 64 + 128)]
    Sequence first tail ∧ codePoint first tail = n := by
  intro first tail
  have lead : first.toNat = n / 4096 % 16 + 224 := toNat_byte (by omega)
  have second := toNat_byte (n := n / 64 % 64 + 128) (by omega)
  have third := toNat_byte (n := n % 64 + 128) (by omega)
  have allowed : allowsSecond first (.ofNat (n / 64 % 64 + 128)) = true := by
    rw [allowsSecond_iff, lead, second]
    omega
  have continued : isContinuation (.ofNat (n % 64 + 128)) = true := by
    rw [isContinuation_iff, third]
    omega
  refine ⟨⟨?_, fun _ => ?_⟩, ?_⟩
  · rw [width_eq, lead, if_neg (by omega), if_neg (by omega), if_pos (by omega)]
    rfl
  · rw [goodPrefix, if_pos allowed, List.takeWhile_cons_of_pos continued]
    rfl
  · simp only [tail, codePoint, List.length_cons, List.length_nil, List.foldl_cons, List.foldl_nil,
      lead, second, third]
    omega

private theorem sequence_four (large : 65536 ≤ n) (small : n < 0x110000) :
    let first := UInt8.ofNat (n / 262144 % 8 + 240)
    let tail := [UInt8.ofNat (n / 4096 % 64 + 128), .ofNat (n / 64 % 64 + 128), .ofNat (n % 64 + 128)]
    Sequence first tail ∧ codePoint first tail = n := by
  intro first tail
  have lead : first.toNat = n / 262144 % 8 + 240 := toNat_byte (by omega)
  have second := toNat_byte (n := n / 4096 % 64 + 128) (by omega)
  have third := toNat_byte (n := n / 64 % 64 + 128) (by omega)
  have fourth := toNat_byte (n := n % 64 + 128) (by omega)
  have allowed : allowsSecond first (.ofNat (n / 4096 % 64 + 128)) = true := by
    rw [allowsSecond_iff, lead, second]
    omega
  have continued : isContinuation (.ofNat (n / 64 % 64 + 128)) = true := by
    rw [isContinuation_iff, third]
    omega
  have continued' : isContinuation (.ofNat (n % 64 + 128)) = true := by
    rw [isContinuation_iff, fourth]
    omega
  refine ⟨⟨?_, fun _ => ?_⟩, ?_⟩
  · rw [width_eq, lead, if_neg (by omega), if_neg (by omega), if_neg (by omega), if_pos (by omega)]
    rfl
  · rw [goodPrefix, if_pos allowed, List.takeWhile_cons_of_pos continued,
      List.takeWhile_cons_of_pos continued']
    rfl
  · simp only [tail, codePoint, List.length_cons, List.length_nil, List.foldl_cons, List.foldl_nil,
      lead, second, third, fourth]
    omega

end Characters

/-- The bytes of a character are one sequence with its code point. -/
theorem sequence_of_char (char : Char) : ∃ first tail,
    String.utf8EncodeChar char = first :: tail ∧ Sequence first tail ∧
      codePoint first tail = char.toNat := by
  have scalar : char.val.toNat < 0xd800 ∨ 0xdfff < char.val.toNat ∧ char.val.toNat < 0x110000 :=
    char.valid
  change ∃ first tail, (if char.val.toNat ≤ 127 then _ else if char.val.toNat ≤ 2047 then _
    else if char.val.toNat ≤ 65535 then _ else _) = first :: tail ∧ _
  split_ifs with one two three
  · exact ⟨_, _, rfl, sequence_one (by omega)⟩
  · exact ⟨_, _, rfl, sequence_two (by omega) (by omega)⟩
  · exact ⟨_, _, rfl, sequence_three (by omega) (by omega) (by omega)⟩
  · exact ⟨_, _, rfl, sequence_four (by omega) (by omega)⟩

/-- Every character has at least one byte, so as many sequences as there are bytes are enough. -/
theorem decodeFrom_encode (chars : List Char) {fuel : Nat} (index : Nat)
    (enough : (chars.flatMap String.utf8EncodeChar).length ≤ fuel) :
    decodeFrom fuel index (chars.flatMap String.utf8EncodeChar) = .ok chars := by
  induction chars generalizing fuel index with
  | nil => cases fuel <;> rfl
  | cons char chars ih =>
    obtain ⟨first, tail, encoded, sequence, number⟩ := sequence_of_char char
    rw [List.flatMap_cons, encoded] at enough ⊢
    rw [List.length_append, List.length_cons] at enough
    obtain ⟨fuel, rfl⟩ : ∃ less, fuel = less + 1 := ⟨fuel - 1, by omega⟩
    rw [decodeFrom_sequence sequence, ih _ (by omega), number, Char.ofNat_toNat]
    rfl

/-- A text is read from its bytes. -/
theorem decode_encode (text : String) : decode (encode text) = .ok text := by
  rw [decode, encode, decodeFrom_encode text.toList 0 le_rfl]
  exact congrArg Except.ok String.ofList_toList

end MailProof.Utf8
