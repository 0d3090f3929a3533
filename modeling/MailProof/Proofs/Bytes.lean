import MailProof.Text.Utf8
import Mathlib.Tactic.Ring

/-! Fixed-width numbers as bytes, blocks of a stream, and the bytes of a text. -/

namespace MailProof

namespace Bytes

@[simp] theorem littleEndian_length (count n : Nat) : (littleEndian count n).length = count := by
  induction count generalizing n with
  | zero => rfl
  | succ count ih => rw [littleEndian, List.length_cons, ih]

@[simp] theorem bigEndian_length (count n : Nat) : (bigEndian count n).length = count := by
  simp [bigEndian]

theorem toNatLE_littleEndian (count n : Nat) : toNatLE (littleEndian count n) = n % 256 ^ count := by
  induction count generalizing n with
  | zero => simp [littleEndian, toNatLE, Nat.mod_one]
  | succ count ih =>
    have low : (UInt8.ofNat (n % 256)).toNat = n % 256 :=
      UInt8.toNat_ofNat_of_lt' (Nat.mod_lt n (by decide))
    have high : toNatLE (littleEndian count (n / 256)) = n / 256 % 256 ^ count := ih (n / 256)
    rw [littleEndian, toNatLE, List.foldr_cons, ← toNatLE, high, low, Nat.pow_succ', Nat.mod_mul]

theorem toNatLE_lt (bytes : Bytes) : bytes.toNatLE < 256 ^ bytes.length := by
  induction bytes with
  | nil => decide
  | cons byte bytes ih =>
    have digit := byte.toNat_lt
    rw [toNatLE, List.foldr_cons, ← toNatLE, List.length_cons, Nat.pow_succ]
    omega

theorem toNatLE_append (front back : Bytes) :
    toNatLE (front ++ back) = toNatLE front + 256 ^ front.length * toNatLE back := by
  induction front with
  | nil => simp [toNatLE]
  | cons byte front ih =>
    have split : toNatLE (byte :: (front ++ back)) = byte.toNat + 256 * toNatLE (front ++ back) := rfl
    have first : toNatLE (byte :: front) = byte.toNat + 256 * toNatLE front := rfl
    rw [List.cons_append, split, first, ih, List.length_cons]
    ring

/-- Bytes are those of their number. -/
theorem littleEndian_toNatLE (bytes : Bytes) : littleEndian bytes.length bytes.toNatLE = bytes := by
  induction bytes with
  | nil => rfl
  | cons byte bytes ih =>
    have digit := byte.toNat_lt
    have low : (byte.toNat + 256 * toNatLE bytes) % 256 = byte.toNat := by omega
    have high : (byte.toNat + 256 * toNatLE bytes) / 256 = toNatLE bytes := by omega
    have number : toNatLE (byte :: bytes) = byte.toNat + 256 * toNatLE bytes := rfl
    rw [List.length_cons, littleEndian, number, low, high, ih, UInt8.ofNat_toNat]

theorem bigEndian_toNatBE (bytes : Bytes) : bigEndian bytes.length bytes.toNatBE = bytes := by
  rw [bigEndian, toNatBE, ← List.length_reverse, littleEndian_toNatLE, List.reverse_reverse]

theorem toNatBE_bigEndian {count n : Nat} (fits : n < 256 ^ count) :
    toNatBE (bigEndian count n) = n := by
  rw [toNatBE, bigEndian, List.reverse_reverse, toNatLE_littleEndian, Nat.mod_eq_of_lt fits]

private theorem littleEndian_xor (count m n : Nat) :
    List.zipWith (· ^^^ ·) (littleEndian count m) (littleEndian count n) =
      littleEndian count (m ^^^ n) := by
  induction count generalizing m n with
  | zero => rfl
  | succ count ih =>
    have low : (m ^^^ n) % 256 = m % 256 ^^^ n % 256 := Nat.xor_mod_two_pow (n := 8)
    have high : (m ^^^ n) / 256 = m / 256 ^^^ n / 256 := Nat.xor_div_two_pow (n := 8)
    rw [littleEndian, littleEndian, littleEndian, List.zipWith_cons_cons, ih, high, low,
      UInt8.ofNat_xor]

/-- Exclusive or of bytes is exclusive or of numbers. -/
theorem bigEndian_xor (count m n : Nat) :
    List.zipWith (· ^^^ ·) (bigEndian count m) (bigEndian count n) = bigEndian count (m ^^^ n) := by
  rw [bigEndian, bigEndian, bigEndian, ← List.reverse_zipWith (by simp), littleEndian_xor]

private theorem littleEndian_take (count more n : Nat) :
    (littleEndian (count + more) n).take count = littleEndian count n := by
  induction count generalizing n with
  | zero => rfl
  | succ count ih =>
    rw [Nat.succ_add, littleEndian, littleEndian, List.take_succ_cons, ih]

/-- The last bytes are those of a narrower number. -/
theorem bigEndian_drop (skip count n : Nat) :
    (bigEndian (skip + count) n).drop skip = bigEndian count n := by
  rw [bigEndian, bigEndian, List.drop_reverse, littleEndian_length, Nat.add_sub_cancel_left,
    Nat.add_comm skip count, littleEndian_take]

/-- Cutting a stream of equal blocks gives back the blocks. -/
theorem blocks_flatten {width : Nat} {parts : List Bytes}
    (even : ∀ part ∈ parts, part.length = width) :
    blocks width parts.length parts.flatten = parts := by
  induction parts with
  | nil => rfl
  | cons part parts ih =>
    have size := even part (List.mem_cons_self ..)
    have rest := ih fun other member => even other (List.mem_cons_of_mem part member)
    rw [List.flatten_cons, List.length_cons, blocks, List.take_left' size, List.drop_left' size, rest]

theorem flatten_length {width : Nat} {parts : List Bytes}
    (even : ∀ part ∈ parts, part.length = width) :
    parts.flatten.length = parts.length * width := by
  induction parts with
  | nil => simp
  | cons part parts ih =>
    rw [List.flatten_cons, List.length_append, even part (List.mem_cons_self ..),
      ih fun other member => even other (List.mem_cons_of_mem part member), List.length_cons]
    ring

/-- A stream of the right size is made up of its blocks. -/
theorem flatten_blocks {width count : Nat} {bytes : Bytes} (size : bytes.length = count * width) :
    (∀ block ∈ blocks width count bytes, block.length = width) ∧
      (blocks width count bytes).flatten = bytes := by
  induction count generalizing bytes with
  | zero =>
    rw [Nat.zero_mul] at size
    exact ⟨nofun, (List.eq_nil_of_length_eq_zero size).symm⟩
  | succ count ih =>
    rw [Nat.succ_mul] at size
    have shorter : (bytes.drop width).length = count * width := by
      rw [List.length_drop]
      omega
    obtain ⟨even, whole⟩ := ih shorter
    refine ⟨List.forall_mem_cons.mpr ⟨by rw [List.length_take]; omega, even⟩, ?_⟩
    rw [blocks, List.flatten_cons, whole, List.take_append_drop]

end Bytes

namespace Utf8

/-- Different texts have different bytes. -/
theorem encode_injective {first second : String} (same : encode first = encode second) :
    first = second := by
  have bytes : first.toList.utf8Encode = second.toList.utf8Encode := congrArg List.toByteArray same
  rwa [String.utf8Encode_toList, String.utf8Encode_toList, String.toByteArray_inj] at bytes

/-- A text of ASCII characters has one byte for each. -/
theorem encode_ascii {chars : List Char} (ascii : ∀ char ∈ chars, char.val ≤ 127) :
    encode (String.ofList chars) = chars.map fun char => char.val.toUInt8 := by
  rw [encode, String.toList_ofList]
  induction chars with
  | nil => rfl
  | cons char chars ih =>
    have single : char.utf8Size = 1 := Char.utf8Size_eq_one_iff.mpr (ascii char (List.mem_cons_self ..))
    rw [List.flatMap_cons, String.utf8EncodeChar_eq_singleton single, List.map_cons,
      ih fun other member => ascii other (List.mem_cons_of_mem char member)]
    rfl

end Utf8

end MailProof
