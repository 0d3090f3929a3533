import MailProof.Field
import Mathlib.Data.Nat.Digits.Lemmas

/-! Numbers as lists of binary digits, least significant first. -/

namespace MailProof

/-- The number with the given binary digits. -/
def binaryValue (bits : List Bool) : Nat := Nat.ofDigits 2 (bits.map Bool.toNat)

/-- The low binary digits of a number. -/
def lowBits (count n : Nat) : List Bool := (List.range count).map n.testBit

@[simp] theorem binaryValue_nil : binaryValue [] = 0 := rfl

@[simp] theorem binaryValue_cons (bit : Bool) (bits : List Bool) :
    binaryValue (bit :: bits) = bit.toNat + 2 * binaryValue bits := rfl

theorem binaryValue_append (low high : List Bool) :
    binaryValue (low ++ high) = binaryValue low + 2 ^ low.length * binaryValue high := by
  simp [binaryValue, Nat.ofDigits_append]

private theorem binaryValue_lt (bits : List Bool) : binaryValue bits < 2 ^ bits.length := by
  induction bits with
  | nil => simp
  | cons bit bits ih =>
    have digit := bit.toNat_lt
    simp only [binaryValue_cons, List.length_cons, Nat.pow_succ]
    omega

@[simp] theorem lowBits_length (count n : Nat) : (lowBits count n).length = count := by
  simp [lowBits]

private theorem lowBits_succ (count n : Nat) :
    lowBits (count + 1) n = n.testBit 0 :: lowBits count (n / 2) := by
  simp [lowBits, List.range_succ_eq_map, Nat.testBit_succ]

theorem binaryValue_lowBits (count n : Nat) : binaryValue (lowBits count n) = n % 2 ^ count := by
  induction count generalizing n with
  | zero => simp [lowBits, Nat.mod_one]
  | succ count ih =>
    have digit : (n.testBit 0).toNat = n % 2 := by
      rcases Nat.mod_two_eq_zero_or_one n with even | odd <;> simp [*]
    rw [lowBits_succ, binaryValue_cons, ih, digit, Nat.pow_succ', Nat.mod_mul]

theorem lowBits_binaryValue (bits : List Bool) : lowBits bits.length (binaryValue bits) = bits := by
  induction bits with
  | nil => rfl
  | cons bit bits ih =>
    have first : (bit.toNat + 2 * binaryValue bits).testBit 0 = bit := by
      cases bit <;> simp [Nat.testBit_zero]
    have rest : (bit.toNat + 2 * binaryValue bits) / 2 = binaryValue bits := by
      have digit := bit.toNat_lt
      omega
    rw [List.length_cons, binaryValue_cons, lowBits_succ, first, rest, ih]

/-- Digits in the middle of a number. -/
theorem binaryValue_middle {start width count : Nat} (fits : start + width ≤ count) (n : Nat) :
    binaryValue (((lowBits count n).drop start).take width) = n >>> start % 2 ^ width := by
  have middle : ((lowBits count n).drop start).take width = lowBits width (n >>> start) := by
    apply List.ext_getElem
    · simp only [List.length_take, List.length_drop, lowBits_length]
      omega
    · intro index _ _
      simp [lowBits, Nat.testBit_shiftRight]
  rw [middle, binaryValue_lowBits]

/-- Digits of one number in the other's places. -/
theorem lowBits_xor (count x y : Nat) :
    lowBits count (x ^^^ y) = List.zipWith Bool.xor (lowBits count x) (lowBits count y) := by
  simp [lowBits, List.zipWith_map, List.zipWith_self]

/-- Whether digits stay below a bound, most significant first. Each pair is a digit of the
bound with the digit over it, and `tight` tells whether all pairs before agree. -/
def atMost : (tight : Bool) → List (Bool × Bool) → Bool
  | _, [] => true
  | tight, (true, digit) :: rest => atMost (tight && digit) rest
  | tight, (false, digit) :: rest => !(tight && digit) && atMost tight rest

theorem atMost_iff (tight : Bool) (pairs : List (Bool × Bool)) :
    atMost tight pairs = true ↔ (tight = true →
      binaryValue (pairs.map Prod.snd).reverse ≤ binaryValue (pairs.map Prod.fst).reverse) := by
  induction pairs generalizing tight with
  | nil => simp [atMost]
  | cons pair rest ih =>
    have low := binaryValue_lt (rest.map Prod.snd).reverse
    have high := binaryValue_lt (rest.map Prod.fst).reverse
    obtain ⟨bound, digit⟩ := pair
    simp only [List.length_reverse, List.length_map] at low high
    simp only [List.map_cons, List.reverse_cons, binaryValue_append, List.length_reverse,
      List.length_map, binaryValue_cons, binaryValue_nil]
    cases bound <;> cases digit <;> cases tight <;> simp [atMost, ih] <;> omega

private theorem binaryDigits_eq (n : Nat) : binaryDigits n = (lowBits (n.log2 + 1) n).reverse := by
  simp [binaryDigits, lowBits]

private theorem binaryValue_binaryDigits (n : Nat) : binaryValue (binaryDigits n).reverse = n := by
  rw [binaryDigits_eq, List.reverse_reverse, binaryValue_lowBits]
  exact Nat.mod_eq_of_lt Nat.lt_log2_self

theorem atMost_binaryDigits (n : Nat) (bits : List Bool) (size : bits.length = n.log2 + 1) :
    atMost true ((binaryDigits n).zip bits.reverse) = true ↔ binaryValue bits ≤ n := by
  have same : (binaryDigits n).length = bits.reverse.length := by simp [binaryDigits_eq, size]
  rw [atMost_iff, List.map_snd_zip (Nat.le_of_eq same.symm), List.map_fst_zip (Nat.le_of_eq same),
    List.reverse_reverse, binaryValue_binaryDigits]
  simp

private theorem powerAlong_eq_pow [Monoid α] (base : α) (digits : List Bool) :
    powerAlong base digits = base ^ binaryValue digits.reverse := by
  induction digits using List.reverseRecOn with
  | nil => simp [powerAlong]
  | append_singleton digits digit ih =>
    have last : powerAlong base (digits ++ [digit]) =
        (powerAlong base digits * powerAlong base digits) * base ^ digit.toNat := by
      cases digit <;> simp [powerAlong]
    rw [last, ih, List.reverse_append, List.reverse_singleton, List.singleton_append,
      binaryValue_cons, ← pow_add, ← pow_add]
    congr 1
    omega

theorem power_eq_pow [Monoid α] (base : α) (exponent : Nat) : power base exponent = base ^ exponent := by
  rw [power, powerAlong_eq_pow, binaryValue_binaryDigits]

end MailProof
