import MailProof.Curve.Compressed
import MailProof.Proofs.Bytes
import MailProof.Proofs.Curve.Field
import MailProof.Proofs.Reader
import Mathlib.Algebra.CharP.Lemmas
import Mathlib.Tactic.LinearCombination

/-! Compressed points are read back. The coordinate `y` is found among the two square roots by
the flag, which tells the larger of the two. -/

namespace MailProof

open Fin.CommRing

namespace PointFlag

/-- A flag in the two top bits of a byte leaves the other six as they are. -/
theorem ofByte_or_bits (top : Fin 0x40) (flag : PointFlag) :
    ofByte (UInt8.ofNat top.val ||| flag.bits) = .ok flag ∧
      (UInt8.ofNat top.val ||| flag.bits) % 0x40 = UInt8.ofNat top.val := by
  revert top
  cases flag <;> decide +kernel

end PointFlag

theorem flagged_append (front : Bytes) (last : UInt8) (flag : PointFlag) :
    flagged (front ++ [last]) flag = front ++ [last ||| flag.bits] := by
  simp [flagged]

theorem Bytes.littleEndian_succ (count n : Nat) :
    littleEndian (count + 1) n = littleEndian count n ++ [UInt8.ofNat (n / 256 ^ count % 256)] := by
  induction count generalizing n with
  | zero => simp [littleEndian]
  | succ count ih =>
    rw [littleEndian, ih, littleEndian, List.cons_append, Nat.div_div_eq_div_mul, ← Nat.pow_succ']

namespace Base

theorem toBytes_length (x : Base) : x.toBytes.length = width := Bytes.littleEndian_length _ _

private theorem ofBytes_toBytes (x : Base) : ofBytes x.toBytes = .ok x := by
  have value : x.toBytes.toNatLE = x.val := by
    rw [toBytes, Bytes.toNatLE_littleEndian]
    exact Nat.mod_eq_of_lt (Nat.lt_trans x.isLt (by decide))
  rw [ofBytes, dif_pos (value ▸ x.isLt)]
  exact congrArg Except.ok (Fin.ext value)

private theorem read_toBytes (x : Base) : read.Reads x.toBytes x :=
  .map (Reader.reads_take x.toBytes_length _) (.check x.ofBytes_toBytes)

/-- The last byte has room for a flag. -/
theorem toBytes_eq (x : Base) : ∃ (front : Bytes) (top : Fin 0x40), front.length = 31 ∧
    x.toBytes = front ++ [UInt8.ofNat top.val] := by
  have small : x.val / 256 ^ 31 < 0x40 := by
    refine Nat.div_lt_of_lt_mul (Nat.lt_trans x.isLt ?_)
    decide
  refine ⟨_, ⟨x.val / 256 ^ 31, small⟩, Bytes.littleEndian_length 31 x.val, ?_⟩
  rw [toBytes, width, Bytes.littleEndian_succ]
  rw [Nat.mod_eq_of_lt (Nat.lt_trans small (by decide))]

private theorem readFlagged_flagged (x : Base) (flag : PointFlag) :
    readFlagged.Reads (flagged x.toBytes flag) (x, flag) := by
  obtain ⟨front, top, size, written⟩ := x.toBytes_eq
  obtain ⟨kept, rest⟩ := PointFlag.ofByte_or_bits top flag
  have whole : (front ++ [UInt8.ofNat top.val ||| flag.bits]).length = width := by
    rw [List.length_append, size]
    rfl
  rw [written, flagged_append]
  refine .map (Reader.reads_take whole _) ?_
  have last : (front ++ [UInt8.ofNat top.val ||| flag.bits]).getLastD 0 =
      UInt8.ofNat top.val ||| flag.bits := by simp
  rw [last, List.dropLast_concat]
  refine .map (.check kept) (.map (.check ?_) (.pure _))
  rw [rest, ← written, ofBytes_toBytes]

private theorem double_eq_zero {x : Base} (zero : x + x = 0) : x = 0 := by
  have doubled : 2 * x = 0 := by linear_combination zero
  exact (mul_eq_zero.mp doubled).resolve_left CurveField.two_ne_zero

theorem exceedsNegative_neg {x : Base} (apart : -x ≠ x) :
    exceedsNegative (-x) = !exceedsNegative x := by
  have differ : (-x).val ≠ x.val := fun same => apart (Fin.ext same)
  rw [exceedsNegative, exceedsNegative, neg_neg]
  by_cases less : (-x).val < x.val
  · rw [decide_eq_true less, decide_eq_false (by omega)]
    rfl
  · rw [decide_eq_false less, decide_eq_true (by omega)]
    rfl

/-- Squares have their root found. -/
theorem sqrt?_square (y : Base) : ∃ root, sqrt? (y * y) = some root ∧ (y = root ∨ y = -root) := by
  have square : power (y * y) ((baseOrder + 1) / 4) * power (y * y) ((baseOrder + 1) / 4) = y * y := by
    by_cases zero : y = 0
    · subst zero
      decide +kernel
    · have exponent : 2 * ((baseOrder + 1) / 4 + (baseOrder + 1) / 4) = baseOrder - 1 + 2 := by decide
      rw [power_eq_pow, ← pow_add, ← pow_two, ← pow_mul, exponent, pow_add,
        Residue.pow_order_sub_one baseOrder_prime zero, one_mul]
  refine ⟨power (y * y) ((baseOrder + 1) / 4), by simp only [sqrt?, if_pos square], ?_⟩
  generalize power (y * y) ((baseOrder + 1) / 4) = root at square
  exact mul_self_eq_mul_self_iff.mp square.symm

private theorem square_of_sqrt? {x y : Base} (found : sqrt? x = some y) : y * y = x := by
  simp only [sqrt?, Option.ite_none_right_eq_some, Option.some.injEq] at found
  obtain ⟨square, rfl⟩ := found
  exact square

end Base

namespace Quadratic

/-- A number of the base field. -/
def ofBase : Base →+* Quadratic where
  toFun x := ⟨x, 0⟩
  map_one' := rfl
  map_zero' := rfl
  map_add' x y := by ext : 1 <;> simp
  map_mul' x y := by ext : 1 <;> simp

/-- The square root of minus one. -/
def unit : Quadratic := ⟨0, 1⟩

private theorem eq_sum (x : Quadratic) : x = ofBase x.re + ofBase x.im * unit := by
  ext : 1 <;> simp [ofBase, unit]

instance : CharP Quadratic baseOrder := by
  have zero : ((baseOrder : Nat) : Base) = 0 := by decide
  refine (CharP.charP_iff_prime_eq_zero baseOrder_prime).mpr ?_
  rw [← map_natCast ofBase, zero, map_zero]

theorem pow_baseOrder (x : Quadratic) : x ^ baseOrder = x.conjugate := by
  have : Fact baseOrder.Prime := ⟨baseOrder_prime⟩
  have fixed (y : Base) : y ^ baseOrder = y := Residue.pow_order baseOrder_prime y
  have turned : unit ^ baseOrder = -unit := by
    rw [← power_eq_pow]
    decide +kernel
  conv_lhs => rw [x.eq_sum]
  rw [add_pow_char, mul_pow, ← map_pow, ← map_pow, fixed, fixed, turned]
  ext : 1 <;> simp [ofBase, unit, conjugate]

private theorem mul_conjugate (x : Quadratic) : x * x.conjugate = ofBase x.norm := by
  ext : 1
  · simp [ofBase, conjugate, norm]
  · simp [ofBase, conjugate]
    ring

/-- The power that tells how a square root turns under conjugation has norm one. -/
theorem sign_mul_conjugate {y : Quadratic} (nonzero : y ≠ 0) :
    y ^ (baseOrder - 1) * (y ^ (baseOrder - 1)) ^ baseOrder = 1 := by
  have exponent : baseOrder - 1 + (baseOrder - 1) * baseOrder = (baseOrder + 1) * (baseOrder - 1) := by
    decide
  have total : y ^ (baseOrder + 1) = ofBase y.norm := by
    rw [pow_succ', pow_baseOrder, mul_conjugate]
  rw [← pow_mul, ← pow_add, exponent, pow_mul, total, ← map_pow,
    Residue.pow_order_sub_one baseOrder_prime (norm_ne_zero nonzero), map_one]

/-- The candidate for a root of the square of `y`, in powers of `y`. -/
theorem candidate_square {y : Quadratic} (nonzero : y ≠ 0) (apart : y ^ (baseOrder - 1) ≠ -1) :
    (1 + y ^ (baseOrder - 1)) ^ (baseOrder - 1) * y ^ (baseOrder + 1) = y * y := by
  have : Fact baseOrder.Prime := ⟨baseOrder_prime⟩
  have proper : 1 + y ^ (baseOrder - 1) ≠ 0 := fun zero =>
    apart (eq_neg_of_add_eq_zero_right zero)
  have turned : (1 + y ^ (baseOrder - 1)) ^ baseOrder * y ^ (baseOrder - 1) =
      1 + y ^ (baseOrder - 1) := by
    rw [add_pow_char, one_pow, add_mul, one_mul, mul_comm (_ ^ baseOrder),
      sign_mul_conjugate nonzero, add_comm]
  have cancelled : (1 + y ^ (baseOrder - 1)) ^ (baseOrder - 1) * y ^ (baseOrder - 1) = 1 := by
    have shifted : baseOrder - 1 + 1 = baseOrder := by decide
    refine mul_left_cancel₀ proper ?_
    rw [← mul_assoc, ← pow_succ', shifted, turned, mul_one]
  have split : baseOrder + 1 = baseOrder - 1 + 2 := by decide
  rw [split, pow_add, ← mul_assoc, cancelled, one_mul, pow_two]

private theorem unit_mul (x : Quadratic) : unit * x = ⟨-x.im, x.re⟩ := by
  ext : 1 <;> simp [unit]

/-- Squares have their root found. -/
theorem sqrt?_square (y : Quadratic) :
    ∃ root, sqrt? (y * y) = some root ∧ (y = root ∨ y = -root) := by
  suffices found : ∃ root : Quadratic, root * root = y * y ∧ sqrt? (y * y) = some root by
    obtain ⟨root, square, computed⟩ := found
    exact ⟨root, computed, mul_self_eq_mul_self_iff.mp square.symm⟩
  by_cases zero : y = 0
  · subst zero
    exact ⟨0, rfl, by decide +kernel⟩
  have half : power (y * y) ((baseOrder - 3) / 4) * (y * y) = y ^ ((baseOrder + 1) / 2) := by
    have exponent : 2 * ((baseOrder - 3) / 4) + 2 = (baseOrder + 1) / 2 := by decide
    rw [power_eq_pow, ← pow_two, ← pow_mul, ← pow_add, exponent]
  have sign : power (y * y) ((baseOrder - 3) / 4) * y ^ ((baseOrder + 1) / 2) =
      y ^ (baseOrder - 1) := by
    have exponent : 2 * ((baseOrder - 3) / 4) + (baseOrder + 1) / 2 = baseOrder - 1 := by decide
    rw [power_eq_pow, ← pow_two, ← pow_mul, ← pow_add, exponent]
  have whole : y ^ ((baseOrder + 1) / 2) * y ^ ((baseOrder + 1) / 2) = y ^ (baseOrder + 1) := by
    have exponent : (baseOrder + 1) / 2 + (baseOrder + 1) / 2 = baseOrder + 1 := by decide
    rw [← pow_add, exponent]
  by_cases turned : y ^ (baseOrder - 1) = -1
  · have square : (unit * y ^ ((baseOrder + 1) / 2)) * (unit * y ^ ((baseOrder + 1) / 2)) = y * y := by
      have imaginary : unit * unit = -1 := by decide
      have split : baseOrder + 1 = baseOrder - 1 + 2 := by decide
      rw [mul_mul_mul_comm, imaginary, whole, split, pow_add, turned, pow_two, neg_one_mul,
        neg_one_mul, neg_neg]
    refine ⟨_, square, ?_⟩
    rw [unit_mul] at square ⊢
    simp only [sqrt?, half, sign, if_pos turned, if_pos square]
  · have square : (power (1 + y ^ (baseOrder - 1)) ((baseOrder - 1) / 2) *
          y ^ ((baseOrder + 1) / 2)) *
        (power (1 + y ^ (baseOrder - 1)) ((baseOrder - 1) / 2) * y ^ ((baseOrder + 1) / 2)) =
        y * y := by
      have exponent : (baseOrder - 1) / 2 + (baseOrder - 1) / 2 = baseOrder - 1 := by decide
      rw [mul_mul_mul_comm, power_eq_pow, ← pow_add, exponent, whole, candidate_square zero turned]
    refine ⟨_, square, ?_⟩
    simp only [sqrt?, half, sign, if_neg turned, if_pos square]

private theorem square_of_sqrt? {x y : Quadratic} (found : sqrt? x = some y) : y * y = x := by
  simp only [sqrt?, Option.ite_none_right_eq_some, Option.some.injEq] at found
  obtain ⟨square, rfl⟩ := found
  exact square

private theorem exceedsNegative_neg {x : Quadratic} (apart : -x ≠ x) :
    exceedsNegative (-x) = !exceedsNegative x := by
  have fixed_iff (y : Base) : -y = y ↔ y = 0 := by
    refine ⟨fun same => Base.double_eq_zero ?_, fun zero => by rw [zero, neg_zero]⟩
    linear_combination -same
  rw [exceedsNegative, exceedsNegative, neg_im, neg_re]
  by_cases real : x.im = 0
  · have differ : -x.re ≠ x.re := fun same => apart (by
      ext : 1
      · exact same
      · rw [neg_im, real, neg_zero])
    rw [if_pos real, if_pos (by rw [real, neg_zero]), Base.exceedsNegative_neg differ]
  · have differ : -x.im ≠ x.im := fun same => real ((fixed_iff _).mp same)
    rw [if_neg real, if_neg (fun zero => real (neg_eq_zero.mp zero)), Base.exceedsNegative_neg differ]

end Quadratic

/-- Coordinates that are read back, with the roots of squares and an order of opposite elements. -/
class LawfulCompressible (K : Type) [Compressible K] : Prop where
  reads : ∀ (x : K) (flag : PointFlag), (Compressible.readFlagged : Reader PointError _).Reads
    (flagged (Compressible.toBytes x) flag) (x, flag)
  root : ∀ y : K, ∃ root, CoordinateField.sqrt? (y * y) = some root ∧ (y = root ∨ y = -root)
  ordered : ∀ y : K, -y ≠ y →
    CoordinateField.exceedsNegative (-y) = !CoordinateField.exceedsNegative y
  negated : ∀ y : K, -(-y) = y
  sound : ∀ x y : K, CoordinateField.sqrt? x = some y → y * y = x
  square_neg : ∀ y : K, -y * -y = y * y

instance : LawfulCompressible Base where
  reads := Base.readFlagged_flagged
  root := Base.sqrt?_square
  ordered _ := Base.exceedsNegative_neg
  negated := neg_neg
  sound _ _ := Base.square_of_sqrt?
  square_neg y := neg_mul_neg y y

instance : LawfulCompressible Quadratic where
  reads x flag := by
    obtain ⟨front, top, _, written⟩ := x.im.toBytes_eq
    have last : flagged (x.re.toBytes ++ x.im.toBytes) flag =
        x.re.toBytes ++ flagged x.im.toBytes flag := by
      rw [written, ← List.append_assoc, flagged_append, flagged_append, List.append_assoc]
    change Reader.Reads _ (flagged (x.re.toBytes ++ x.im.toBytes) flag) _
    rw [last]
    exact .bind x.re.read_toBytes (.map (x.im.readFlagged_flagged flag) (.pure _))
  root := Quadratic.sqrt?_square
  ordered _ := Quadratic.exceedsNegative_neg
  negated := neg_neg
  sound _ _ := Quadratic.square_of_sqrt?
  square_neg y := neg_mul_neg y y

namespace Point

variable {K : Type} [Compressible K] [LawfulCompressible K]

private theorem ofCoordinate_select {x y : K} (on : (Point.affine x y).OnCurve) :
    ofCoordinate x (if CoordinateField.exceedsNegative y then .larger else .smaller) =
      .ok (.affine x y) := by
  obtain ⟨root, found, same⟩ := LawfulCompressible.root y
  have equation : y * y = x * x * x + CoordinateField.curveConstant := on
  rw [equation] at found
  have select (larger : Bool) : ofCoordinate x (if larger then .larger else .smaller) =
      if CoordinateField.exceedsNegative root = larger then .ok (.affine x root)
      else .ok (.affine x (-root)) := by
    cases larger <;> simp [ofCoordinate, found]
  rw [select]
  by_cases self : -y = y
  · have equal : root = y := by
      rcases same with rfl | rfl
      · rfl
      · rw [LawfulCompressible.negated] at self
        exact self
    subst equal
    rw [if_pos rfl]
  · rcases same with rfl | rfl
    · rw [if_pos rfl]
    · rw [LawfulCompressible.negated] at self
      have apart : -root ≠ root := fun equal => self equal.symm
      rw [LawfulCompressible.ordered root apart, if_neg (by simp)]

private theorem readOnCurve_toBytes {p : Point K} (on : p.OnCurve) :
    (readOnCurve : Reader PointError (Point K)).Reads p.toBytes p := by
  cases p with
  | infinity => exact .map (LawfulCompressible.reads 0 .infinity) (.check rfl)
  | affine x y => exact .map (LawfulCompressible.reads x _) (.check (ofCoordinate_select on))

/-- On the curve, and in the group as far as readers check. -/
def Admissible (p : Point K) : Prop := p.OnCurve ∧ CurveGroup.inGroup p = true

theorem read_toBytes {p : Point K} (admissible : p.Admissible) :
    (read : Reader PointError (Point K)).Reads p.toBytes p :=
  .map (readOnCurve_toBytes admissible.1) (.map (.check (if_pos admissible.2)) (.pure p))

/-- Points that can be read, and that can be counted in eight bytes. -/
def ListAdmissible (points : List (Point K)) : Prop :=
  points.length < 2 ^ 64 ∧ ∀ p ∈ points, p.Admissible

omit [LawfulCompressible K] in
theorem listAdmissible_map {list : List α} (counted : list.length < 2 ^ 64) {f : α → Point K}
    (all : ∀ x, (f x).Admissible) : ListAdmissible (list.map f) :=
  ⟨by rwa [List.length_map], List.forall_mem_map.mpr fun x _ => all x⟩

omit [LawfulCompressible K] in
theorem checkAll_eq_ok_iff (points : List (Point K)) :
    checkAll points = .ok () ↔ ∀ p ∈ points, CurveGroup.inGroup p = true := by
  induction points with
  | nil => exact iff_of_true rfl nofun
  | cons p points ih =>
    change check p >>= (fun _ => checkAll points) = .ok () ↔ _
    rw [List.forall_mem_cons, ← ih, check]
    by_cases member : CurveGroup.inGroup p = true
    · rw [if_pos member]
      exact ⟨fun rest => ⟨member, rest⟩, And.right⟩
    · rw [if_neg member]
      exact ⟨nofun, fun both => absurd both.1 member⟩

theorem readList_toBytes {points : List (Point K)} (admissible : ListAdmissible points) :
    (readList : Reader PointError (List (Point K))).Reads (listToBytes points) points := by
  have count : (Bytes.littleEndian 8 points.length).toNatLE = points.length := by
    rw [Bytes.toNatLE_littleEndian]
    exact Nat.mod_eq_of_lt (Nat.lt_of_lt_of_le admissible.1 (by decide))
  refine .bind (Reader.reads_take (Bytes.littleEndian_length ..) _) ?_
  rw [count]
  refine .map (.replicate fun p member => readOnCurve_toBytes (admissible.2 p member).1) ?_
  exact .map (.check ((checkAll_eq_ok_iff points).mpr fun p member => (admissible.2 p member).2))
    (.pure points)

/-- Only points of the curve are read. -/
theorem yields_readOnCurve : (readOnCurve : Reader PointError (Point K)).Yields Point.OnCurve := by
  refine .bind (Reader.yields_any _) fun pair _ => ?_
  obtain ⟨x, flag⟩ := pair
  intro input p rest read
  have selected := Reader.yields_check (ofCoordinate x flag) input p rest read
  have root {y : K} (found : CoordinateField.sqrt? (x * x * x + CoordinateField.curveConstant) = some y)
      (same : p = .affine x y ∨ p = .affine x (-y)) : p.OnCurve := by
    have square := LawfulCompressible.sound _ y found
    rcases same with rfl | rfl
    · exact square
    · exact (LawfulCompressible.square_neg y).trans square
  cases flag
  case infinity =>
    cases selected
    trivial
  case smaller | larger =>
    simp only [ofCoordinate] at selected
    split at selected
    · cases selected
    case _ y found =>
      refine root found ?_
      split at selected <;> cases selected <;> simp

omit [LawfulCompressible K] in
private theorem yields_check (p : Point K) :
    (liftM (check p) : Reader PointError Unit).Yields fun _ => CurveGroup.inGroup p = true := by
  intro input value rest read
  have passed := Reader.yields_check (check p) input value rest read
  rw [check] at passed
  split at passed
  · assumption
  · cases passed

/-- Only points of the group are read. -/
theorem yields_read : (read : Reader PointError (Point K)).Yields Point.Admissible :=
  .bind yields_readOnCurve fun p on => .bind (yields_check p) fun _ member => .pure ⟨on, member⟩

theorem yields_readList :
    (readList : Reader PointError (List (Point K))).Yields ListAdmissible := by
  refine .bind (Reader.yields_take 8 _) fun count size => ?_
  refine .bind (yields_readOnCurve.replicate count.toNatLE) fun points all => ?_
  refine .bind (Reader.yields_check (checkAll points)) fun _ passed => .pure ⟨?_, ?_⟩
  · have bound := Bytes.toNatLE_lt count
    rw [size, ← all.1] at bound
    exact Nat.lt_of_lt_of_eq bound (by decide)
  · exact fun p member => ⟨all.2 p member, (checkAll_eq_ok_iff points).mp passed p member⟩

end Point

end MailProof
