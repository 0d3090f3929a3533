import Mathlib.AlgebraicGeometry.EllipticCurve.Affine.Point
import MailProof.Proofs.Curve.Compressed

/-! Forms of compressed points. No point of the two curves has `y = 0`, so the two points with one
first coordinate differ and the flag of each is fixed. A point other than the one at infinity is
therefore read from one byte string only. The point at infinity is read under any coordinate. -/

namespace MailProof

open Fin.CommRing

namespace PointFlag

/-- A byte is its lower six bits with the flag that it is read for. -/
theorem or_bits_of_ofByte {byte : UInt8} {flag : PointFlag} (reads : ofByte byte = .ok flag) :
    byte % 0x40 ||| flag.bits = byte := by
  have all : ∀ n < 256, ∀ flag ∈ [smaller, infinity, larger],
      ofByte (.ofNat n) = .ok flag → UInt8.ofNat n % 0x40 ||| flag.bits = UInt8.ofNat n := by
    decide +kernel
  have known := all byte.toNat byte.toNat_lt flag (by cases flag <;> decide)
  rw [UInt8.ofNat_toNat] at known
  exact known reads

end PointFlag

theorem flagged_length {bytes : Bytes} (nonempty : bytes ≠ []) (flag : PointFlag) :
    (flagged bytes flag).length = bytes.length := by
  have positive := List.length_pos_of_ne_nil nonempty
  rw [flagged, List.length_append, List.length_dropLast, List.length_singleton]
  omega

namespace Base

private theorem toBytes_of_ofBytes {bytes : Bytes} {x : Base} (size : bytes.length = width)
    (reads : ofBytes bytes = .ok x) : bytes = x.toBytes := by
  rw [ofBytes] at reads
  split at reads
  · cases reads
    rw [toBytes, ← size, Bytes.littleEndian_toNatLE]
  · cases reads

private theorem takes_read : read.Takes fun bytes x => bytes = x.toBytes := by
  refine (Reader.Takes.bind (Reader.takes_take width _)
    fun bytes => Reader.takes_check (ofBytes bytes)).weaken ?_
  rintro _ x ⟨bytes, _, _, rfl, ⟨rfl, size⟩, rfl, reads⟩
  rw [List.append_nil]
  exact toBytes_of_ofBytes size reads

private theorem takes_readFlagged :
    readFlagged.Takes fun bytes pair => bytes = flagged pair.1.toBytes pair.2 := by
  refine (Reader.Takes.bind (Reader.takes_take width _) fun bytes =>
    .bind (Reader.takes_check (PointFlag.ofByte (bytes.getLastD 0))) fun flag =>
      .bind (Reader.takes_check (ofBytes (bytes.dropLast ++ [bytes.getLastD 0 % 0x40])))
        fun x => .pure (x, flag)).weaken ?_
  rintro _ _ ⟨_, bytes, _, rfl, ⟨rfl, size⟩, flag, _, _, rfl, ⟨rfl, flagRead⟩, x, _, _, rfl,
    ⟨rfl, reads⟩, rfl, rfl⟩
  have nonempty : bytes ≠ [] := List.ne_nil_of_length_pos (size ▸ by decide)
  obtain ⟨front, last, rfl⟩ : ∃ front last, bytes = front ++ [last] :=
    ⟨_, _, (List.dropLast_append_getLast nonempty).symm⟩
  have top : (front ++ [last]).getLastD 0 = last := by simp
  rw [top] at flagRead reads
  rw [List.dropLast_concat] at reads
  have written := toBytes_of_ofBytes (by simpa using size) reads
  simp only [List.append_nil]
  rw [← written, flagged_append, PointFlag.or_bits_of_ofByte flagRead]

/-- Minus three is no cube, so no point of the curve has `y = 0`. -/
theorem cube_add_ne_zero (x : Base) : x * x * x + CoordinateField.curveConstant ≠ 0 := by
  intro zero
  have cube : x ^ 3 = -3 := by
    have equation : x * x * x + 3 = 0 := zero
    linear_combination equation
  have nonzero : x ≠ 0 := by
    rintro rfl
    exact absurd cube (by decide)
  have root : (-3 : Base) ^ ((baseOrder - 1) / 3) = 1 := by
    rw [← cube, ← pow_mul, ← Residue.pow_order_sub_one baseOrder_prime nonzero]
    rfl
  rw [← power_eq_pow] at root
  exact absurd root (by decide +kernel)

end Base

namespace Quadratic

theorem pow_card_sub_one {x : Quadratic} (nonzero : x ≠ 0) : x ^ (baseOrder * baseOrder - 1) = 1 := by
  have shifted : baseOrder * baseOrder - 1 + 1 = baseOrder * baseOrder := by decide
  have whole : x ^ (baseOrder * baseOrder) = x := by
    rw [pow_mul, pow_baseOrder, pow_baseOrder]
    ext : 1 <;> simp [conjugate]
  refine mul_right_cancel₀ nonzero ?_
  rw [← pow_succ, shifted, whole, one_mul]

/-- The negative of the constant of the twist is no cube. -/
theorem cube_add_ne_zero (x : Quadratic) : x * x * x + CoordinateField.curveConstant ≠ 0 := by
  intro zero
  have cube : x ^ 3 = -twistConstant := by
    have equation : x * x * x + twistConstant = 0 := zero
    linear_combination equation
  have nonzero : x ≠ 0 := by
    rintro rfl
    exact absurd cube (by decide +kernel)
  have root : (-twistConstant) ^ ((baseOrder * baseOrder - 1) / 3) = 1 := by
    have exponent : 3 * ((baseOrder * baseOrder - 1) / 3) = baseOrder * baseOrder - 1 := by decide
    rw [← cube, ← pow_mul, exponent, pow_card_sub_one nonzero]
  rw [← power_eq_pow] at root
  exact absurd root (by decide +kernel)

end Quadratic

/-- Opposite elements of a field with the curve differ, unless they are zero. -/
theorem CurveField.eq_zero_of_neg_eq {K : Type} [CurveField K] {y : K} (same : -y = y) : y = 0 := by
  have doubled : 2 * y = 0 := by linear_combination -same
  exact (mul_eq_zero.mp doubled).resolve_left CurveField.two_ne_zero

/-- Coordinates whose flagged bytes are of one form, on a curve without points of `y = 0`. -/
class CanonicalCompressible (K : Type) [Compressible K] : Prop extends LawfulCompressible K where
  takes : (Compressible.readFlagged : Reader PointError (K × PointFlag)).Takes
    fun bytes pair => bytes = flagged (Compressible.toBytes pair.1) pair.2
  apart : ∀ x y : K, (Point.affine x y).OnCurve → -y ≠ y

instance : CanonicalCompressible Base where
  takes := Base.takes_readFlagged
  apart x y on same := by
    have equation : y * y = x * x * x + CoordinateField.curveConstant := on
    rw [CurveField.eq_zero_of_neg_eq same, mul_zero] at equation
    exact Base.cube_add_ne_zero x equation.symm

instance : CanonicalCompressible Quadratic where
  takes := by
    refine (Reader.Takes.bind Base.takes_read fun re =>
      .bind Base.takes_readFlagged fun pair => .pure ((⟨re, pair.1⟩ : Quadratic), pair.2)).weaken ?_
    rintro _ _ ⟨re, _, _, rfl, rfl, ⟨im, flag⟩, _, _, rfl, rfl, rfl, rfl⟩
    obtain ⟨front, top, _, written⟩ := im.toBytes_eq
    change _ = flagged (re.toBytes ++ im.toBytes) flag
    rw [List.append_nil, written, ← List.append_assoc, flagged_append, flagged_append,
      List.append_assoc]
  apart x y on same := by
    have equation : y * y = x * x * x + CoordinateField.curveConstant := on
    rw [CurveField.eq_zero_of_neg_eq same, mul_zero] at equation
    exact Quadratic.cube_add_ne_zero x equation.symm

namespace Point

variable {K : Type} [Compressible K]

/-- The byte strings of a point. That of a point with coordinates is its compressed form, and the
point at infinity may stand under any coordinate. -/
inductive WrittenAs : Point K → Bytes → Prop where
  | infinity (x : K) : WrittenAs .infinity (flagged (Compressible.toBytes x) .infinity)
  | affine (x y : K) : WrittenAs (.affine x y) (toBytes (.affine x y))

/-- A written point with coordinates has its compressed form. -/
theorem WrittenAs.eq_toBytes {p : Point K} {bytes : Bytes} (written : p.WrittenAs bytes)
    (finite : p ≠ .infinity) : bytes = p.toBytes := by
  cases written with
  | infinity x => exact absurd rfl finite
  | affine x y => rfl

/-- The compressed form is one of the byte strings. -/
theorem writtenAs_toBytes (p : Point K) : p.WrittenAs p.toBytes := by
  cases p with
  | infinity => exact .infinity 0
  | affine x y => exact .affine x y

theorem WrittenAs.length_eq {width : Nat} (positive : 0 < width)
    (even : ∀ x : K, (Compressible.toBytes x).length = width) {p : Point K} {bytes : Bytes}
    (written : p.WrittenAs bytes) : bytes.length = width := by
  have size (x : K) (flag : PointFlag) : (flagged (Compressible.toBytes x) flag).length = width :=
    (flagged_length (List.ne_nil_of_length_pos (even x ▸ positive)) flag).trans (even x)
  cases written with
  | infinity x => exact size x _
  | affine x y => exact size x _

variable [CanonicalCompressible K]

/-- A point selected by a flag has that flag. -/
theorem writtenAs_of_ofCoordinate {x : K} {flag : PointFlag} {p : Point K}
    (selects : ofCoordinate x flag = .ok p) :
    p.WrittenAs (flagged (Compressible.toBytes x) flag) := by
  have root {y : K} (found : CoordinateField.sqrt? (x * x * x + CoordinateField.curveConstant) = some y) :
      CoordinateField.exceedsNegative (-y) = !CoordinateField.exceedsNegative y :=
    LawfulCompressible.ordered y
      (CanonicalCompressible.apart x y (LawfulCompressible.sound _ y found))
  have written {y : K} (flagged' : flag = if CoordinateField.exceedsNegative y then .larger else .smaller) :
      (Point.affine x y).WrittenAs (flagged (Compressible.toBytes x) flag) := by
    rw [flagged']
    exact .affine x y
  cases flag with
  | infinity =>
    cases selects
    exact .infinity x
  | smaller | larger =>
    simp only [ofCoordinate] at selects
    split at selects
    · cases selects
    case _ y found =>
      have opposite := root found
      split at selects <;> cases selects <;> refine written ?_ <;> simp_all

private theorem takes_readOnCurve :
    (readOnCurve : Reader PointError (Point K)).Takes fun bytes p => p.WrittenAs bytes := by
  refine (Reader.Takes.bind CanonicalCompressible.takes fun pair =>
    Reader.takes_check (ofCoordinate pair.1 pair.2)).weaken ?_
  rintro _ p ⟨pair, _, _, rfl, rfl, rfl, selects⟩
  rw [List.append_nil]
  exact writtenAs_of_ofCoordinate selects

theorem takes_read :
    (read : Reader PointError (Point K)).Takes fun bytes p => p.WrittenAs bytes := by
  refine (Reader.Takes.bind takes_readOnCurve fun p =>
    .bind (Reader.takes_check (check p)) fun _ => .pure p).weaken ?_
  rintro _ _ ⟨p, bytes, _, rfl, written, _, _, _, rfl, ⟨rfl, _⟩, rfl, rfl⟩
  simpa using written

/-- A point of the group is read from each of its byte strings. -/
theorem read_writtenAs {p : Point K} {bytes : Bytes} (written : p.WrittenAs bytes)
    (admissible : p.Admissible) : (read : Reader PointError (Point K)).Reads bytes p := by
  cases written with
  | infinity x =>
    exact .map (.map (LawfulCompressible.reads x .infinity) (.check rfl))
      (.map (.check (if_pos admissible.2)) (.pure _))
  | affine x y => exact read_toBytes admissible

/-- No two points have a byte string in common. -/
theorem WrittenAs.unique {p q : Point K} {bytes : Bytes} (written : p.WrittenAs bytes)
    (written' : q.WrittenAs bytes) (admissible : p.Admissible) (admissible' : q.Admissible) :
    p = q := by
  have first := read_writtenAs written admissible []
  have second := read_writtenAs written' admissible' []
  exact (Prod.mk.inj (Except.ok.inj (first.symm.trans second))).1

end Point

end MailProof
