import MailProof.Curve.Quadratic

/-! Coordinate fields of the two curves. Both curves are `y² = x³ + b`: over the base
field with `b = 3`, and over its quadratic extension with `b = 3 / (9 + i)`. -/

namespace MailProof

class CoordinateField (K : Type) extends Add K, Sub K, Mul K, Neg K, Zero K, One K, Inv K where
  /-- The constant term of the curve equation. -/
  curveConstant : K
  /-- A square root, if there is one. -/
  sqrt? : K → Option K
  /-- Whether an element is the larger of itself and its negative. -/
  exceedsNegative : K → Bool

namespace Base

/-- The order is three modulo four, so a fixed power of a square is a root of it. -/
def sqrt? (x : Base) : Option Base :=
  let root := power x ((baseOrder + 1) / 4)
  if root * root = x then some root else none

def exceedsNegative (x : Base) : Bool := (-x).val < x.val

instance : CoordinateField Base where
  curveConstant := 3
  sqrt? := sqrt?
  exceedsNegative := exceedsNegative

end Base

namespace Quadratic

/-- A candidate root from two powers; it is a root of every square. -/
def sqrt? (x : Quadratic) : Option Quadratic :=
  let quarter := power x ((baseOrder - 3) / 4)
  let root := quarter * x
  let sign := quarter * root
  let candidate :=
    if sign = -1 then ⟨-root.im, root.re⟩
    else power (1 + sign) ((baseOrder - 1) / 2) * root
  if candidate * candidate = x then some candidate else none

/-- Elements are ordered by the imaginary part first. -/
def exceedsNegative (x : Quadratic) : Bool :=
  if x.im = 0 then x.re.exceedsNegative else x.im.exceedsNegative

/-- Constant term of the sextic twist. -/
def twistConstant : Quadratic := nonresidue⁻¹.scale 3

instance : CoordinateField Quadratic where
  curveConstant := twistConstant
  sqrt? := sqrt?
  exceedsNegative := exceedsNegative

end Quadratic

end MailProof
