import MailProof.Curve.Coordinate

/-! Curve points and their sums. Sums are computed in Jacobian coordinates, where
`(x, y, z)` stands for `(x / z², y / z³)` and `z = 0` for the point at infinity. -/

namespace MailProof

inductive Point (K : Type) where
  | infinity
  | affine (x y : K)
  deriving DecidableEq, Repr

structure Jacobian (K : Type) where
  x : K
  y : K
  z : K

variable {K : Type} [CoordinateField K] [DecidableEq K]

namespace Jacobian

def infinity : Jacobian K := ⟨1, 1, 0⟩

@[specialize] def double (p : Jacobian K) : Jacobian K :=
  let a := p.x * p.x
  let b := p.y * p.y
  let c := b * b
  let s := p.x + b
  let half := s * s - a - c
  let d := half + half
  let e := a + a + a
  let x := e * e - (d + d)
  let c2 := c + c
  let c4 := c2 + c2
  let yz := p.y * p.z
  ⟨x, e * (d - x) - (c4 + c4), yz + yz⟩

/-- Add a point in affine coordinates. -/
@[specialize] def add (p : Jacobian K) (q : Point K) : Jacobian K :=
  match q with
  | .infinity => p
  | .affine qx qy =>
    if p.z = 0 then ⟨qx, qy, 1⟩
    else
      let zz := p.z * p.z
      let h := qx * zz - p.x
      let r := qy * zz * p.z - p.y
      if h = 0 then
        if r = 0 then p.double else infinity
      else
        let hh := h * h
        let hhh := h * hh
        let v := p.x * hh
        let x := r * r - hhh - (v + v)
        ⟨x, r * (v - x) - p.y * hhh, p.z * h⟩

@[specialize] def toPoint (p : Jacobian K) : Point K :=
  if p.z = 0 then .infinity
  else
    let inverse := p.z⁻¹
    let square := inverse * inverse
    .affine (p.x * square) (p.y * square * inverse)

end Jacobian

namespace Point

def neg : Point K → Point K
  | .infinity => .infinity
  | .affine x y => .affine x (-y)

def isInfinity : Point K → Bool
  | .infinity => true
  | .affine .. => false

/-- The curve equation; the point at infinity is on the curve. -/
def OnCurve : Point K → Prop
  | .infinity => True
  | .affine x y => y * y = x * x * x + CoordinateField.curveConstant

instance (p : Point K) : Decidable p.OnCurve :=
  match p with
  | .infinity => inferInstanceAs (Decidable True)
  | .affine _ _ => inferInstanceAs (Decidable (_ = _))

/-- Binary digits of the largest multiple that is taken. -/
def exponentBits : Nat := 254

/-- The sum of multiples of points, doubling once for each binary digit. -/
@[specialize] def combineJacobian (terms : List (Nat × Point K)) : Jacobian K :=
  (List.range exponentBits).reverse.foldl
    (fun sum digit =>
      terms.foldl (fun sum term => if term.1.testBit digit then sum.add term.2 else sum) sum.double)
    .infinity

def combine (terms : List (Scalar × Point K)) : Point K :=
  (combineJacobian (terms.map fun term => (term.1.val, term.2))).toPoint

/-- Whether the multiple by the group order is the point at infinity. -/
def hasGroupOrder (p : Point K) : Bool := (combineJacobian [(scalarOrder, p)]).z = 0

end Point

/-- Points that take part in proofs: those on the curve, of the group order. -/
class CurveGroup (K : Type) extends CoordinateField K where
  /-- Whether a point of the curve is in the group. -/
  inGroup : Point K → Bool

/-- The curve over the base field has the group order, so all of its points qualify. -/
instance : CurveGroup Base where
  inGroup _ := true

instance : CurveGroup Quadratic where
  inGroup := Point.hasGroupOrder

end MailProof
