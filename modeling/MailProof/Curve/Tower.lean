import MailProof.Curve.Quadratic

/-! The extension of degree twelve in which pairings take their values: a cubic extension
of the quadratic one by `v` with `v³ = 9 + i`, and over it a quadratic one by `w` with
`w² = v`. -/

namespace MailProof

/-- The element `c0 + c1 v + c2 v²`. -/
structure Sextic where
  c0 : Quadratic
  c1 : Quadratic
  c2 : Quadratic
  deriving DecidableEq, Repr

namespace Sextic

instance : Zero Sextic := ⟨⟨0, 0, 0⟩⟩
instance : One Sextic := ⟨⟨1, 0, 0⟩⟩
instance : Add Sextic := ⟨fun x y => ⟨x.c0 + y.c0, x.c1 + y.c1, x.c2 + y.c2⟩⟩
instance : Sub Sextic := ⟨fun x y => ⟨x.c0 - y.c0, x.c1 - y.c1, x.c2 - y.c2⟩⟩
instance : Neg Sextic := ⟨fun x => ⟨-x.c0, -x.c1, -x.c2⟩⟩

/-- The product with `9 + i`. -/
def twist (x : Quadratic) : Quadratic :=
  let two := x + x
  let four := two + two
  let nine := four + four + x
  ⟨nine.re - x.im, nine.im + x.re⟩

def mul (x y : Sextic) : Sextic :=
  let t0 := x.c0 * y.c0
  let t1 := x.c1 * y.c1
  let t2 := x.c2 * y.c2
  ⟨t0 + twist ((x.c1 + x.c2) * (y.c1 + y.c2) - t1 - t2),
    (x.c0 + x.c1) * (y.c0 + y.c1) - t0 - t1 + twist t2,
    (x.c0 + x.c2) * (y.c0 + y.c2) - t0 - t2 + t1⟩

instance : Mul Sextic := ⟨mul⟩

/-- The product with `v`. -/
def shift (x : Sextic) : Sextic := ⟨twist x.c2, x.c0, x.c1⟩

/-- The cofactors of the multiplication matrix over its determinant. -/
instance : Inv Sextic where
  inv x :=
    let a := x.c0 * x.c0 - twist (x.c1 * x.c2)
    let b := twist (x.c2 * x.c2) - x.c0 * x.c1
    let c := x.c1 * x.c1 - x.c0 * x.c2
    let determinant := x.c0 * a + twist (x.c2 * b + x.c1 * c)
    let inverse := determinant⁻¹
    ⟨a * inverse, b * inverse, c * inverse⟩

end Sextic

/-- The element `c0 + c1 w`. -/
structure Dodecic where
  c0 : Sextic
  c1 : Sextic
  deriving DecidableEq, Repr

namespace Dodecic

instance : Zero Dodecic := ⟨⟨0, 0⟩⟩
instance : One Dodecic := ⟨⟨1, 0⟩⟩

def mul (x y : Dodecic) : Dodecic :=
  let low := x.c0 * y.c0
  let high := x.c1 * y.c1
  ⟨low + high.shift, (x.c0 + x.c1) * (y.c0 + y.c1) - low - high⟩

instance : Mul Dodecic := ⟨mul⟩

def conjugate (x : Dodecic) : Dodecic := ⟨x.c0, -x.c1⟩

/-- The conjugate over the norm. -/
instance : Inv Dodecic where
  inv x :=
    let inverse := (x.c0 * x.c0 - (x.c1 * x.c1).shift)⁻¹
    ⟨x.c0 * inverse, -(x.c1 * inverse)⟩

end Dodecic

end MailProof
