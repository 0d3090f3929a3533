import MailProof.Field

/-! The quadratic extension of the base field by a square root of minus one. -/

namespace MailProof

/-- The element `re + im · i` with `i² = -1`. -/
structure Quadratic where
  re : Base
  im : Base
  deriving DecidableEq, Repr

namespace Quadratic

instance : Zero Quadratic := ⟨⟨0, 0⟩⟩
instance : One Quadratic := ⟨⟨1, 0⟩⟩
instance : Add Quadratic := ⟨fun x y => ⟨x.re + y.re, x.im + y.im⟩⟩
instance : Sub Quadratic := ⟨fun x y => ⟨x.re - y.re, x.im - y.im⟩⟩
instance : Neg Quadratic := ⟨fun x => ⟨-x.re, -x.im⟩⟩

/-- The mixed term is taken from the product of the sums. -/
def mul (x y : Quadratic) : Quadratic :=
  let real := x.re * y.re
  let imaginary := x.im * y.im
  ⟨real - imaginary, (x.re + x.im) * (y.re + y.im) - real - imaginary⟩

instance : Mul Quadratic := ⟨mul⟩

def scale (factor : Base) (x : Quadratic) : Quadratic := ⟨factor * x.re, factor * x.im⟩

def conjugate (x : Quadratic) : Quadratic := ⟨x.re, -x.im⟩

/-- The conjugate over the norm. -/
instance : Inv Quadratic := ⟨fun x => x.conjugate.scale (x.re * x.re + x.im * x.im)⁻¹⟩

/-- The element `9 + i`, which is no square and no cube. -/
def nonresidue : Quadratic := ⟨9, 1⟩

end Quadratic

end MailProof
