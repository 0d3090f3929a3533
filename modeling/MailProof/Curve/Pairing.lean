import MailProof.Curve.Point
import MailProof.Curve.Tower

/-! The ate pairing of a point over the base field with a point of the twist. An equation
between products of pairings holds for one non-degenerate bilinear pairing of the two groups
exactly when it holds for any other, so the choice of the pairing is free. -/

namespace MailProof.Pairing

/-- The trace of Frobenius less one, which counts the loop. -/
def loopCount : Nat := 6 * 4965661367192848881 * 4965661367192848881

/-- A line through points of the twist, taken back to the curve and evaluated at `(x, y)`.
The line has the given slope and passes through `(tx, ty)`. -/
def line (slope tx ty : Quadratic) (x y : Base) : Dodecic :=
  ⟨⟨⟨y, 0⟩, 0, 0⟩, ⟨-slope.scale x, slope * tx - ty, 0⟩⟩

/-- The running multiple of the twist point and the value of the lines so far. -/
structure State where
  x : Quadratic
  y : Quadratic
  value : Dodecic

/-- The third point on a line, reflected. -/
def State.follow (state : State) (slope otherX : Quadratic) (value : Dodecic) : State :=
  let x := slope * slope - state.x - otherX
  ⟨x, slope * (state.x - x) - state.y, value⟩

def double (px py : Base) (state : State) : State :=
  let square := state.x * state.x
  let slope := (square + square + square) * (state.y + state.y)⁻¹
  state.follow slope state.x
    (state.value * state.value * line slope state.x state.y px py)

def add (px py : Base) (qx qy : Quadratic) (state : State) : State :=
  let slope := (qy - state.y) * (qx - state.x)⁻¹
  state.follow slope qx (state.value * line slope state.x state.y px py)

/-- Value of the lines along the multiples of `(qx, qy)`. The first binary digit of the
count is the point itself. -/
def lines (px py : Base) (qx qy : Quadratic) : Dodecic :=
  ((binaryDigits loopCount).tail.foldl
    (fun state digit =>
      let doubled := double px py state
      if digit then add px py qx qy doubled else doubled)
    ⟨qx, qy, 1⟩).value

/-- A pair with the point at infinity contributes one. -/
def loop : Point Base × Point Quadratic → Dodecic
  | (.affine px py, .affine qx qy) => lines px py qx qy
  | _ => 1

/-- Raise to the power `(q¹² - 1) / r`. Conjugation is the power `q⁶`. -/
def finish (value : Dodecic) : Dodecic :=
  power (value.conjugate * value⁻¹) ((Nat.pow baseOrder 6 + 1) / scalarOrder)

/-- The product of the pairings of the given pairs. -/
def product (pairs : List (Point Base × Point Quadratic)) : Dodecic :=
  finish (pairs.foldl (fun value pair => value * loop pair) 1)

end MailProof.Pairing
