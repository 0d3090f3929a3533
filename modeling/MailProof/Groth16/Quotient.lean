import MailProof.Synthesis

/-! The quotient polynomial of a satisfied constraint system. The left, right and output
values of the constraints are polynomials on a domain of roots of unity, and where each
product holds, left times right less output is a multiple of the polynomial that vanishes
on the domain. -/

namespace MailProof.Quotient

/-- A generator of the multiplicative group, which also shifts the domain off itself. -/
def generator : Scalar := 5

/-- A primitive root of unity of order `2 ^ levels`. -/
def rootOfUnity (levels : Nat) : Scalar := power generator ((scalarOrder - 1) >>> levels)

/-- Members at even and at odd places. -/
def deal : List α → List α × List α
  | [] => ([], [])
  | [x] => ([x], [])
  | x :: y :: rest =>
    let (even, odd) := deal rest
    (x :: even, y :: odd)

/-- Successive multiples of `first` by powers of `factor`, one for each member. -/
def scaleBy (factor : Scalar) : (first : Scalar) → List Scalar → List Scalar
  | _, [] => []
  | first, x :: rest => first * x :: scaleBy factor (first * factor) rest

/-- Values of a polynomial with `2 ^ levels` coefficients at the powers of a root of unity
of that order. -/
def evaluate (root : Scalar) : (levels : Nat) → List Scalar → List Scalar
  | 0, coefficients => coefficients
  | levels + 1, coefficients =>
    let (even, odd) := deal coefficients
    let low := evaluate (root * root) levels even
    let high := scaleBy root 1 (evaluate (root * root) levels odd)
    List.zipWith (· + ·) low high ++ List.zipWith (· - ·) low high

/-- Coefficients of the polynomial with the given values at the powers of a root. -/
def interpolate (root : Scalar) (levels : Nat) (values : List Scalar) : List Scalar :=
  (evaluate root⁻¹ levels values).map (· * (Scalar.ofNat (1 <<< levels))⁻¹)

/-- Values on the shifted domain of the polynomial with the given values on the domain. -/
def shift (levels : Nat) (values : List Scalar) : List Scalar :=
  let root := rootOfUnity levels
  let padded := values ++ List.replicate ((1 <<< levels) - values.length) 0
  evaluate root levels (scaleBy generator 1 (interpolate root levels padded))

/-- Smallest number of levels whose domain holds `count` values. -/
def levelsFor (count : Nat) : Nat := if count ≤ 1 then 0 else (count - 1).log2 + 1

/-- Coefficients of the quotient. The left values go on with the constant and the public
inputs, which keeps the public inputs independent. -/
def coefficients (constraints : List Constraint) (assignment : Assignment) : List Scalar :=
  let value := assignment.value
  let publicValues := 1 :: assignment.inputs.toList
  let levels := levelsFor (constraints.length + publicValues.length)
  let left := shift levels (constraints.map (·.left.eval value) ++ publicValues)
  let right := shift levels (constraints.map (·.right.eval value))
  let output := shift levels (constraints.map (·.output.eval value))
  let vanishing := (power generator (1 <<< levels) - 1)⁻¹
  let values := List.zipWith (fun product out => (product - out) * vanishing)
    (List.zipWith (· * ·) left right) output
  scaleBy generator⁻¹ 1 (interpolate (rootOfUnity levels) levels values)

end MailProof.Quotient
