import MailProof.Field

/-! Rank-1 constraints over wires, and assignments of values to wires. -/

namespace MailProof

/-- A wire carries one element: the constant one, a public input or a witness. -/
inductive Wire where
  | one
  | input (index : Nat)
  | witness (index : Nat)
  deriving DecidableEq, Repr

/-- A weighted sum of wires; a wire may occur several times. -/
abbrev LinearCombination := List (Scalar × Wire)

namespace LinearCombination

def ofWire (wire : Wire) : LinearCombination := [(1, wire)]

def ofConstant (value : Scalar) : LinearCombination := [(value, .one)]

def scale (factor : Scalar) (terms : LinearCombination) : LinearCombination :=
  terms.map fun term => (factor * term.1, term.2)

def sub (left right : LinearCombination) : LinearCombination := left ++ right.scale (-1)

/-- The value of the sum under values of the wires. -/
def eval (terms : LinearCombination) (value : Wire → Scalar) : Scalar :=
  terms.foldr (fun term sum => term.1 * value term.2 + sum) 0

end LinearCombination

/-- The product of two sums equals a third. -/
structure Constraint where
  left : LinearCombination
  right : LinearCombination
  output : LinearCombination
  deriving DecidableEq, Repr

def Constraint.Holds (constraint : Constraint) (value : Wire → Scalar) : Prop :=
  constraint.left.eval value * constraint.right.eval value = constraint.output.eval value

instance (constraint : Constraint) (value : Wire → Scalar) :
    Decidable (constraint.Holds value) :=
  inferInstanceAs (Decidable (_ = _))

/-- Values of the public inputs and the witnesses, in the order of allocation. -/
structure Assignment where
  inputs : Array Scalar := #[]
  witnesses : Array Scalar := #[]

/-- The constant wire carries one, and a wire without a value carries zero. -/
def Assignment.value (assignment : Assignment) : Wire → Scalar
  | .one => 1
  | .input index => assignment.inputs.getD index 0
  | .witness index => assignment.witnesses.getD index 0

/-- Index of the first constraint that the values break. -/
def firstUnsatisfied (constraints : List Constraint) (value : Wire → Scalar) : Option Nat :=
  constraints.findIdx? fun constraint => ¬ constraint.Holds value

end MailProof
