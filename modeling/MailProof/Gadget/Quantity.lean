import MailProof.Synthesis

/-! Quantities inside a circuit. Constants are folded while the circuit is built; all
else is a sum of wires, and only a product of two sums costs a constraint. -/

namespace MailProof

inductive Quantity where
  | constant (value : Scalar)
  | combination (terms : LinearCombination)
  deriving DecidableEq, Repr

namespace Quantity

def ofWire (wire : Wire) : Quantity := .combination (.ofWire wire)

/-- The quantity as a sum of wires. -/
def terms : Quantity → LinearCombination
  | .constant value => .ofConstant value
  | .combination terms => terms

def isConstant : Quantity → Bool
  | .constant _ => true
  | .combination _ => false

def eval (quantity : Quantity) (value : Wire → Scalar) : Scalar :=
  match quantity with
  | .constant value => value
  | .combination terms => terms.eval value

/-- The value of a quantity in a synthesized system. Without values only constants are
known. -/
def valueIn (quantity : Quantity) (system : System) : Except SynthesisError Scalar :=
  match quantity, system.assignment with
  | .constant value, _ => .ok value
  | .combination terms, some assignment => .ok (terms.eval assignment.value)
  | .combination _, none => .error .assignmentMissing

def add : Quantity → Quantity → Quantity
  | .constant x, .constant y => .constant (x + y)
  | x, y => .combination (x.terms ++ y.terms)

def mul : Quantity → Quantity → Synthesis Quantity
  | .constant x, .constant y => pure (.constant (x * y))
  | .constant x, .combination y => pure (.combination (y.scale x))
  | .combination x, .constant y => pure (.combination (x.scale y))
  | .combination x, .combination y => do
    let product ← Synthesis.derived (.product x y)
    Synthesis.enforce x y (.ofWire product)
    return ofWire product

/-- Require that two quantities are equal. Of two constants nothing is required. -/
def enforceEqual : Quantity → Quantity → Synthesis Unit
  | .constant _, .constant _ => pure ()
  | x, y => Synthesis.enforce (x.terms.sub y.terms) (.ofConstant 1) []

theorem enforceEqual_of_sum {x y : Quantity} (sum : (x.isConstant && y.isConstant) = false) :
    enforceEqual x y = Synthesis.enforce (x.terms.sub y.terms) (.ofConstant 1) [] := by
  cases x with
  | constant a =>
    cases y with
    | constant b => cases sum
    | combination terms => rfl
  | combination terms => rfl

end Quantity

end MailProof
