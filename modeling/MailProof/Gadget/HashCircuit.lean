import MailProof.Gadget.Mimc

/-! Circuits that hash given blocks. A block is a sum of constants, public inputs and
witnesses, which are allocated in order. -/

namespace MailProof

open Synthesis

/-- A term of a block, with its value. -/
inductive Operand where
  | constant (value : Scalar)
  | input (value : Scalar)
  | witness (value : Scalar)
  deriving DecidableEq, Repr

namespace Operand

def value : Operand → Scalar
  | .constant value | .input value | .witness value => value

def allocate : Operand → Synthesis Quantity
  | .constant value => pure (.constant value)
  | .input _ => return .ofWire (← Synthesis.input)
  | .witness _ => return .ofWire (← Synthesis.secret)

def inputValue? : Operand → Option Scalar
  | .input value => some value
  | _ => none

def witnessValue? : Operand → Option Scalar
  | .witness value => some value
  | _ => none

end Operand

abbrev Block := List Operand

namespace Block

def value (block : Block) : Scalar := block.foldl (fun sum operand => sum + operand.value) 0

/-- Allocate the terms of a block and add them up. -/
def allocate (block : Block) : Synthesis Quantity :=
  chain (fun sum operand => return Quantity.add sum (← Operand.allocate operand)) (.constant 0) block

end Block

/-- Hash blocks, with an expected digest as a last public input. -/
structure HashCircuit where
  blocks : List Block
  expected : Option Scalar := none

namespace HashCircuit

/-- The digest after one more block, with the sizes reached after each. -/
def absorb (state : Quantity × List Shape) (block : Block) :
    Synthesis (Quantity × List Shape) := do
  let digest ← Gadget.absorb state.1 (← block.allocate)
  return (digest, state.2 ++ [(← measure).shape])

def circuit (circuit : HashCircuit) : Synthesis (Quantity × List Shape) := do
  let (digest, shapes) ← chain absorb (.constant 0, []) circuit.blocks
  match circuit.expected with
  | none => pure ()
  | some _ => Quantity.enforceEqual digest (.ofWire (← input))
  return (digest, shapes)

def supply (circuit : HashCircuit) : Supply where
  inputs := (circuit.blocks.flatten.filterMap Operand.inputValue? ++ circuit.expected.toList).map some
  secrets := (circuit.blocks.flatten.filterMap Operand.witnessValue?).map some

def draft (circuit : HashCircuit) : Draft (Quantity × List Shape) := circuit.circuit {}

end HashCircuit

end MailProof
