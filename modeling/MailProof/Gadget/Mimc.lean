import MailProof.Gadget.Quantity
import MailProof.Mimc

/-! The MiMC hash inside a circuit. -/

namespace MailProof.Gadget

open Synthesis

/-- A round takes the fifth power of message, key and constant together. -/
def round (key : Quantity) (message : Quantity) (constant : Scalar) : Synthesis Quantity := do
  let base := (message.add key).add (.constant constant)
  let square ← base.mul base
  let fourth ← square.mul square
  fourth.mul base

def encrypt (message key : Quantity) : Synthesis Quantity := do
  return (← chain (round key) message Mimc.roundConstants).add key

/-- Carry a sum on a wire of its own. Constants need none. -/
def pin : Quantity → Synthesis Quantity
  | .constant value => pure (.constant value)
  | .combination terms => do
    let wire ← derived (.sum terms)
    Quantity.enforceEqual (.ofWire wire) (.combination terms)
    return .ofWire wire

/-- Digest after one more block. It is pinned, so that later rounds stay short. -/
def absorb (digest block : Quantity) : Synthesis Quantity := do
  let encrypted ← encrypt block digest
  pin ((digest.add encrypted).add block)

def hash (blocks : List Quantity) : Synthesis Quantity :=
  chain absorb (.constant 0) blocks

end MailProof.Gadget
