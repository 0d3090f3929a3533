import MailProof.Building
import MailProof.Gadget.Bits
import MailProof.Gadget.Mimc

/-! Gadgets built with values at hand. Digits, products and comparisons of quantities are drafted
parts; mixing and hashing are put together here, where all values so far could be looked at. -/

namespace MailProof.Building

/-- Exclusive or of the canonical values of two wires, digit by digit. -/
def mix (x y : Wire) : Building LinearCombination := do
  let xs ← place (Gadget.bits (.ofWire x))
  let ys ← place (Gadget.bits (.ofWire y))
  let differences ← (xs.zip ys).mapM fun pair => place (Gadget.exclusiveOr pair.1 pair.2)
  return Gadget.weigh differences

/-- A round takes the fifth power of message, key and constant together. -/
def round (key message : Quantity) (constant : Scalar) : Building Quantity := do
  let base := (message.add key).add (.constant constant)
  let square ← place (base.mul base)
  let fourth ← place (square.mul square)
  place (fourth.mul base)

def encrypt (message key : Quantity) : Building Quantity := do
  return (← Mimc.roundConstants.foldlM (round key) message).add key

/-- Carry a sum on a witness of its own, which takes its value. Constants need none. -/
def pin (sum : Quantity) : Building Quantity := do
  if sum.isConstant then return sum
  let wire ← witness (← valueOf sum)
  place (Quantity.enforceEqual (.ofWire wire) sum)
  return .ofWire wire

/-- Digest after one more block. -/
def absorb (digest block : Quantity) : Building Quantity := do
  let encrypted ← encrypt block digest
  pin ((digest.add encrypted).add block)

end MailProof.Building
