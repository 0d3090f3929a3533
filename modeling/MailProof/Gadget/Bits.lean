import MailProof.Gadget.Quantity

/-! Binary digits inside a circuit. A sum is decomposed into the digits of its canonical
value, least significant first; digits of a larger number with the same residue are
excluded by comparing them with the field order. -/

namespace MailProof.Gadget

open Synthesis

/-- Binary digits of an element. -/
def scalarBits : Nat := 254

/-- Allocate a wire that carries zero or one. -/
def bit (hint : Hint) : Synthesis Wire := do
  let wire ← derived hint
  enforce ((LinearCombination.ofConstant 1).sub (.ofWire wire)) (.ofWire wire) []
  return wire

/-- The number with the given digits, least significant first. -/
def weigh (bits : List Wire) : LinearCombination :=
  bits.zipIdx.map fun (wire, index) => (Scalar.ofNat (1 <<< index), wire)

/-- Conjunction of two bits. -/
def conjunction (x y : Wire) : Synthesis Wire := do
  let both ← derived (.product (.ofWire x) (.ofWire y))
  enforce (.ofWire x) (.ofWire y) (.ofWire both)
  return both

/-- Exclusive or of two bits. -/
def exclusiveOr (x y : Wire) : Synthesis Wire := do
  let differ ← derived (.exclusiveOr (.ofWire x) (.ofWire y))
  enforce [(1, x), (1, x)] (.ofWire y) [(1, x), (1, y), (-1, differ)]
  return differ

/-- Require that a bit is zero. -/
def enforceZero (x : Wire) : Synthesis Unit :=
  enforce ((LinearCombination.ofConstant 1).sub (.ofWire x)) (.ofConstant 1) (.ofConstant 1)

/-- Conjunction of a run of bits and what preceded it, where nothing stands for true. -/
def conjoin (preceding : Option Wire) : List Wire → Synthesis (Option Wire)
  | [] => pure preceding
  | first :: rest => do
    let all ← chain conjunction first rest
    match preceding with
    | none => return some all
    | some wire => return some (← conjunction all wire)

/-- Require that digits do not exceed a bound, most significant first. `equal` tells
whether the digits agreed with the bound up to its last zero, and `run` holds the digits
since then, over which the bound has ones. A digit over a zero of the bound must be zero
while all agree. -/
def enforceAtMost (equal : Option Wire) (run : List Wire) : List (Bool × Wire) → Synthesis Unit
  | [] => pure ()
  | (true, digit) :: rest => enforceAtMost equal (run ++ [digit]) rest
  | (false, digit) :: rest => do
    let equal ← conjoin equal run
    match equal with
    | none => enforceZero digit
    | some wire => enforceZero (← conjunction wire digit)
    enforceAtMost equal [] rest

/-- Decompose a sum into the digits of its canonical value. -/
def bits (source : LinearCombination) : Synthesis (List Wire) := do
  let digits ← each (fun index => bit (.bit source index)) (List.range scalarBits)
  enforce [] [] ((weigh digits).sub source)
  enforceAtMost none [] ((binaryDigits (scalarOrder - 1)).zip digits.reverse)
  return digits

/-- Exclusive or of the canonical values of two sums, digit by digit. The number that the
digits form may exceed the field order. -/
def mix (x y : LinearCombination) : Synthesis LinearCombination := do
  let xs ← bits x
  let ys ← bits y
  let differences ← each (fun pair : Wire × Wire => exclusiveOr pair.1 pair.2) (xs.zip ys)
  return weigh differences

end MailProof.Gadget
