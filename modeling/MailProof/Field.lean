/-! Prime-field residues: the scalar field, in which codes are derived and circuits
are written, and the base field, which holds the coordinates of curve points. -/

namespace MailProof

/-- Order of the curve group. Hashes, circuit wires and exponents live modulo it. -/
def scalarOrder : Nat :=
  21888242871839275222246405745257275088548364400416034343698204186575808495617

/-- Characteristic of the coordinate field. -/
def baseOrder : Nat :=
  21888242871839275222246405745257275088696311157297823662689037894645226208583

-- Residues ask for the zero that a numeral gives.

instance : @NeZero Nat Zero.ofOfNat0 scalarOrder := ⟨by decide⟩
instance : @NeZero Nat Zero.ofOfNat0 baseOrder := ⟨by decide⟩

abbrev Scalar := Fin scalarOrder
abbrev Base := Fin baseOrder

instance : Zero Scalar := ⟨0⟩
instance : One Scalar := ⟨1⟩
instance : Zero Base := ⟨0⟩
instance : One Base := ⟨1⟩

/-- Residue of a natural number in the scalar field. -/
def Scalar.ofNat (n : Nat) : Scalar := Fin.ofNat scalarOrder n

/-- Residue of a natural number in the base field. -/
def Base.ofNat (n : Nat) : Base := Fin.ofNat baseOrder n

/-- Binary digits of a number, most significant first. -/
def binaryDigits (n : Nat) : List Bool :=
  (List.range (n.log2 + 1)).reverse.map n.testBit

/-- Square-and-multiply along binary digits, most significant first. -/
@[specialize] def powerAlong [Mul α] [One α] (base : α) (digits : List Bool) : α :=
  digits.foldl
    (fun product digit =>
      let square := product * product
      if digit then square * base else square) 1

@[specialize] def power [Mul α] [One α] (base : α) (exponent : Nat) : α :=
  powerAlong base (binaryDigits exponent)

/-- Inverses by Fermat's little theorem; zero is its own inverse. -/
instance : Inv Scalar := ⟨fun x => power x (scalarOrder - 2)⟩

instance : Inv Base := ⟨fun x => power x (baseOrder - 2)⟩

end MailProof
