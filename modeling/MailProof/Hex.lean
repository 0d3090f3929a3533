import MailProof.Bytes

/-! Hexadecimal text of byte strings. Output is lowercase; both cases are read. -/

namespace MailProof.Hex

/-- Lowercase digit of a nibble. -/
def digit (nibble : Nat) : Char := "0123456789abcdef".toList.getD nibble '0'

def ofByte (byte : UInt8) : List Char :=
  [digit (byte.toNat / 16), digit (byte.toNat % 16)]

def encode (bytes : Bytes) : String := String.ofList (bytes.flatMap ofByte)

inductive Error where
  | oddLength
  | invalidCharacter (byte : UInt8) (index : Nat)
  deriving DecidableEq, Repr

/-- A byte shown as the character with its number, in single quotes. Controls, blanks
other than the space, and the soft hyphen are written by number. -/
def quoted (byte : UInt8) : String :=
  let escaped :=
    if byte = 0 then "\\0"
    else if byte = 9 then "\\t"
    else if byte = 10 then "\\n"
    else if byte = 13 then "\\r"
    else if byte = 39 then "\\'"
    else if byte = 92 then "\\\\"
    else if byte < 32 ∨ (127 ≤ byte ∧ byte ≤ 160) ∨ byte = 173 then
      "\\u\x7b" ++ String.ofList (Nat.toDigits 16 byte.toNat) ++ "\x7d"
    else String.singleton (Char.ofNat byte.toNat)
  "'" ++ escaped ++ "'"

def Error.message : Error → String
  | .oddLength => "Odd number of digits"
  | .invalidCharacter byte index =>
    "Invalid character " ++ quoted byte ++ s!" at position {index}"

/-- Value of a hexadecimal digit of either case. -/
def nibble? (byte : UInt8) : Option UInt8 :=
  if 48 ≤ byte ∧ byte ≤ 57 then some (byte - 48)
  else if 97 ≤ byte ∧ byte ≤ 102 then some (byte - 87)
  else if 65 ≤ byte ∧ byte ≤ 70 then some (byte - 55)
  else none

private def nibbleAt (byte : UInt8) (index : Nat) : Except Error UInt8 :=
  match nibble? byte with
  | some value => .ok value
  | none => .error (.invalidCharacter byte index)

private def decodePairs : Bytes → (index : Nat) → Except Error Bytes
  | high :: low :: rest, index => do
    let high ← nibbleAt high index
    let low ← nibbleAt low (index + 1)
    return (high * 16 + low) :: (← decodePairs rest (index + 2))
  | [_], _ => .error .oddLength
  | [], _ => .ok []

/-- Read digits pairwise; an odd count is reported before any bad digit. -/
def decode (digits : Bytes) : Except Error Bytes :=
  if digits.length % 2 = 1 then .error .oddLength else decodePairs digits 0

end MailProof.Hex
