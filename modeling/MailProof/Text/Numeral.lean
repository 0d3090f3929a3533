/-! Decimal numerals of 64-bit words, with an optional plus sign. -/

namespace MailProof

inductive NumeralError where
  | empty
  | invalidDigit
  | tooLarge
  deriving DecidableEq, Repr

def NumeralError.message : NumeralError → String
  | .empty => "cannot parse integer from empty string"
  | .invalidDigit => "invalid digit found in string"
  | .tooLarge => "number too large to fit in target type"

/-- One more digit after `value`. A character that is no digit is reported before an
overflow that its place would cause. -/
def appendDigit (value : Nat) (c : Char) : Except NumeralError Nat :=
  if c < '0' ∨ '9' < c then .error .invalidDigit
  else
    let next := 10 * value + (c.toNat - 48)
    if next < UInt64.size then .ok next else .error .tooLarge

/-- Value of a numeral; leading zeros are allowed and a lone sign is not. -/
def parseWord (text : String) : Except NumeralError Nat :=
  match text.toList with
  | [] => .error .empty
  | ['+'] => .error .invalidDigit
  | '+' :: digits => digits.foldlM appendDigit 0
  | digits => digits.foldlM appendDigit 0

end MailProof
