/-! Texts of floating-point numbers. -/

namespace MailProof

/-- Digits with at most one point among them, and the text after them. -/
def readMantissa (text : List Char) : Option (List Char) :=
  let whole := text.takeWhile Char.isDigit
  match text.drop whole.length with
  | '.' :: rest =>
    let fraction := rest.takeWhile Char.isDigit
    if whole.isEmpty && fraction.isEmpty then none else some (rest.drop fraction.length)
  | rest => if whole.isEmpty then none else some rest

def afterSign : List Char → List Char
  | '+' :: rest | '-' :: rest => rest
  | text => text

/-- A power of ten after a mantissa, which may be missing. -/
def isExponent : List Char → Bool
  | [] => true
  | 'e' :: rest | 'E' :: rest =>
    let digits := afterSign rest
    !digits.isEmpty && digits.all Char.isDigit
  | _ => false

/-- A signed decimal number, infinity or no number at all, in any case. -/
def isNumber (text : String) : Bool :=
  let unsigned := afterSign text.toList
  ["inf", "infinity", "nan"].contains (String.ofList unsigned).toLower ||
    (readMantissa unsigned).any isExponent

end MailProof
