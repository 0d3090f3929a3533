import MailProof.Field
import MailProof.Text.Utf8

/-! Text as circuit input. Seven code points, four bytes each and the first lowest, fill
an element; thirty-eight elements hold a text, and missing code points count as zero.
A verification code is six hexadecimal digits. -/

namespace MailProof

inductive EncodingError where
  | inputTooLong (chars capacity : Nat)
  | invalidCodeLength (length expected : Nat)
  | invalidCodeCharacter (index : Nat)
  deriving DecidableEq, Repr

def EncodingError.message : EncodingError → String
  | .inputTooLong chars capacity =>
    s!"Input of {chars} characters exceeds the encoder capacity of {capacity}"
  | .invalidCodeLength length expected =>
    s!"Verification code must have {expected} characters, got {length}"
  | .invalidCodeCharacter index =>
    s!"Invalid character at index {index} of the verification code"

/-- Elements of a packed text. -/
def packedSize : Nat := 38

/-- Code points of an element. -/
def charsPerElement : Nat := 7

/-- Code points of the longest text that can be packed. -/
def textCapacity : Nat := packedSize * charsPerElement

/-- Digits of a verification code. -/
def codeLength : Nat := 6

abbrev PackedText := Vector Scalar packedSize

/-- Digits of a code, most significant first. A digit is a nibble when it comes from a
text or a digest, but a circuit takes any byte. -/
abbrev CodeDigits := Vector UInt8 codeLength

/-- Code points as 32-bit digits, lowest first. -/
def packPoints (points : List Char) : Nat :=
  points.foldr (fun point rest => point.toNat + UInt32.size * rest) 0

/-- The elements of a text of at most `textCapacity` code points. -/
def pack (text : String) : Except EncodingError PackedText :=
  let points := text.toList
  if points.length > textCapacity then
    .error (.inputTooLong points.length textCapacity)
  else
    .ok (Vector.ofFn fun i =>
      Scalar.ofNat (packPoints ((points.drop (charsPerElement * i.val)).take charsPerElement)))

/-- Value of a lowercase hexadecimal digit. -/
def codeDigit? (byte : UInt8) : Option UInt8 :=
  if 48 ≤ byte ∧ byte ≤ 57 then some (byte - 48)
  else if 97 ≤ byte ∧ byte ≤ 102 then some (byte - 87)
  else none

/-- Digits of a code. The length is judged in bytes and reported in characters, and a bad
digit is reported by the index of its byte. -/
def CodeDigits.ofText (code : String) : Except EncodingError CodeDigits :=
  let bytes := Utf8.encode code
  if bytes.length ≠ codeLength then
    .error (.invalidCodeLength code.length codeLength)
  else
    match bytes.findIdx? fun byte => (codeDigit? byte).isNone with
    | some index => .error (.invalidCodeCharacter index)
    | none => .ok (Vector.ofFn fun i => (codeDigit? (bytes.getD i.val 0)).getD 0)

/-- Big-endian bytes of an element. -/
def Scalar.toBytes (element : Scalar) : Bytes := Bytes.bigEndian 32 element.val

/-- The nibbles of the low twenty-four bits, most significant first. -/
def CodeDigits.ofDigest (digest : Scalar) : CodeDigits :=
  Vector.ofFn fun i => UInt8.ofNat ((digest.val >>> (4 * (codeLength - 1 - i.val))) % 16)

end MailProof
