import MailProof.Bytes

/-! UTF-8: the bytes of a text, and strict reading with the place of the first fault. -/

namespace MailProof.Utf8

/-- The bytes of a text. -/
def encode (text : String) : Bytes := text.toList.flatMap String.utf8EncodeChar

/-- Number of bytes of a text. -/
def size (text : List Char) : Nat := text.foldr (fun c size => c.utf8Size + size) 0

/-- Split a text after its first `count` bytes, if these end with a character. -/
def splitAt? : (count : Nat) → List Char → Option (List Char × List Char)
  | 0, text => some ([], text)
  | _ + 1, [] => none
  | count + 1, c :: rest =>
    if c.utf8Size ≤ count + 1 then
      (splitAt? (count + 1 - c.utf8Size) rest).map fun (front, rest) => (c :: front, rest)
    else none

/-- Why bytes are not UTF-8, counted from the first byte of the faulty sequence. -/
inductive Error where
  | invalid (count index : Nat)
  | incomplete (index : Nat)
  deriving DecidableEq, Repr

def Error.message : Error → String
  | .invalid count index => s!"invalid utf-8 sequence of {count} bytes from index {index}"
  | .incomplete index => s!"incomplete utf-8 byte sequence from index {index}"

/-- Bytes of the sequence that a first byte announces; `0` when none starts with it. -/
def width (first : UInt8) : Nat :=
  if first < 0x80 then 1
  else if 0xC2 ≤ first ∧ first ≤ 0xDF then 2
  else if 0xE0 ≤ first ∧ first ≤ 0xEF then 3
  else if 0xF0 ≤ first ∧ first ≤ 0xF4 then 4
  else 0

/-- Second bytes allowed after a first byte: they exclude overlong forms, surrogates
and numbers above the last code point. -/
def allowsSecond (first second : UInt8) : Bool :=
  if first = 0xE0 then 0xA0 ≤ second && second ≤ 0xBF
  else if first = 0xED then 0x80 ≤ second && second ≤ 0x9F
  else if first = 0xF0 then 0x90 ≤ second && second ≤ 0xBF
  else if first = 0xF4 then 0x80 ≤ second && second ≤ 0x8F
  else 0x80 ≤ second && second ≤ 0xBF

def isContinuation (byte : UInt8) : Bool := 0x80 ≤ byte && byte ≤ 0xBF

/-- Number of bytes of the sequence that are in order, when fewer than announced. -/
def goodPrefix (first : UInt8) : (rest : Bytes) → Nat
  | [] => 1
  | second :: rest =>
    if allowsSecond first second then 2 + (rest.takeWhile isContinuation).length else 1

/-- Code point of a well-formed sequence. -/
def codePoint (first : UInt8) (rest : Bytes) : Nat :=
  let lead := match rest.length with
    | 0 => first.toNat
    | 1 => first.toNat % 32
    | 2 => first.toNat % 16
    | _ => first.toNat % 8
  rest.foldl (fun value byte => 64 * value + byte.toNat % 64) lead

/-- Read sequences from `bytes`, whose first byte has the given index, for at most
`fuel` sequences. -/
def decodeFrom : (fuel index : Nat) → Bytes → Except Error (List Char)
  | 0, _, _ => .ok []
  | _ + 1, _, [] => .ok []
  | fuel + 1, index, first :: rest =>
    let announced := width first
    if announced = 0 then .error (.invalid 1 index)
    else
      let tail := rest.take (announced - 1)
      let good := if announced = 1 then 1 else goodPrefix first tail
      if good = announced then do
        let chars ← decodeFrom fuel (index + announced) (rest.drop (announced - 1))
        return Char.ofNat (codePoint first tail) :: chars
      else if tail.length = good - 1 then .error (.incomplete index)
      else .error (.invalid good index)

/-- Every sequence has at least one byte, so the number of bytes bounds the sequences. -/
def decode (bytes : Bytes) : Except Error String := do
  return String.ofList (← decodeFrom bytes.length 0 bytes)

end MailProof.Utf8
