/-! Byte strings: fixed-width numbers in both byte orders, and readers that take
bytes off the front of an input. -/

namespace MailProof

abbrev Bytes := List UInt8

namespace Bytes

/-- The low `count` bytes of a number, least significant first. -/
def littleEndian : (count : Nat) → (n : Nat) → Bytes
  | 0, _ => []
  | count + 1, n => UInt8.ofNat (n % 256) :: littleEndian count (n / 256)

/-- The low `count` bytes of a number, most significant first. -/
def bigEndian (count n : Nat) : Bytes := (littleEndian count n).reverse

/-- The number whose base-256 digits are `bytes`, least significant first. -/
def toNatLE (bytes : Bytes) : Nat :=
  bytes.foldr (fun byte rest => byte.toNat + 256 * rest) 0

/-- The number whose base-256 digits are `bytes`, most significant first. -/
def toNatBE (bytes : Bytes) : Nat := toNatLE bytes.reverse

/-- Cut `count` consecutive blocks of `width` bytes off the front. -/
def blocks (width : Nat) : (count : Nat) → Bytes → List Bytes
  | 0, _ => []
  | count + 1, bytes => bytes.take width :: blocks width count (bytes.drop width)

end Bytes

/-- A reader consumes a front part of its input and returns a value with the rest. -/
abbrev Reader (ε : Type) := StateT Bytes (Except ε)

namespace Reader

/-- Exactly `count` bytes, or `onEnd` when the input is shorter. -/
def take (count : Nat) (onEnd : ε) : Reader ε Bytes := fun bytes =>
  let (front, rest) := bytes.splitAt count
  if front.length = count then .ok (front, rest) else .error onEnd

/-- Apply a reader `count` times, keeping the results in order. -/
def replicate (reader : Reader ε α) : (count : Nat) → Reader ε (List α)
  | 0 => pure []
  | count + 1 => do
    let first ← reader
    let rest ← replicate reader count
    return first :: rest

end Reader

end MailProof
