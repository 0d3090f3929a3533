import MailProof.Bytes
import MailProof.Curve.Point

/-! Compressed points. A point is written as its x-coordinate, little-endian, and the two
top bits of the last byte tell the point at infinity and which of the two points with that
coordinate is meant. -/

namespace MailProof

inductive PointError where
  | unexpectedEnd
  | conflictingFlags
  | invalidData
  deriving DecidableEq, Repr

def PointError.message : PointError → String
  | .unexpectedEnd =>
    "I/O error: Error \x7b kind: UnexpectedEof, message: \"failed to fill whole buffer\" \x7d"
  | .conflictingFlags => "the call expects empty flags"
  | .invalidData => "the input buffer contained invalid data"

/-- What the top bits of a compressed point say. -/
inductive PointFlag where
  | smaller
  | infinity
  | larger
  deriving DecidableEq, Repr

namespace PointFlag

def bits : PointFlag → UInt8
  | .smaller => 0x00
  | .infinity => 0x40
  | .larger => 0x80

/-- The flag in the two top bits of a byte; both bits together mean nothing. -/
def ofByte (byte : UInt8) : Except PointError PointFlag :=
  if byte < 0x40 then .ok .smaller
  else if byte < 0x80 then .ok .infinity
  else if byte < 0xC0 then .ok .larger
  else .error .conflictingFlags

end PointFlag

namespace Base

/-- Bytes of an element. -/
def width : Nat := 32

def toBytes (x : Base) : Bytes := Bytes.littleEndian width x.val

/-- The element with the given little-endian bytes, if they are below the order. -/
def ofBytes (bytes : Bytes) : Except PointError Base :=
  if canonical : bytes.toNatLE < baseOrder then .ok ⟨bytes.toNatLE, canonical⟩
  else .error .invalidData

def read : Reader PointError Base := do
  ofBytes (← Reader.take width .unexpectedEnd)

/-- Read an element with a flag in its last byte. -/
def readFlagged : Reader PointError (Base × PointFlag) := do
  let bytes ← Reader.take width .unexpectedEnd
  let last := bytes.getLastD 0
  let flag ← PointFlag.ofByte last
  let element ← ofBytes (bytes.dropLast ++ [last % 0x40])
  return (element, flag)

end Base

/-- Put a flag into the last byte. -/
def flagged (bytes : Bytes) (flag : PointFlag) : Bytes :=
  bytes.dropLast ++ [bytes.getLastD 0 ||| flag.bits]

/-- Coordinates with a compressed form. -/
class Compressible (K : Type) extends CurveGroup K where
  toBytes : K → Bytes
  readFlagged : Reader PointError (K × PointFlag)

instance : Compressible Base where
  toBytes := Base.toBytes
  readFlagged := Base.readFlagged

/-- The real part comes first, and the flag is with the imaginary part. -/
instance : Compressible Quadratic where
  toBytes x := x.re.toBytes ++ x.im.toBytes
  readFlagged := do
    let re ← Base.read
    let (im, flag) ← Base.readFlagged
    return (⟨re, im⟩, flag)

namespace Point

variable {K : Type} [Compressible K] [DecidableEq K]

/-- The compressed form; the point at infinity has coordinate zero. -/
def toBytes : Point K → Bytes
  | .infinity => flagged (Compressible.toBytes (0 : K)) .infinity
  | .affine x y =>
    flagged (Compressible.toBytes x)
      (if CoordinateField.exceedsNegative y then .larger else .smaller)

/-- The point of the curve with coordinate `x` that a flag selects. -/
def ofCoordinate (x : K) : PointFlag → Except PointError (Point K)
  | .infinity => .ok .infinity
  | flag =>
    match CoordinateField.sqrt? (x * x * x + CoordinateField.curveConstant) with
    | none => .error .invalidData
    | some y =>
      if CoordinateField.exceedsNegative y = (flag = PointFlag.larger) then .ok (.affine x y)
      else .ok (.affine x (-y))

/-- Read a point of the curve. -/
def readOnCurve : Reader PointError (Point K) := do
  let (x, flag) ← Compressible.readFlagged
  ofCoordinate x flag

/-- Pass a point of the group. -/
def check (p : Point K) : Except PointError Unit :=
  if CurveGroup.inGroup p then .ok () else .error .invalidData

def checkAll (points : List (Point K)) : Except PointError Unit := points.forM check

/-- Read a point of the group. -/
def read : Reader PointError (Point K) := do
  let p ← readOnCurve
  check p
  return p

/-- The number of points in eight bytes, and the points. -/
def listToBytes (points : List (Point K)) : Bytes :=
  Bytes.littleEndian 8 points.length ++ points.flatMap toBytes

/-- Read a list of points. Membership in the group is checked after all are read. -/
def readList : Reader PointError (List (Point K)) := do
  let length ← Reader.take 8 .unexpectedEnd
  let points ← Reader.replicate readOnCurve length.toNatLE
  checkAll points
  return points

end Point

end MailProof
