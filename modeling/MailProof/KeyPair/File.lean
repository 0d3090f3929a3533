import MailProof.KeyPair
import MailProof.Text.Utf8

/-! A key pair in a file. The file holds the number of the pair, both keys and the
fingerprint; numbers and lengths take eight little-endian bytes, and what follows is
ignored. Saving replaces the file by a pair with the next number. -/

namespace MailProof

/-- Why a file could not be read or written. -/
inductive FileFault where
  | notFound
  | isDirectory
  /-- The path goes on after a file. -/
  | notDirectory
  | nameTooLong
  | permissionDenied
  | other (detail : String)
  deriving DecidableEq, Repr

def FileFault.message : FileFault → String
  | .notFound => "No such file or directory (os error 2)"
  | .isDirectory => "Is a directory (os error 21)"
  | .notDirectory => "Not a directory (os error 20)"
  | .nameTooLong => "File name too long (os error 36)"
  | .permissionDenied => "Permission denied (os error 13)"
  | .other detail => detail

/-- Why bytes are no key pair. -/
inductive KeyFormatError where
  /-- A number or a key ends early. -/
  | unexpectedEnd
  /-- The fingerprint ends early. -/
  | textEnd
  | invalidText (cause : Utf8.Error)
  | other (detail : String)
  deriving DecidableEq, Repr

def KeyFormatError.message : KeyFormatError → String
  | .unexpectedEnd => "io error: unexpected end of file"
  | .textEnd => "io error: "
  | .invalidText cause => "string is not valid utf8: " ++ cause.message
  | .other detail => detail

inductive KeyFileError where
  | file (fault : FileFault)
  | format (cause : KeyFormatError)
  deriving DecidableEq, Repr

def KeyFileError.message : KeyFileError → String
  | .file fault => "Key file I/O failed: " ++ fault.message
  | .format cause => "Key file is malformed: " ++ cause.message

namespace KeyPair

/-- Bytes under their length. -/
def framed (bytes : Bytes) : Bytes := Bytes.littleEndian 8 bytes.length ++ bytes

def toBytes (keyPair : KeyPair) : Bytes :=
  Bytes.littleEndian 8 keyPair.id.toNat ++ framed keyPair.material.provingKey ++
    framed keyPair.material.verifyingKey ++
    framed (Utf8.encode keyPair.material.circuitFingerprint)

def readNumber : Reader KeyFormatError Nat := do
  return (← Reader.take 8 .unexpectedEnd).toNatLE

def readFramed (onEnd : KeyFormatError) : Reader KeyFormatError Bytes := do
  Reader.take (← readNumber) onEnd

def readText : Reader KeyFormatError String := do
  let bytes ← readFramed .textEnd
  match Utf8.decode bytes with
  | .ok text => return text
  | .error cause => throw (.invalidText cause)

def read : Reader KeyFormatError KeyPair := do
  let id ← readNumber
  let provingKey ← readFramed .unexpectedEnd
  let verifyingKey ← readFramed .unexpectedEnd
  let circuitFingerprint ← readText
  return ⟨UInt64.ofNat id, { provingKey, verifyingKey, circuitFingerprint }⟩

def ofBytes (bytes : Bytes) : Except KeyFormatError KeyPair := do
  return (← read bytes).1

end KeyPair

/-- What is at a path. -/
inductive FileNode where
  /-- Nothing, not even a directory that could hold a file. -/
  | unreachable
  | absent
  | directory
  | file (bytes : Bytes)
  /-- Something that answers every access with a fault. -/
  | broken (fault : FileFault)
  deriving DecidableEq, Repr

namespace FileNode

def read : FileNode → Except FileFault Bytes
  | .unreachable | .absent => .error .notFound
  | .directory => .error .isDirectory
  | .file bytes => .ok bytes
  | .broken fault => .error fault

/-- Put a file with the given bytes in place. -/
def write (node : FileNode) (bytes : Bytes) : Except FileFault FileNode :=
  match node with
  | .unreachable => .error .notFound
  | .directory => .error .isDirectory
  | .absent | .file _ => .ok (.file bytes)
  | .broken fault => .error fault

def loadKeyPair (node : FileNode) : Except KeyFileError KeyPair := do
  let bytes ← node.read.mapError .file
  (KeyPair.ofBytes bytes).mapError .format

def saveKeyPair (node : FileNode) (keyPair : KeyPair) : Except KeyFileError FileNode :=
  (node.write keyPair.toBytes).mapError .file

end FileNode

/-- The file as a store of its latest key pair. -/
structure KeyFile where
  node : FileNode
  deriving DecidableEq, Repr

namespace KeyFile

def latest (file : KeyFile) : Except StorageError KeyPair :=
  match file.node.loadKeyPair with
  | .ok keyPair => .ok keyPair
  | .error (.file .notFound) => .error .noKeyPair
  | .error error => .error (.backend error.message)

/-- Number of the next pair: one above the stored one, or one. -/
def nextId (file : KeyFile) : Except StorageError KeyPairId :=
  match file.latest with
  | .ok previous => .ok (previous.id + 1)
  | .error (.notFound _) => .ok 1
  | .error error => .error error

def save (file : KeyFile) (material : KeyMaterial) : Except StorageError (KeyPairId × KeyFile) := do
  let id ← file.nextId
  let node ← (file.node.saveKeyPair ⟨id, material⟩).mapError fun error => .backend error.message
  return (id, ⟨node⟩)

instance : KeyPairStore KeyFile where
  latest := latest
  save := save

end KeyFile

end MailProof
