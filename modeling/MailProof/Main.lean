import MailProof.CommandLine.Report

/-! The program: what it needs of its surroundings is read first, and the report of the
command line is printed. -/

namespace MailProof.CommandLine

/-- A random element, from more bytes than it has so that the choice is even. -/
def randomScalar : IO Scalar := do
  let bytes ← IO.getRandomBytes 48
  return Scalar.ofNat (Bytes.toNatBE bytes.toList)

/-- What stands at a path that cannot be read. -/
def unreadable : IO.Error → FileNode
  | .noFileOrDirectory .. => .absent
  | .inappropriateType _ 21 _ => .directory
  | .inappropriateType .. => .broken .notDirectory
  | .invalidArgument _ 36 _ => .broken .nameTooLong
  | .permissionDenied .. => .broken .permissionDenied
  | error => .broken (.other (toString error))

/-- What is at a path now. -/
def nodeAt (path : String) : IO FileNode := do
  try
    return .file (← IO.FS.readBinFile path).toList
  catch error => return unreadable error

def environmentOf (words : List String) : IO Environment := do
  let names := [KeyConfig.generateSetting, KeyConfig.keyFileSetting, Environment.logSetting]
  let settings ← names.mapM fun name => return (name, ← IO.getEnv name)
  let setting (name : String) := (settings.lookup name).join
  let named := match Invocation.ofArguments words with
    | .ok invocation => invocation.task.keys
    | .error _ => none
  let node ← match named.or (setting KeyConfig.keyFileSetting) with
    | some path => nodeAt path
    | none => pure .absent
  return { setting, node := fun _ => node, blinding := ⟨← randomScalar, ← randomScalar⟩ }

end MailProof.CommandLine

open MailProof.CommandLine in
/-- Print the report of the command line. -/
def main (words : List String) : IO UInt32 := do
  let report := (← environmentOf words).execute words
  report.output.forM IO.println
  report.usage.forM IO.eprintln
  return report.exitCode.toUInt32
