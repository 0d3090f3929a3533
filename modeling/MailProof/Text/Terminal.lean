import MailProof.Text.Utf8

/-! Control sequences of terminals, and text without them. -/

namespace MailProof.Terminal

/-- The two sequences that carry parameters. -/
inductive Carrier where
  /-- It ends with its first final byte. -/
  | control
  /-- Its final byte is followed by data. -/
  | device
  deriving DecidableEq, Repr

/-- How far a sequence with parameters has been read. -/
inductive Stage where
  | entry
  | parameter
  | intermediate
  /-- It is not in order. -/
  | ignored
  deriving DecidableEq, Repr

/-- What a terminal is in the middle of. -/
inductive Phase where
  | ground
  | escape
  | escapeIntermediate
  | sequence (carrier : Carrier) (stage : Stage)
  /-- Data of a device, or a text for an application. -/
  | data
  /-- A command for the system that shows the terminal. -/
  | systemCommand
  /-- A character beyond ASCII of which `missing` bytes have not been read. -/
  | character (missing : Nat)
  deriving DecidableEq, Repr

namespace Phase

/-- Phase after a byte of an escape. -/
def afterEscape (byte : UInt8) : Phase :=
  if 0x20 ≤ byte ∧ byte ≤ 0x2F then .escapeIntermediate
  else if byte = 0x50 then .sequence .device .entry
  else if byte = 0x5B then .sequence .control .entry
  else if byte = 0x5D then .systemCommand
  else if byte = 0x58 ∨ byte = 0x5E ∨ byte = 0x5F then .data
  else if 0x30 ≤ byte ∧ byte ≤ 0x7E then .ground
  else .escape

/-- Phase after the final byte of a sequence. -/
def afterFinal : Carrier → Phase
  | .control => .ground
  | .device => .data

/-- Phase after a byte of a sequence. Parameters come before intermediate bytes, and a
private mark before all parameters. -/
def afterSequence (carrier : Carrier) (stage : Stage) (byte : UInt8) : Phase :=
  let isFinal := 0x40 ≤ byte && byte ≤ 0x7E
  let isIntermediate := 0x20 ≤ byte && byte ≤ 0x2F
  let isParameter := 0x30 ≤ byte && byte ≤ 0x3F
  let isPrivate := 0x3C ≤ byte && byte ≤ 0x3F
  match carrier, stage with
  | .control, .ignored => if isFinal then .ground else .sequence carrier .ignored
  | .device, .ignored => if byte = 0x9C then .ground else .sequence carrier .ignored
  | _, .entry =>
    if isFinal then afterFinal carrier
    else if isIntermediate then .sequence carrier .intermediate
    else if isParameter then .sequence carrier .parameter
    else .sequence carrier stage
  | _, .parameter =>
    if isFinal then afterFinal carrier
    else if isIntermediate then .sequence carrier .intermediate
    else if isPrivate then .sequence carrier .ignored
    else .sequence carrier stage
  | _, .intermediate =>
    if isFinal then afterFinal carrier
    else if isParameter then .sequence carrier .ignored
    else .sequence carrier stage

/-- Phase after a byte that is not shown. Two controls end every sequence, and an escape
begins another one. -/
def next (phase : Phase) (byte : UInt8) : Phase :=
  if byte = 0x18 ∨ byte = 0x1A then .ground
  else if byte = 0x1B then .escape
  else
    match phase with
    | .ground | .character _ => phase
    | .escape => afterEscape byte
    | .escapeIntermediate => if 0x30 ≤ byte ∧ byte ≤ 0x7E then .ground else phase
    | .sequence carrier stage => afterSequence carrier stage byte
    | .data => if byte = 0x9C then .ground else phase
    | .systemCommand => if byte = 0x07 then .ground else phase

/-- Blank controls take effect in the middle of most sequences. -/
def isBlankControl (byte : UInt8) : Bool :=
  byte = 0x09 || byte = 0x0A || byte = 0x0C || byte = 0x0D

/-- Whether a byte is shown. -/
def shows : Phase → UInt8 → Bool
  | .ground, byte =>
    (0x20 ≤ byte && byte ≤ 0x7E) || isBlankControl byte || 2 ≤ Utf8.width byte
  | .escape, byte | .escapeIntermediate, byte | .sequence .control _, byte => isBlankControl byte
  | .sequence .device _, _ | .data, _ | .systemCommand, _ => false
  | .character _, _ => true

/-- Phase after a byte that is shown. It goes on with the sequence around a blank. -/
def afterShown (phase : Phase) (byte : UInt8) : Phase :=
  match phase with
  | .character (missing + 2) => .character (missing + 1)
  | .character _ => .ground
  | phase => if 2 ≤ Utf8.width byte then .character (Utf8.width byte - 1) else phase

end Phase

/-- What a terminal shows. -/
structure Screen where
  phase : Phase := .ground
  /-- The latest byte was shown. What can be shown goes on until something cannot. -/
  isShowing : Bool := false
  /-- The bytes that are shown, latest first. -/
  shown : Bytes := []
  deriving DecidableEq, Repr

namespace Screen

def put (screen : Screen) (byte : UInt8) : Screen :=
  let visible := screen.phase.shows byte || (screen.isShowing && Phase.ground.shows byte)
  if visible then
    { phase := screen.phase.afterShown byte, isShowing := true, shown := byte :: screen.shown }
  else { screen with phase := screen.phase.next byte, isShowing := false }

end Screen

/-- The text that remains without control sequences. -/
def plain (text : String) : String :=
  let screen := (Utf8.encode text).foldl Screen.put {}
  (Utf8.decode screen.shown.reverse).toOption.getD ""

/-- A text in the colour of a warning, after which the usual one is restored. -/
def highlighted (text : String) : String := "\x1b[33m" ++ text ++ "\x1b[0m"

end MailProof.Terminal
