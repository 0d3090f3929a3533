import MailProof.CommandLine.LogFilter
import MailProof.Text.Number
import MailProof.Text.Pattern
import MailProof.Text.Utf8

/-! Reading of log filters: rules separated by commas, such as `target[span{field=value}]=level`.
The form of a rule is judged without the blanks around it, but its parts are taken from the
text with them, at the places where they are without. -/

namespace MailProof.CommandLine

/-- Why a text is no filter. -/
inductive LogFilterError where
  | malformed
  /-- A part begins or ends inside of a character. -/
  | misaligned
  deriving DecidableEq, Repr

namespace LogDirective

/-- A level word is a rule for all targets; any other word is a target shown in full. -/
def ofWord (word : String) : LogDirective :=
  match LogLevel.ofText? word with
  | some level => { level }
  | none => { target := some word, level := .trace }

/-- The level after an equals sign; nothing there stands for everything. -/
def levelOf (text : String) : Except LogFilterError LogLevel :=
  if text = "" then .ok .trace
  else
    match LogLevel.ofText? text with
    | some level => .ok level
    | none => .error .malformed

/-- Characters that a rule may begin with. -/
def isInitial (c : Char) : Bool := isAlphanumeric c || c = '-' || c = ':' || c = '_'

/-- The text from a place on, which is a number of bytes. -/
def after (text : List Char) (place : Nat) : Except LogFilterError (List Char) :=
  match Utf8.splitAt? place text with
  | some (_, rest) => .ok rest
  | none => .error .misaligned

/-- The part of a given number of bytes from a place on. -/
def partAt (text : List Char) (place size : Nat) : Except LogFilterError String := do
  match Utf8.splitAt? size (← after text place) with
  | some (part, _) => return String.ofList part
  | none => throw .misaligned

/-- Whether a text can be asked for as the value of a field. -/
def isFieldValue (text : String) : Bool := isNumber text || Pattern.isPattern text

/-- Read what a rule asks of fields: a name, or none if it asks for a value. -/
def readField (text : String) : Except LogFilterError (Option String) :=
  let chars := text.toList
  let name := chars.takeWhile (· ≠ '=')
  match chars.drop name.length with
  | [] => if name.isEmpty then .error .malformed else .ok (some (String.ofList name))
  | _ :: value =>
    if isFieldValue (String.ofList (value.takeWhile (· ≠ '='))) then .ok none
    else .error .malformed

/-- Read the level at the end of a rule. -/
def readEnd (text : List Char) (place : Nat) : (rest : List Char) → Except LogFilterError LogLevel
  | [] => .ok .trace
  | '=' :: _ => do levelOf (String.ofList (← after text (place + 1)))
  | _ => .error .malformed

/-- Read a span after its opening bracket, and what follows. Rules about named spans or
values of fields hold for no event outside of spans and are left out. -/
def readSpan (text : List Char) (target : Option String) (place : Nat) (rest : List Char) :
    Except LogFilterError (List LogDirective) := do
  let name := rest.takeWhile fun c => c ≠ ']' ∧ c ≠ '\x7b'
  let nameSize := Utf8.size name
  match rest.drop name.length with
  | [] => throw .malformed
  | ']' :: rest =>
    let _ ← partAt text place nameSize
    let _ ← readEnd text (place + nameSize + 1) rest
    return []
  | _ :: rest =>
    let span ← partAt text place nameSize
    let asked := rest.takeWhile (· ≠ '\x7d')
    let askedSize := Utf8.size asked
    match rest.drop asked.length with
    | _ :: ']' :: rest =>
      let field ← readField (← partAt text (place + nameSize + 1) askedSize)
      let level ← readEnd text (place + nameSize + askedSize + 3) rest
      match field with
      | some field => return if span = "" then [{ target, field, level }] else []
      | none => return []
    | _ :: _ =>
      let _ ← partAt text (place + nameSize + 1) askedSize
      throw .malformed
    | [] => throw .malformed

/-- Read a rule. -/
def parse (text : String) : Except LogFilterError (List LogDirective) := do
  let chars := text.toList
  match (trimBlank text).toList with
  | [] => throw .malformed
  | '[' :: rest => readSpan chars none 1 rest
  | first :: rest =>
    if isInitial first then
      let front := first :: rest.takeWhile fun c => c ≠ '=' ∧ c ≠ '['
      let frontSize := Utf8.size front
      match (first :: rest).drop front.length with
      | [] => return [ofWord text]
      | mark :: rest =>
        let target ← partAt chars 0 frontSize
        if mark = '[' then readSpan chars target (frontSize + 1) rest
        else
          let level ← levelOf (String.ofList (← after chars (frontSize + 1)))
          return [{ target, level }]
    else throw .malformed

end LogDirective

/-- Read the rules of a filter in order; the first fault decides. -/
def LogFilter.parse (text : String) : Except LogFilterError LogFilter := do
  let words := (text.splitOn ",").filter (· ≠ "")
  return (← words.mapM LogDirective.parse).flatten

end MailProof.CommandLine
