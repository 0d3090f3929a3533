import MailProof.Text.Numeral

/-! Which log events are shown. A filter is a list of directives, and of those that concern
an event the most specific one decides. -/

namespace MailProof.CommandLine

/-- How much is shown; each level includes those before it. -/
inductive LogLevel where
  | off
  | error
  | warn
  | info
  | debug
  | trace
  deriving DecidableEq, Repr

namespace LogLevel

def all : List LogLevel := [.off, .error, .warn, .info, .debug, .trace]

def name : LogLevel → String
  | .off => "off"
  | .error => "error"
  | .warn => "warn"
  | .info => "info"
  | .debug => "debug"
  | .trace => "trace"

/-- Place of a level in `all`. -/
def rank (level : LogLevel) : Nat := level.ctorIdx

/-- A level is written by its name in any case, or by its rank. -/
def ofText? (text : String) : Option LogLevel :=
  match parseWord text with
  | .ok rank => all[rank]?
  | .error _ => all.find? (·.name = text.toLower)

end LogLevel

/-- What a log line is about. -/
structure LogEvent where
  target : String
  level : LogLevel
  fields : List String
  deriving DecidableEq, Repr

/-- One rule of a filter. Without a target and a field it is about every event. -/
structure LogDirective where
  target : Option String := none
  field : Option String := none
  level : LogLevel
  deriving DecidableEq, Repr

namespace LogDirective

/-- A rule concerns the targets that begin with its own, where they have its field. -/
def concerns (directive : LogDirective) (event : LogEvent) : Bool :=
  directive.target.all (fun start => event.target.startsWith start) &&
    directive.field.all event.fields.contains

/-- The longer the target of a rule, the more specific it is. -/
def targetWeight (directive : LogDirective) : Nat :=
  match directive.target with
  | none => 0
  | some start => start.length + 1

/-- Of two rules with targets of one length, the one with a field is more specific. -/
def yieldsTo (directive other : LogDirective) : Bool :=
  directive.targetWeight < other.targetWeight ||
    (directive.targetWeight = other.targetWeight &&
      (directive.field.isNone || other.field.isSome))

end LogDirective

abbrev LogFilter := List LogDirective

namespace LogFilter

/-- Events up to a level, whatever their target. -/
def upTo (level : LogLevel) : LogFilter := [{ level }]

/-- Of two rules that concern an event, the more specific or the later one. -/
def stronger (found : Option LogDirective) (directive : LogDirective) : Option LogDirective :=
  match found with
  | none => some directive
  | some other => if other.yieldsTo directive then some directive else some other

/-- The rule that decides about an event. -/
def decisive? (filter : LogFilter) (event : LogEvent) : Option LogDirective :=
  (filter.filter (·.concerns event)).foldl stronger none

/-- Whether an event is shown; where no rule concerns it, it is not. -/
def shows (filter : LogFilter) (event : LogEvent) : Bool :=
  (filter.decisive? event).any fun directive => event.level.rank ≤ directive.level.rank

end LogFilter

end MailProof.CommandLine
