import MailProof.CommandLine.Arguments
import MailProof.CommandLine.Help
import MailProof.CommandLine.LogFilter.Parser
import MailProof.Config
import MailProof.KeyPair.File
import MailProof.Setup
import MailProof.Text.Terminal

/-! What the program answers to a command line: lines of output, and an exit code that is
0 after success, 1 after a failed task and 2 where the command line is not understood. The
program breaks off with 101 where parts of the log filter are not made of characters. -/

namespace MailProof.CommandLine

/-- What the program sees of its surroundings. -/
structure Environment where
  setting : String → Option String
  /-- What is at a path. -/
  node : String → FileNode
  blinding : Blinding

/-- Why a task failed. -/
inductive TaskError where
  | config (cause : ConfigError)
  | noKeyFile
  | setup (cause : SetupError)
  | loading (path : String) (cause : SetupError)
  | derivation (cause : CryptoError)
  | proving (cause : CryptoError)
  | proofText (cause : Hex.Error)
  | rejected (cause : CryptoError)
  deriving DecidableEq, Repr

end CommandLine

/-- The failure and what it wraps. -/
def CryptoError.chain (error : CryptoError) : List String :=
  error.message ::
    match error with
    | .encoding cause => [cause.message]
    | .hash cause => [cause.message]
    | _ => []

/-- The failure and what it wraps. -/
def SetupError.chain (error : SetupError) : List String :=
  error.message ::
    match error with
    | .storage cause => [cause.message]
    | _ => []

namespace CommandLine

/-- What failed, and after it the cause of each entry before. -/
def TaskError.chain : TaskError → List String
  | .config cause => ["reading key configuration", cause.message]
  | .noKeyFile =>
    ["no key file given; pass --" ++ Parameter.keys.name ++ " or set " ++ KeyConfig.keyFileSetting]
  | .setup cause => "trusted setup failed" :: cause.chain
  | .loading path cause => ("loading keys from " ++ path) :: cause.chain
  | .derivation cause => cause.chain
  | .proving cause => "proof generation failed" :: cause.chain
  | .proofText cause => ["proof is not valid hex", cause.message]
  | .rejected cause => "proof rejected" :: cause.chain

def TaskError.message (error : TaskError) : String := ": ".intercalate error.chain

namespace Environment

/-- The path of the key file; the command line comes before the environment. -/
def keyFilePath (config : KeyConfig) (keys : Option String) : Except TaskError String :=
  match keys.or config.keyFile with
  | some path => .ok path
  | none => .error .noKeyFile

/-- A ceremony is not part of the library. -/
def noCeremony : SetupError := .ceremony "no ceremony is available"

/-- The latest keys in a file. -/
def loadKeys (environment : Environment) (config : KeyConfig) (path : String) :
    Except TaskError CircuitKeys :=
  if config.generateNewKeys then .error (.loading path noCeremony)
  else (CircuitKeys.loadLatest (KeyFile.mk (environment.node path))).mapError (.loading path)

/-- Proofs under the keys of the key file. -/
def processor (environment : Environment) (config : KeyConfig) (keys : Option String) :
    Except TaskError Processor := do
  let path ← keyFilePath config keys
  return (← environment.loadKeys config path).processor environment.blinding

/-- The lines that a task prints. -/
def perform (environment : Environment) (config : KeyConfig) :
    Task → Except TaskError (List String)
  | .setup keys => do
    let _ ← keyFilePath config keys
    .error (.setup noCeremony)
  | .code email salt => do
    return [← (deriveCode email salt).mapError .derivation]
  | .prove email salt code keys => do
    let processor ← environment.processor config keys
    let (proof, _) ← (processor.generate email salt code).mapError .proving
    return [Hex.encode proof]
  | .verify code salt proof keys => do
    let processor ← environment.processor config keys
    let proof ← (Hex.decode (Utf8.encode (trimBlank proof))).mapError .proofText
    (processor.verify code salt proof).mapError .rejected
    return ["ok"]

/-- Read the settings, then perform a task. -/
def complete (environment : Environment) (task : Task) : Except TaskError (List String) := do
  let config ← (KeyConfig.ofLookup environment.setting).mapError .config
  environment.perform config task

def logSetting : String := "RUST_LOG"

/-- The filter for log lines. Asking for more output overrules the environment, and a
malformed filter counts as none. -/
def logFilter (environment : Environment) : (verbosity : Nat) → Except LogFilterError LogFilter
  | 0 =>
    match (environment.setting logSetting).map LogFilter.parse with
    | none | some (.error .malformed) => .ok (.upTo .warn)
    | some outcome => outcome
  | 1 => .ok (.upTo .info)
  | 2 => .ok (.upTo .debug)
  | _ => .ok (.upTo .trace)

end Environment

/-- What the log line of a failed task is about. -/
def failureEvent : LogEvent :=
  { target := "zk_email_verify", level := .error, fields := ["message"] }

/-- Controls that steer a terminal are written by number. -/
def visible (c : Char) : List Char :=
  let digits := Nat.toDigits 16 c.toNat
  if c = '\x07' ∨ c = '\x08' ∨ c = '\x0c' then ['\\', 'x', '0'] ++ digits
  else if c = '\x1b' ∨ c = '\x7f' then ['\\', 'x'] ++ digits
  else if 0x80 ≤ c.toNat ∧ c.toNat ≤ 0x9F then ['\\', 'u', '\x7b'] ++ digits ++ ['\x7d']
  else [c]

def errorLine (error : TaskError) : String :=
  "ERROR " ++ String.ofList (error.message.toList.flatMap visible)

structure Report where
  exitCode : UInt8
  output : List String
  /-- Lines about the use of the program. -/
  usage : List String := []
  deriving DecidableEq, Repr

namespace UsageError

open Terminal (highlighted)

/-- What is wrong, in one line or with what is missing below. -/
def lines : UsageError → List String
  | .nothingGiven => []
  | .commandRequired =>
    ["error: '" ++ programName ++ "' requires a subcommand but one was not provided"]
  | .unrecognizedCommand word => ["error: unrecognized subcommand '" ++ highlighted word ++ "'"]
  | .unexpectedArgument word => ["error: unexpected argument '" ++ highlighted word ++ "' found"]
  | .unexpectedValue switch value =>
    ["error: unexpected value '" ++ highlighted value ++ "' for '" ++ switch.display ++
      "' found; no more were expected"]
  | .valueRequired parameter =>
    ["error: a value is required for '" ++ parameter.display ++ "' but none was supplied"]
  | .repeated parameter =>
    ["error: the argument '" ++ parameter.display ++ "' cannot be used multiple times"]
  | .missing parameters =>
    "error: the following required arguments were not provided:" ::
      parameters.map fun parameter => "  " ++ parameter.display

/-- Without arguments the program explains itself. -/
def usage (scope : Scope) (error : UsageError) : List String :=
  match error with
  | .nothingGiven => (Topic.about scope).lines
  | error => error.lines ++
    ["", usageLine (.about scope), "", "For more information, try '" ++ Switch.help.display ++ "'."]

/-- The usage as it is printed, without control sequences. -/
def plainUsage (scope : Scope) (error : UsageError) : List String :=
  (Terminal.plain ("\n".intercalate (error.usage scope))).splitOn "\n"

end UsageError

def Stop.report : Stop → Report
  | .help topic => { exitCode := 0, output := topic.lines }
  | .version => { exitCode := 0, output := [versionLine] }
  | .refused scope error => { exitCode := 2, output := [], usage := error.plainUsage scope }

/-- Read a command line and do what it says. -/
def Environment.execute (environment : Environment) (words : List String) : Report :=
  match Invocation.ofArguments words with
  | .error stop => stop.report
  | .ok ⟨task, verbosity⟩ =>
    match environment.logFilter verbosity, environment.complete task with
    | .error _, _ => { exitCode := 101, output := [] }
    | .ok _, .ok lines => { exitCode := 0, output := lines }
    | .ok filter, .error error =>
      { exitCode := 1, output := if filter.shows failureEvent then [errorLine error] else [] }

end MailProof.CommandLine
