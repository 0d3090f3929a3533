import MailProof.CommandLine.Grammar

/-! Reading of a command line, from left to right. A named value is settled when the
next named argument or the end is reached, so that an unknown argument is reported
before a fault of the value in front of it. -/

namespace MailProof.CommandLine

inductive UsageError where
  /-- Nothing was given. -/
  | nothingGiven
  | commandRequired
  | unrecognizedCommand (word : String)
  | unexpectedArgument (word : String)
  | unexpectedValue (switch : Switch) (value : String)
  | valueRequired (parameter : Parameter)
  | repeated (parameter : Parameter)
  | missing (parameters : List Parameter)
  deriving DecidableEq, Repr

/-- What ends the reading before there is a task. -/
inductive Stop where
  | help (topic : Topic)
  | version
  | refused (scope : Scope) (error : UsageError)
  deriving DecidableEq, Repr

/-- A complete command. -/
inductive Task where
  | setup (keys : Option String)
  | code (email salt : String)
  | prove (email salt code : String) (keys : Option String)
  | verify (code salt proof : String) (keys : Option String)
  deriving DecidableEq, Repr

/-- The key file that a task names. -/
def Task.keys : Task → Option String
  | .code .. => none
  | .setup keys | .prove _ _ _ keys | .verify _ _ _ keys => keys

structure Invocation where
  task : Task
  verbosity : Nat
  deriving DecidableEq, Repr

/-- The forms of an argument. -/
inductive Word where
  /-- Two dashes: nothing after them is an option. -/
  | escape
  | named (name : String) (value : Option String)
  | letters (letters : List Char)
  | plain
  deriving DecidableEq, Repr

/-- A lone dash is a plain word. -/
def Word.ofText (text : String) : Word :=
  match text.toList with
  | ['-', '-'] => .escape
  | '-' :: '-' :: rest =>
    let name := String.ofList (rest.takeWhile (· ≠ '='))
    match rest.dropWhile (· ≠ '=') with
    | [] => .named name none
    | _ :: value => .named name (some (String.ofList value))
  | '-' :: first :: rest => .letters (first :: rest)
  | _ => .plain

/-- A parameter that was named, with its value once that is read. -/
structure Pending where
  parameter : Parameter
  value : Option String
  deriving DecidableEq, Repr

/-- What has been read in a scope. -/
structure Reading where
  values : List (Parameter × String) := []
  pending : Option Pending := none
  verbosity : Nat := 0
  /-- Two dashes were read. -/
  escaped : Bool := false
  deriving DecidableEq, Repr

namespace Reading

def value? (reading : Reading) (parameter : Parameter) : Option String :=
  reading.values.lookup parameter

/-- Keep the pending value. -/
def settle (reading : Reading) : Except UsageError Reading :=
  match reading.pending with
  | none => .ok reading
  | some ⟨parameter, none⟩ => .error (.valueRequired parameter)
  | some ⟨parameter, some value⟩ =>
    if (reading.value? parameter).isSome then .error (.repeated parameter)
    else if parameter.accepts value then
      .ok { reading with values := (parameter, value) :: reading.values, pending := none }
    else .error (.valueRequired parameter)

/-- Name a parameter, with a value if that is attached to it. -/
def name (scope : Scope) (parameter : Parameter) (value : Option String) (reading : Reading) :
    Except Stop Reading := do
  let reading ← reading.settle.mapError (.refused scope)
  let reading := { reading with pending := some ⟨parameter, value⟩ }
  if value.isSome then reading.settle.mapError (.refused scope) else return reading

def throwSwitch (scope : Scope) (reading : Reading) (switch : Switch) :
    Except Stop Reading := do
  let reading ← reading.settle.mapError (.refused scope)
  match switch with
  | .verbose => return { reading with verbosity := reading.verbosity + 1 }
  | .help => .error (.help (.about scope))
  | .version => .error .version

def throwLetter (scope : Scope) (reading : Reading) (letter : Char) : Except Stop Reading :=
  match scope.switchOfLetter? letter with
  | some switch => reading.throwSwitch scope switch
  | none => .error (.refused scope (.unexpectedArgument ("-" ++ String.singleton letter)))

/-- An argument for which there is no place. Before the command it can only be meant as
one, unless two dashes in front keep a command from being one. -/
def stray (scope : Scope) (reading : Reading) (word : String) : UsageError :=
  if scope = .program ∧ ¬ (reading.escaped ∧ namesCommand word) then .unrecognizedCommand word
  else .unexpectedArgument word

def readNamed (scope : Scope) (reading : Reading) (name : String) (value : Option String) :
    Except Stop Reading :=
  match scope.parameter? name, scope.switch? name, value with
  | some parameter, _, _ => reading.name scope parameter value
  | none, some switch, none => reading.throwSwitch scope switch
  | none, some switch, some value => .error (.refused scope (.unexpectedValue switch value))
  | none, none, _ => .error (.refused scope (.unexpectedArgument ("--" ++ name)))

/-- Read one argument. -/
def read (scope : Scope) (reading : Reading) (word : String) : Except Stop Reading :=
  if reading.escaped then .error (.refused scope (reading.stray scope word))
  else
    match Word.ofText word, reading.pending with
    | .escape, _ => .ok { reading with escaped := true }
    | .named name value, _ => reading.readNamed scope name value
    | .letters letters, _ => letters.foldlM (throwLetter scope) reading
    | .plain, some ⟨parameter, none⟩ =>
      .ok { reading with pending := some ⟨parameter, some word⟩ }
    | .plain, _ => .error (.refused scope (reading.stray scope word))

/-- The required parameters of a command that have no value. -/
def missing (reading : Reading) (command : Command) : List Parameter :=
  command.parameters.filter fun parameter =>
    parameter.isRequired && (reading.value? parameter).isNone

/-- The task of a command whose required parameters have values. -/
def task (reading : Reading) (command : Command) : Task :=
  let value (parameter : Parameter) := (reading.value? parameter).getD ""
  let keys := reading.value? .keys
  match command with
  | .setup => .setup keys
  | .code => .code (value .email) (value .salt)
  | .prove => .prove (value .email) (value .salt) (value .code) keys
  | .verify => .verify (value .code) (value .salt) (value .proof) keys

end Reading

/-- Read what follows a command. -/
def readCommand (command : Command) (words : List String) : Except Stop Reading := do
  let scope := Scope.within command
  let reading ← words.foldlM (Reading.read scope) {}
  let reading ← reading.settle.mapError (.refused scope)
  match reading.missing command with
  | [] => return reading
  | parameters => .error (.refused scope (.missing parameters))

/-- Find the topic that is named by the words after the word for help. -/
def topicNamed : List String → Except Stop Topic
  | [] => .ok (.about .program)
  | word :: rest =>
    match Command.ofName? word, rest with
    | some command, [] => .ok (.about (.within command))
    | some command, next :: _ =>
      .error (.refused (.within command) (.unrecognizedCommand next))
    | none, _ =>
      if word ≠ helpWord then .error (.refused .program (.unrecognizedCommand word))
      else
        match rest with
        | [] => .ok .help
        | next :: _ => .error (.refused .program (.unrecognizedCommand next))

/-- Read the arguments before the command, and the command with what follows it. How
often more output was asked for after the command counts, if it was. -/
def readProgram : Reading → List String → Except Stop Invocation
  | reading, [] =>
    if reading.verbosity = 0 then .error (.refused .program .nothingGiven)
    else .error (.refused .program .commandRequired)
  | reading, word :: rest =>
    match Command.ofName? word with
    | some command =>
      if reading.escaped then .error (.refused .program (reading.stray .program word))
      else do
        let inner ← readCommand command rest
        let verbosity := if inner.verbosity = 0 then reading.verbosity else inner.verbosity
        return ⟨inner.task command, verbosity⟩
    | none =>
      if word = helpWord ∧ ¬ reading.escaped then do
        let topic ← topicNamed rest
        .error (.help topic)
      else do
        let reading ← reading.read .program word
        readProgram reading rest

/-- The invocation that is written on a command line. -/
def Invocation.ofArguments (words : List String) : Except Stop Invocation :=
  readProgram {} words

end MailProof.CommandLine
