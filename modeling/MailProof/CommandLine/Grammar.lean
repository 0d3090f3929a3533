/-! What can be written on the command line: commands, values with names, and switches. -/

namespace MailProof.CommandLine

def programName : String := "zk-email-verify"

def programVersion : String := "0.1.0"

def programAbout : String :=
  "Zero-knowledge proof of email verification - MiMC verification codes with Groth16 proofs"

/-- A value given under its name. -/
inductive Parameter where
  | email
  | salt
  | code
  | proof
  | keys
  deriving DecidableEq, Repr

namespace Parameter

def name : Parameter → String
  | .email => "email"
  | .salt => "salt"
  | .code => "code"
  | .proof => "proof"
  | .keys => "keys"

def description : Parameter → String
  | .email | .salt | .code => ""
  | .proof => "Proof bytes as hex"
  | .keys => "Key pair file. Defaults to $ZK_KEY_FILE"

/-- How the parameter is shown. -/
def display (parameter : Parameter) : String :=
  "--" ++ parameter.name ++ " <" ++ parameter.name.toUpper ++ ">"

/-- The key file alone may be left out. -/
def isRequired : Parameter → Bool
  | .email | .salt | .code | .proof => true
  | .keys => false

/-- Any text is a value, but a path is not empty. -/
def accepts (parameter : Parameter) (value : String) : Bool :=
  match parameter with
  | .keys => value ≠ ""
  | .email | .salt | .code | .proof => true

end Parameter

/-- An argument without a value. -/
inductive Switch where
  | verbose
  | help
  | version
  deriving DecidableEq, Repr

namespace Switch

def letter : Switch → Char
  | .verbose => 'v'
  | .help => 'h'
  | .version => 'V'

def name : Switch → String
  | .verbose => "verbose"
  | .help => "help"
  | .version => "version"

def description : Switch → String
  | .verbose => "Enable verbose output. Repeat for more verbosity (-v, -vv, -vvv)"
  | .help => "Print help"
  | .version => "Print version"

/-- How the switch is shown; one that counts has dots. -/
def display : Switch → String
  | .verbose => "--verbose..."
  | .help => "--help"
  | .version => "--version"

end Switch

inductive Command where
  | setup
  | code
  | prove
  | verify
  deriving DecidableEq, Repr

namespace Command

def all : List Command := [.setup, .code, .prove, .verify]

def name : Command → String
  | .setup => "setup"
  | .code => "code"
  | .prove => "prove"
  | .verify => "verify"

def about : Command → String
  | .setup => "Run the Groth16 ceremony and replace the key file with a new key pair"
  | .code => "Derive the verification code for an email and salt"
  | .prove => "Prove that an email derives a code and print the proof as hex"
  | .verify => "Check a hex proof against a code and salt"

/-- The values that a command takes, in the order in which they are shown. -/
def parameters : Command → List Parameter
  | .setup => [.keys]
  | .code => [.email, .salt]
  | .prove => [.email, .salt, .code, .keys]
  | .verify => [.code, .salt, .proof, .keys]

def ofName? (word : String) : Option Command := all.find? (·.name = word)

end Command

/-- The word that asks for help as a command does. -/
def helpWord : String := "help"

def helpAbout : String := "Print this message or the help of the given subcommand(s)"

/-- Whether a word stands for a command, the one for help included. -/
def namesCommand (word : String) : Bool := (Command.ofName? word).isSome || word = helpWord

/-- The part of a command line that an argument is in: before the command or after it. -/
inductive Scope where
  | program
  | within (command : Command)
  deriving DecidableEq, Repr

namespace Scope

def parameters : Scope → List Parameter
  | .program => []
  | .within command => command.parameters

/-- The version is told by the program only. -/
def switches : Scope → List Switch
  | .program => [.verbose, .help, .version]
  | .within _ => [.verbose, .help]

def parameter? (scope : Scope) (name : String) : Option Parameter :=
  scope.parameters.find? (·.name = name)

def switch? (scope : Scope) (name : String) : Option Switch :=
  scope.switches.find? (·.name = name)

def switchOfLetter? (scope : Scope) (letter : Char) : Option Switch :=
  scope.switches.find? (·.letter = letter)

end Scope

/-- What a help text is about. -/
inductive Topic where
  | about (scope : Scope)
  | help
  deriving DecidableEq, Repr

end MailProof.CommandLine
