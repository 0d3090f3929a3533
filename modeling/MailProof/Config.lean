import MailProof.Text.Blank
import MailProof.Text.Numeral
import MailProof.Time

/-! Settings, read by name through a lookup such as the process environment. -/

namespace MailProof

inductive ConfigError where
  | missing (name : String)
  | invalid (name reason : String)
  deriving DecidableEq, Repr

def ConfigError.message : ConfigError → String
  | .missing name => "Missing required setting " ++ name
  | .invalid name reason => "Invalid value for " ++ name ++ ": " ++ reason

/-- Settings of the verification flow. -/
structure Config where
  adminEmail : String
  senderDisplayName : String
  codeValidity : Duration
  deriving DecidableEq, Repr

namespace Config

/-- The settings used where nothing but the sender address is given. -/
def ofAdminEmail (adminEmail : String) : Config where
  adminEmail := adminEmail
  senderDisplayName := "Layer8 team"
  codeValidity := .ofSeconds 120

def adminEmailSetting : String := "ADMIN_EMAIL_ADDRESS"
def senderNameSetting : String := "VERIFICATION_SENDER_NAME"
def validitySetting : String := "VERIFICATION_CODE_VALIDITY_SECONDS"

/-- A positive number of seconds; blanks around it are ignored. -/
def readValidity (raw : String) : Except ConfigError Duration :=
  match parseWord (trimBlank raw) with
  | .error error => .error (.invalid validitySetting error.message)
  | .ok 0 => .error (.invalid validitySetting "must be positive")
  | .ok seconds => .ok (.ofSeconds seconds)

/-- The sender address is required, the other settings have defaults. -/
def ofLookup (lookup : String → Option String) : Except ConfigError Config := do
  let some adminEmail := lookup adminEmailSetting | .error (.missing adminEmailSetting)
  let defaults := ofAdminEmail adminEmail
  let codeValidity ← match lookup validitySetting with
    | some raw => readValidity raw
    | none => .ok defaults.codeValidity
  return { defaults with
    senderDisplayName := (lookup senderNameSetting).getD defaults.senderDisplayName
    codeValidity }

end Config

/-- Where the keys come from at start. -/
structure KeyConfig where
  /-- Mint new keys instead of loading the latest. -/
  generateNewKeys : Bool := false
  keyFile : Option String := none
  deriving DecidableEq, Repr

namespace KeyConfig

def generateSetting : String := "GENERATE_NEW_ZK_SNARKS_KEYS"
def keyFileSetting : String := "ZK_KEY_FILE"

/-- The words `true` and `false`; blanks around them are ignored. -/
def readSwitch (raw : String) : Except ConfigError Bool :=
  match trimBlank raw with
  | "true" => .ok true
  | "false" => .ok false
  | _ => .error (.invalid generateSetting "provided string was not `true` or `false`")

def ofLookup (lookup : String → Option String) : Except ConfigError KeyConfig := do
  let generateNewKeys ← match lookup generateSetting with
    | some raw => readSwitch raw
    | none => .ok false
  return { generateNewKeys, keyFile := lookup keyFileSetting }

end KeyConfig

end MailProof
