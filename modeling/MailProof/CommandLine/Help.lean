import MailProof.CommandLine.Grammar

/-! Texts that tell how the program is used. -/

namespace MailProof.CommandLine

/-- How a topic is written, after the word that announces it. -/
def Topic.usage : Topic → String
  | .about .program => programName ++ " [OPTIONS] <COMMAND>"
  | .about (.within command) =>
    let required := command.parameters.filter (·.isRequired)
    " ".intercalate ([programName, command.name, "[OPTIONS]"] ++ required.map (·.display))
  | .help => programName ++ " " ++ helpWord ++ " [COMMAND]..."

def usageLine (topic : Topic) : String := "Usage: " ++ topic.usage

/-- Two columns, the second after the widest entry of the first. -/
def columns (rows : List (String × String)) : List String :=
  let width := rows.foldl (fun width row => max width row.1.length) 0
  rows.map fun row =>
    "  " ++ row.1 ++ String.ofList (List.replicate (width - row.1.length + 2) ' ') ++ row.2

def Parameter.row (parameter : Parameter) : String × String :=
  ("    " ++ parameter.display, parameter.description)

def Switch.row (switch : Switch) : String × String :=
  ("-" ++ String.singleton switch.letter ++ ", " ++ switch.display, switch.description)

def Command.row (command : Command) : String × String := (command.name, command.about)

/-- The switch that every command shares is shown after its first parameter. -/
def Scope.rows (scope : Scope) : List (String × String) :=
  match scope.parameters.map Parameter.row, scope.switches.map Switch.row with
  | first :: rest, shared :: others => first :: shared :: rest ++ others
  | parameters, switches => parameters ++ switches

def Scope.about : Scope → String
  | .program => programAbout
  | .within command => command.about

def Scope.commandLines : Scope → List String
  | .program =>
    "Commands:" :: columns (Command.all.map Command.row ++ [(helpWord, helpAbout)]) ++ [""]
  | .within _ => []

/-- Lines of a help text. -/
def Topic.lines : Topic → List String
  | .about scope =>
    [scope.about, "", usageLine (.about scope), ""] ++ scope.commandLines ++
      "Options:" :: columns scope.rows
  | .help =>
    [helpAbout, "", usageLine .help, "", "Arguments:",
      "  [COMMAND]...  Print help for the subcommand(s)"]

def versionLine : String := programName ++ " " ++ programVersion

end MailProof.CommandLine
