import MailProof.Text.Alphanumeric
import MailProof.Text.Pattern.Bracket

/-! Which texts are search patterns: sequences and alternatives of atoms, brackets and
groups, each of which may be repeated. -/

namespace MailProof.Pattern

/-- A part of a sequence. -/
inductive Part where
  /-- A change of modes, which cannot be repeated. -/
  | modes
  | term (height : Nat)
  deriving DecidableEq, Repr

def Part.height : Part → Nat
  | .modes => 0
  | .term height => height

/-- A group that is still open. The whole pattern counts as one. -/
structure Group where
  /-- The mode that is resumed at its end. -/
  resumed : Mode := {}
  /-- Heights of the alternatives before the current one. -/
  branches : List Nat := []
  /-- What was read of the current alternative, latest first. -/
  parts : List Part := []
  deriving DecidableEq, Repr

namespace Group

def height (group : Group) : Nat :=
  heightOf (heightOf (group.parts.map Part.height) :: group.branches)

def add (group : Group) (part : Part) : Group := { group with parts := part :: group.parts }

/-- Begin another alternative. -/
def branch (group : Group) : Group :=
  { group with
    branches := heightOf (group.parts.map Part.height) :: group.branches, parts := [] }

/-- Repeat the latest part. -/
def repeatLast (group : Group) : Option Group :=
  match group.parts with
  | .term height :: parts => some { group with parts := .term (1 + height) :: parts }
  | _ => none

end Group

/-- A pattern that is being read. -/
structure Reading where
  mode : Mode := {}
  group : Group := {}
  /-- The groups around the current one. -/
  outer : List Group := []
  /-- Names of groups. -/
  names : List (List Char) := []
  deriving DecidableEq, Repr

/-- Names of groups begin with a letter and go on with digits and some marks as well. -/
def isGroupName : List Char → Bool
  | [] => false
  | first :: rest =>
    (first = '_' || isAlphabetic first) &&
      rest.all fun c => ['_', '.', '[', ']'].contains c || isAlphanumeric c

/-- Read letters of modes, up to a closing parenthesis or a colon. A dash turns off those
after it. `seen` holds what was read of them, latest first. -/
def readModes (mode : Mode) (seen : List Char) : List Char → Option (Mode × Char × List Char)
  | [] => none
  | c :: rest =>
    if c = ')' ∨ c = ':' then
      if seen.head? = some '-' ∨ (c = ')' ∧ seen.isEmpty) then none else some (mode, c, rest)
    else if (c = '-' ∨ c ∈ Mode.letters) ∧ c ∉ seen then
      readModes (mode.set c ('-' ∉ seen)) (c :: seen) rest
    else none

namespace Reading

def add (reading : Reading) (part : Part) : Reading :=
  { reading with group := reading.group.add part }

/-- Open a group within which a mode is in force. -/
def openGroup (reading : Reading) (mode : Mode) : Reading :=
  { reading with
    mode, group := { resumed := reading.mode }, outer := reading.group :: reading.outer }

def openNamed (reading : Reading) (text : List Char) : Option (Reading × List Char) :=
  let name := text.takeWhile (· ≠ '>')
  match text.drop name.length with
  | [] => none
  | _ :: rest =>
    if isGroupName name ∧ name ∉ reading.names then
      some ({ reading.openGroup reading.mode with names := name :: reading.names }, rest)
    else none

/-- Read what follows an opening parenthesis. -/
def readOpening (reading : Reading) (text : List Char) : Option (Reading × List Char) :=
  match reading.mode.skip text with
  | '?' :: 'P' :: '<' :: rest | '?' :: '<' :: rest => reading.openNamed rest
  | '?' :: rest =>
    match readModes reading.mode [] rest with
    | none => none
    | some (mode, ':', rest) => some (reading.openGroup mode, rest)
    | some (mode, _, rest) => some ({ reading.add .modes with mode }, rest)
  | rest => some (reading.openGroup reading.mode, rest)

def closeGroup (reading : Reading) : Option Reading :=
  match reading.outer with
  | [] => none
  | parent :: outer => some { reading with
      mode := reading.group.resumed
      group := parent.add (.term (1 + reading.group.height))
      outer }

/-- Read one part or mark. Bounds of a repetition cannot be given in braces. -/
def step (reading : Reading) : List Char → Option (Reading × List Char)
  | '(' :: rest => reading.readOpening rest
  | ')' :: rest => reading.closeGroup.map (·, rest)
  | '|' :: rest => some ({ reading with group := reading.group.branch }, rest)
  | '[' :: rest => do
    let (height, rest) ← Bracket.read reading.mode rest
    return (reading.add (.term height), rest)
  | '?' :: rest | '*' :: rest | '+' :: rest => do
    let group ← reading.group.repeatLast
    return ({ reading with group }, withoutHesitation rest)
  | '\x7b' :: _ => none
  | text => do
    let (atom, rest) ← Atom.read reading.mode text
    if reading.mode.admits atom then return (reading.add (.term 0), rest) else none
where
  /-- A question mark after a repetition makes it prefer less. -/
  withoutHesitation : List Char → List Char
    | '?' :: rest => rest
    | rest => rest

/-- Read to the end, in at most `fuel` steps. -/
def finish : (fuel : Nat) → Reading → List Char → Option Reading
  | 0, _, _ => none
  | fuel + 1, reading, text =>
    match reading.mode.skip text with
    | [] => some reading
    | text => do
      let (reading, rest) ← reading.step text
      finish fuel reading rest

end Reading

/-- How high a pattern may be. -/
def heightLimit : Nat := 250

/-- Every step reads at least one character, and one more finds the end. -/
def isPattern (text : String) : Bool :=
  match Reading.finish (text.toList.length + 1) {} text.toList with
  | some reading => reading.outer.isEmpty && reading.group.height ≤ heightLimit
  | none => false

end MailProof.Pattern
