import MailProof.Text.Pattern.Atom

/-! Sets of characters in brackets. Of a set only its height is kept: how deep brackets,
unions and operators are nested in it. -/

namespace MailProof.Pattern

/-- Height of a sequence of parts. A single part is not a sequence. -/
def heightOf : List Nat → Nat
  | [] => 0
  | [height] => height
  | heights => 1 + heights.foldl max 0

/-- Names of classes that may stand in brackets between colons. -/
def classNames : List String :=
  ["alnum", "alpha", "ascii", "blank", "cntrl", "digit", "graph", "lower", "print", "punct",
    "space", "upper", "word", "xdigit"]

/-- Read the name of a class after its opening bracket, and tell whether it is negated. -/
def readClassName : List Char → Option (Bool × List Char)
  | ':' :: '^' :: rest => (afterName rest).map (true, ·)
  | ':' :: rest => (afterName rest).map (false, ·)
  | _ => none
where
  afterName (text : List Char) : Option (List Char) :=
    let name := text.takeWhile (· ≠ ':')
    match text.drop name.length with
    | ':' :: ']' :: rest => if classNames.contains (String.ofList name) then some rest else none
    | _ => none

/-- Whether a class between colons may be used. A negated class finds more than ASCII. -/
def Mode.admitsClass (mode : Mode) (negated : Bool) : Bool :=
  if mode.unicode then !mode.ignoreCase else !negated

/-- A bracket that is still open. -/
structure Bracket where
  /-- Nothing but dashes has been read in it. -/
  isFresh : Bool := true
  /-- Height of what stands before the latest operator. -/
  left : Option Nat := none
  /-- Heights of the members after the latest operator. -/
  members : List Nat := []
  deriving DecidableEq, Repr

namespace Bracket

def height (bracket : Bracket) : Nat :=
  match bracket.left with
  | none => heightOf bracket.members
  | some left => 1 + max left (heightOf bracket.members)

def add (bracket : Bracket) (height : Nat) : Bracket :=
  { bracket with isFresh := false, members := height :: bracket.members }

/-- An operator takes all that was read as its left side. -/
def operate (bracket : Bracket) : Bracket :=
  { isFresh := false, left := some bracket.height }

/-- Dashes in front, and a closing bracket before all else, stand for themselves. -/
def takesPlainly (bracket : Bracket) (c : Char) : Bool :=
  bracket.isFresh && (c = '-' || (c = ']' && bracket.members.isEmpty))

/-- An intersection, a difference or a symmetric difference. -/
def isOperator (c next : Char) : Bool := c = next && ['&', '-', '~'].contains c

/-- Read the caret after an opening bracket, if there is one. -/
def readStart (mode : Mode) (text : List Char) : Option (List Char) :=
  match mode.skip text with
  | '^' :: rest => if mode.unicode then some rest else none
  | rest => some rest

/-- Read a character, a class of one letter, or a range. -/
def readItem (mode : Mode) (text : List Char) : Option (List Char) := do
  let (first, rest) ← Atom.readMember mode text
  if !mode.admitsMember first then none
  else
    match mode.skip rest with
    | '-' :: rest =>
      let next := mode.peek rest
      if next = some ']' ∨ next = some '-' then some ('-' :: rest)
      else
        let (last, rest) ← Atom.readMember mode (mode.skip rest)
        if Atom.isRange first last && mode.admitsMember last then some rest else none
    | rest => some rest

/-- Read up to the end of the outermost bracket, with at most `fuel` members, operators
and brackets. The result is the height of the whole. -/
def readFrom (mode : Mode) : (fuel : Nat) → Bracket → (outer : List Bracket) → List Char →
    Option (Nat × List Char)
  | 0, _, _, _ => none
  | fuel + 1, bracket, outer, text =>
    match mode.skip text with
    | [] => none
    | c :: rest =>
      if bracket.takesPlainly c then
        if mode.admitsMember (.literal c false) then
          readFrom mode fuel { bracket.add 0 with isFresh := c = '-' } outer rest
        else none
      else
        match c, outer with
        | ']', [] => some (1 + bracket.height, rest)
        | ']', parent :: outer => readFrom mode fuel (parent.add (1 + bracket.height)) outer rest
        | '[', outer =>
          match readClassName rest with
          | some (negated, rest) =>
            if mode.admitsClass negated then readFrom mode fuel (bracket.add 0) outer rest
            else none
          | none => do readFrom mode fuel {} (bracket :: outer) (← readStart mode rest)
        | c, outer =>
          match rest with
          | next :: after =>
            if isOperator c next then readFrom mode fuel bracket.operate outer after
            else do readFrom mode fuel (bracket.add 0) outer (← readItem mode (c :: rest))
          | [] => none

/-- Read what follows an opening bracket. Every member takes at least one character. -/
def read (mode : Mode) (text : List Char) : Option (Nat × List Char) := do
  readFrom mode text.length {} [] (← readStart mode text)

end Bracket

end MailProof.Pattern
