import MailProof.Text.Pattern.Mode

/-! The smallest parts of a search pattern. -/

namespace MailProof.Pattern

inductive Atom where
  /-- A character, which may be written as the number of a byte. -/
  | literal (c : Char) (asByte : Bool)
  /-- Digits, blanks or word characters, or all others. -/
  | shorthand (negated : Bool)
  | dot
  /-- The start or end of a line or of the text. -/
  | anchor
  /-- The start or end of a word. -/
  | boundary
  deriving DecidableEq, Repr

namespace Mode

/-- Cases and classes are known for ASCII alone, so they need a pattern about bytes. Such
a pattern must not find a part of a character. -/
def admits (mode : Mode) : Atom → Bool
  | .literal c asByte => if mode.unicode then !mode.ignoreCase else !(asByte && 0x80 ≤ c.toNat)
  | .shorthand negated => !mode.unicode && !negated
  | .dot => mode.unicode
  | .anchor => true
  | .boundary => !mode.unicode

/-- What may stand in brackets. There a pattern about bytes is about ASCII. -/
def admitsMember (mode : Mode) : Atom → Bool
  | .literal c _ => if mode.unicode then !mode.ignoreCase else c.toNat < 0x80
  | .shorthand negated => !mode.unicode && !negated
  | .dot | .anchor | .boundary => false

end Mode

namespace Atom

/-- Meaning of a character after a backslash. -/
def escaped? : Char → Option Atom
  | 'a' => some (.literal '\x07' false)
  | 't' => some (.literal '\t' false)
  | 'n' => some (.literal '\n' false)
  | 'v' => some (.literal '\x0b' false)
  | 'f' => some (.literal '\x0c' false)
  | 'r' => some (.literal '\r' false)
  | 'd' | 's' | 'w' => some (.shorthand false)
  | 'D' | 'S' | 'W' => some (.shorthand true)
  | 'A' | 'z' => some .anchor
  | 'b' | 'B' | '<' | '>' => some .boundary
  | c => if c.isAlphanum ∨ 0x80 ≤ c.toNat then none else some (.literal c false)

/-- Number of hexadecimal digits after a letter that announces the number of a
character. -/
def numeralWidth? : Char → Option Nat
  | 'x' => some 2
  | 'u' => some 4
  | 'U' => some 8
  | _ => none

def hexDigit? (c : Char) : Option Nat :=
  if c.isDigit then some (c.toNat - 48)
  else if 'a' ≤ c ∧ c ≤ 'f' then some (c.toNat - 87)
  else if 'A' ≤ c ∧ c ≤ 'F' then some (c.toNat - 55)
  else none

/-- Read exactly `count` hexadecimal digits after `value`. -/
def readNumeral (mode : Mode) : (count value : Nat) → List Char → Option (Nat × List Char)
  | 0, value, text => some (value, text)
  | count + 1, value, text =>
    match mode.skip text with
    | [] => none
    | c :: rest => do readNumeral mode count (16 * value + (← hexDigit? c)) rest

/-- Read what follows a backslash. -/
def readEscaped (mode : Mode) : List Char → Option (Atom × List Char)
  | [] => none
  | c :: rest =>
    match numeralWidth? c with
    | none => (escaped? c).map (·, rest)
    | some width => do
      let (code, rest) ← readNumeral mode width 0 rest
      if code.isValidChar then some (.literal (Char.ofNat code) (c = 'x'), rest) else none

/-- Read one atom outside of brackets. -/
def read (mode : Mode) : List Char → Option (Atom × List Char)
  | [] => none
  | '\\' :: rest => readEscaped mode rest
  | '.' :: rest => some (.dot, rest)
  | '^' :: rest | '$' :: rest => some (.anchor, rest)
  | c :: rest => some (.literal c false, rest)

/-- Read one atom in brackets. -/
def readMember (mode : Mode) : List Char → Option (Atom × List Char)
  | [] => none
  | '\\' :: rest => readEscaped mode rest
  | c :: rest => some (.literal c false, rest)

/-- Whether two atoms are the ends of a range of characters. -/
def isRange : Atom → Atom → Bool
  | .literal first _, .literal last _ => first ≤ last
  | _, _ => false

end Atom

end MailProof.Pattern
