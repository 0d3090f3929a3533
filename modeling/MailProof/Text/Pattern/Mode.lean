import MailProof.Text.Blank

/-! Modes in which a search pattern is read. -/

namespace MailProof.Pattern

structure Mode where
  /-- Letters stand for both of their cases. -/
  ignoreCase : Bool := false
  /-- The pattern is about characters and not about bytes. -/
  unicode : Bool := true
  /-- Blanks and comments are no part of the pattern. -/
  spaced : Bool := false
  deriving DecidableEq, Repr

namespace Mode

/-- Letters that name a mode. Those without a field change what a pattern finds, and not
whether it is a pattern. -/
def letters : List Char := ['i', 'm', 's', 'U', 'u', 'R', 'x']

def set (mode : Mode) (letter : Char) (on : Bool) : Mode :=
  match letter with
  | 'i' => { mode with ignoreCase := on }
  | 'u' => { mode with unicode := on }
  | 'x' => { mode with spaced := on }
  | _ => mode

/-- The text after blanks and comments. A comment ends with its line. -/
def afterSpace : (inComment : Bool) → List Char → List Char
  | _, [] => []
  | true, c :: rest => afterSpace (c ≠ '\n') rest
  | false, c :: rest =>
    if isBlank c then afterSpace false rest
    else if c = '#' then afterSpace true rest
    else c :: rest

/-- The text after what is no part of the pattern. -/
def skip (mode : Mode) (text : List Char) : List Char :=
  if mode.spaced then afterSpace false text else text

/-- The next character, for a decision about the one before it. Here one mark of a
comment is passed over, but not its text. -/
def peek (mode : Mode) (text : List Char) : Option Char :=
  if mode.spaced then (pastMark (text.dropWhile isBlank)).head?.or text.head? else text.head?
where
  pastMark : List Char → List Char
    | '#' :: rest => rest.dropWhile isBlank
    | rest => rest

end Mode

end MailProof.Pattern
