import MailProof.Error

/-! Verification emails and the box they are sent through. -/

namespace MailProof

/-- An outgoing email. -/
structure Email where
  sender : String
  senderName : String
  recipient : String
  recipientName : String
  subject : String
  body : String
  deriving DecidableEq, Repr

/-- The email that carries a verification code. -/
def verificationEmail (sender senderName recipient username code : String) : Email where
  sender := sender
  senderName := senderName
  recipient := recipient
  recipientName := username
  subject := "Verify your email at the Layer8 service"
  body := "Hello " ++ username ++ ",\n\nYour email verification code is " ++ code ++
    ".\nIt expires shortly; request a new one if it does.\n"

/-- Emails sent so far, oldest first, and the fault that stops further ones. -/
structure Outbox where
  sent : List Email := []
  fault : Option String := none
  deriving DecidableEq, Repr

namespace Outbox

def send (outbox : Outbox) (email : Email) : Except MailError Outbox :=
  match outbox.fault with
  | some detail => .error ⟨detail⟩
  | none => .ok { outbox with sent := outbox.sent ++ [email] }

/-- Most recent email to an address. -/
def lastTo (outbox : Outbox) (recipient : String) : Option Email :=
  outbox.sent.reverse.find? (·.recipient = recipient)

end Outbox

end MailProof
