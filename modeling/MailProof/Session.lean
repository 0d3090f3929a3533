import MailProof.Error
import MailProof.Time

/-! Users, the sessions in which they verify an email, and the records of it. -/

namespace MailProof

structure User where
  id : UserId
  username : String
  salt : String
  deriving DecidableEq, Repr

/-- A code that was mailed to a user and waits for confirmation. -/
structure Session where
  user : UserId
  code : String
  expiresAt : Instant
  deriving DecidableEq, Repr

/-- A session is over from its expiry on. -/
def Session.isExpiredAt (session : Session) (now : Instant) : Bool :=
  session.expiresAt.nanos ≤ now.nanos

theorem Session.isExpiredAt_eq_false_iff {session : Session} {now : Instant} :
    session.isExpiredAt now = false ↔ now.nanos < session.expiresAt.nanos := by
  simp [isExpiredAt]

/-- The proof that consumed a session. -/
structure ProofRecord where
  proof : Bytes
  keyPair : KeyPairId
  consumedCode : String
  deriving DecidableEq, Repr

end MailProof
