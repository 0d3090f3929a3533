import MailProof.Session.Store

/-! A store some of whose calls fail. -/

namespace MailProof

inductive StoreCall where
  | upsert
  | session
  | finalize
  | isVerified
  deriving DecidableEq, Repr

def StoreCall.name : StoreCall → String
  | .upsert => "upsert_session"
  | .session => "session"
  | .finalize => "finalize_verification"
  | .isVerified => "is_email_verified"

/-- A store behind a gate that refuses the listed calls. -/
structure Faulty (σ : Type) where
  inner : σ
  failing : List StoreCall := []

namespace Faulty

variable {σ : Type}

/-- The refusal of a call, or what the store behind the gate answers. -/
def guard (store : Faulty σ) (call : StoreCall) (answer : Except StorageError α) :
    Except StorageError α :=
  if call ∈ store.failing then .error (.backend (call.name ++ " failed")) else answer

instance [SessionStore σ] : SessionStore (Faulty σ) where
  upsert store session := store.guard .upsert
    ((SessionStore.upsert store.inner session).map fun inner => { store with inner })
  session store user := store.guard .session (SessionStore.session store.inner user)
  finalize store user record := store.guard .finalize
    ((SessionStore.finalize store.inner user record).map fun inner => { store with inner })
  isVerified store user := store.guard .isVerified (SessionStore.isVerified store.inner user)

end Faulty

end MailProof
