import MailProof.KeyPair
import MailProof.Session

/-! Stores of sessions and proof records, and one that keeps them in memory. -/

namespace MailProof

/-- A store of sessions. Each call is atomic and a failing call changes nothing. -/
class SessionStore (σ : Type) where
  /-- Store a session in place of the user's earlier one. -/
  upsert : σ → Session → Except StorageError σ
  session : σ → UserId → Except StorageError Session
  /-- Consume the user's session if it carries the record's code, keep the record and
  mark the user verified. -/
  finalize : σ → UserId → ProofRecord → Except StorageError σ
  isVerified : σ → UserId → Except StorageError Bool

/-- Rows keyed by user, at most one for each. -/
structure Table (α : Type) where
  rows : List (UserId × α) := []

namespace Table

def get? (table : Table α) (user : UserId) : Option α :=
  (table.rows.find? (·.1 = user)).map (·.2)

def erase (table : Table α) (user : UserId) : Table α :=
  ⟨table.rows.filter (·.1 ≠ user)⟩

def insert (table : Table α) (user : UserId) (row : α) : Table α :=
  ⟨(user, row) :: (table.erase user).rows⟩

theorem get?_erase (table : Table α) (user other : UserId) :
    (table.erase user).get? other = if other = user then none else table.get? other := by
  cases table with
  | mk rows =>
    simp only [get?, erase]
    induction rows with
    | nil => simp
    | cons row rows ih =>
      by_cases erased : row.1 = user
      · by_cases same : other = user
        · simp_all
        · have differs : row.1 ≠ other := fun h => same (h.symm.trans erased)
          simpa [erased, same, List.find?_cons, differs, Ne.symm same] using ih
      · by_cases here : row.1 = other
        · have differs : other ≠ user := fun h => erased (here.trans h)
          simp [here, differs]
        · simpa [erased, List.find?_cons, here] using ih

theorem get?_insert (table : Table α) (user other : UserId) (row : α) :
    (table.insert user row).get? other = if other = user then some row else table.get? other := by
  by_cases same : other = user
  · simp [get?, insert, same]
  · have erased := get?_erase table user other
    simp only [same, if_false] at erased ⊢
    rw [← erased]
    simp [get?, insert, Ne.symm same]

end Table

/-- Sessions, records, verified users and key pairs in memory. -/
structure MemoryStore where
  sessions : Table Session := {}
  records : Table ProofRecord := {}
  verified : Table Unit := {}
  /-- Newest first. -/
  keyPairs : List KeyPair := []

namespace MemoryStore

def session (store : MemoryStore) (user : UserId) : Except StorageError Session :=
  match store.sessions.get? user with
  | some session => .ok session
  | none => .error (.notFound "verification session")

def record (store : MemoryStore) (user : UserId) : Except StorageError ProofRecord :=
  match store.records.get? user with
  | some record => .ok record
  | none => .error (.notFound "verification proof")

def isVerified (store : MemoryStore) (user : UserId) : Bool := (store.verified.get? user).isSome

def upsert (store : MemoryStore) (session : Session) : MemoryStore :=
  { store with sessions := store.sessions.insert session.user session }

/-- The stored session must exist and carry the consumed code. -/
def finalize (store : MemoryStore) (user : UserId) (record : ProofRecord) :
    Except StorageError MemoryStore :=
  if (store.sessions.get? user).any (·.code = record.consumedCode) then
    .ok { store with
      sessions := store.sessions.erase user
      records := store.records.insert user record
      verified := store.verified.insert user () }
  else .error (.sessionConsumed user)

instance : SessionStore MemoryStore where
  upsert store session := .ok (store.upsert session)
  session := session
  finalize := finalize
  isVerified store user := .ok (store.isVerified user)

def latestKeyPair (store : MemoryStore) : Except StorageError KeyPair :=
  match store.keyPairs with
  | latest :: _ => .ok latest
  | [] => .error .noKeyPair

/-- Key pairs are numbered from one in the order of saving. -/
def saveKeyPair (store : MemoryStore) (material : KeyMaterial) : KeyPairId × MemoryStore :=
  let id := UInt64.ofNat (store.keyPairs.length + 1)
  (id, { store with keyPairs := ⟨id, material⟩ :: store.keyPairs })

instance : KeyPairStore MemoryStore where
  latest := latestKeyPair
  save store material := .ok (store.saveKeyPair material)

end MemoryStore

end MailProof
