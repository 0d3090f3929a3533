import MailProof.Session.Service

/-! Calls that run at the same time over a store in memory. Each call passes its stages one by
one, stages of different calls follow each other in any order, and the clock may advance and the
mail may break down between any two of them. A history keeps what the stages find and change in
the store. -/

namespace MailProof

inductive Action where
  /-- The session that the store holds is read. -/
  | read (user : UserId) (session : Session)
  /-- The session that was read is live, and the call goes on to prove. -/
  | cleared (user : UserId) (session : Session)
  | issued (session : Session)
  /-- A session is removed and the record that consumed it is kept. -/
  | consumed (user : UserId) (session : Session) (record : ProofRecord)
  deriving DecidableEq, Repr

structure Event where
  clock : Instant
  call : Nat
  action : Action
  deriving DecidableEq, Repr

/-- What a stage finds or changes in the store, if anything. -/
def Stage.action? (world : World MemoryStore) : Stage → Option Action
  | .look user _ => (world.store.sessions.get? user.id).map (.read user.id)
  | .judge user session (.prove ..) =>
    if session.isExpiredAt world.clock then none else some (.cleared user.id session)
  | .issue session => some (.issued session)
  | .record user kept =>
    match world.store.finalize user kept with
    | .ok _ => (world.store.sessions.get? user).map (.consumed user · kept)
    | .error _ => none
  | _ => none

structure Pool where
  world : World MemoryStore
  /-- The stages that the calls have come to, in the order of their arrival. -/
  calls : List Stage := []
  /-- Newest first. -/
  history : List Event := []

inductive Move where
  /-- A further call begins. -/
  | arrive (request : Request)
  /-- A call passes its next stage. Codes and proofs may be random, so each stage may find
  another service. -/
  | resume (service : Service) (call : Nat)
  | tick (nanos : Nat)
  | mail (fault : Option String)

namespace Pool

/-- An empty store and no calls yet. -/
def initial (outbox : Outbox) (clock : Instant) : Pool where
  world := { store := {}, outbox, clock }

def resume (pool : Pool) (service : Service) (call : Nat) : Pool :=
  match pool.calls[call]? with
  | none => pool
  | some stage =>
    let next := service.step pool.world stage
    let events := (stage.action? pool.world).map (Event.mk pool.world.clock call)
    { world := next.1
      calls := pool.calls.set call next.2
      history := events.toList ++ pool.history }

def move (pool : Pool) : Move → Pool
  | .arrive request => { pool with calls := pool.calls ++ [request.stage] }
  | .resume service call => pool.resume service call
  | .tick nanos => { pool with world.clock := ⟨pool.world.clock.nanos + nanos⟩ }
  | .mail fault => { pool with world.outbox.fault := fault }

def run (pool : Pool) (moves : List Move) : Pool := moves.foldl move pool

/-- What every move preserves holds at the end of every run. -/
theorem run_invariant {Invariant : Pool → Prop} (moves : List Move)
    (preserved : ∀ pool move, Invariant pool → Invariant (pool.move move)) {pool : Pool}
    (holds : Invariant pool) : Invariant (pool.run moves) := by
  induction moves generalizing pool with
  | nil => exact holds
  | cons move moves ih => exact ih (preserved pool move holds)

end Pool

namespace MemoryStore

/-- The change that an action makes. -/
def apply (store : MemoryStore) : Action → MemoryStore
  | .read .. | .cleared .. => store
  | .issued session => store.upsert session
  | .consumed user _ record =>
    { store with
      sessions := store.sessions.erase user
      records := store.records.insert user record
      verified := store.verified.insert user () }

theorem session_eq_ok_iff {store : MemoryStore} {user : UserId} {session : Session} :
    store.session user = .ok session ↔ store.sessions.get? user = some session := by
  cases found : store.sessions.get? user <;> simp [MemoryStore.session, found]

/-- Consuming succeeds exactly over a session with the consumed code. -/
theorem finalize_eq_ok_iff (store later : MemoryStore) (user : UserId) (record : ProofRecord) :
    store.finalize user record = .ok later ↔
      ∃ session, store.sessions.get? user = some session ∧ session.code = record.consumedCode ∧
        later = store.apply (.consumed user session record) := by
  cases found : store.sessions.get? user with
  | none => simp [finalize, found]
  | some session =>
    by_cases carries : session.code = record.consumedCode
    · simp [finalize, found, carries, apply, eq_comm]
    · simp [finalize, found, carries]

/-- Without such a session the call is refused. -/
theorem finalize_of_mismatch {store : MemoryStore} {user : UserId} {record : ProofRecord}
    (mismatch : ∀ session, store.session user = .ok session → session.code ≠ record.consumedCode) :
    store.finalize user record = .error (.sessionConsumed user) := by
  cases found : store.sessions.get? user with
  | none => simp [finalize, found]
  | some session =>
    have differs := mismatch session (session_eq_ok_iff.mpr found)
    simp [finalize, found, differs]

end MemoryStore

/-- A finalization acts exactly if it succeeds. -/
theorem Stage.action?_record {world : World MemoryStore} {user : UserId} {kept : ProofRecord}
    {action : Action} :
    (Stage.record user kept).action? world = some action ↔
      ∃ session, world.store.sessions.get? user = some session ∧
        session.code = kept.consumedCode ∧ action = .consumed user session kept := by
  simp only [Stage.action?]
  cases answer : world.store.finalize user kept with
  | ok later =>
    obtain ⟨session, found, carries, _⟩ := (MemoryStore.finalize_eq_ok_iff _ _ _ _).mp answer
    simp [found, carries, eq_comm]
  | error error =>
    refine ⟨nofun, fun ⟨session, found, carries, _⟩ => ?_⟩
    have succeeds := (MemoryStore.finalize_eq_ok_iff _ _ _ _).mpr ⟨session, found, carries, rfl⟩
    rw [answer] at succeeds
    cases succeeds

namespace Service

variable (service : Service) (world : World MemoryStore)

theorem step_clock (stage : Stage) : (service.step world stage).1.clock = world.clock := by
  cases stage <;> simp only [step] <;> split <;> rfl

/-- A stage without an action leaves the store alone. -/
theorem step_store_of_none {stage : Stage} (idle : stage.action? world = none) :
    (service.step world stage).1.store = world.store := by
  cases stage with
  | derive user email => simp only [step]; split <;> rfl
  | deliver user email code => simp only [step]; split <;> rfl
  | date user code => rfl
  | issue session => cases idle
  | look user intent => rfl
  | judge user session intent => rfl
  | prove user email code => simp only [step]; split <;> rfl
  | record user record =>
    simp only [step]
    split
    · next later kept =>
      obtain ⟨session, found, carries, _⟩ := (MemoryStore.finalize_eq_ok_iff _ _ _ _).mp kept
      have consumes := Stage.action?_record.mpr ⟨session, found, carries, rfl⟩
      rw [idle] at consumes
      cases consumes
    · rfl
  | done outcome => rfl

/-- A stage with an action changes the store as the action says. -/
theorem step_store_of_some {stage : Stage} {action : Action}
    (acts : stage.action? world = some action) :
    (service.step world stage).1.store = world.store.apply action := by
  cases stage with
  | derive user email => cases acts
  | deliver user email code => cases acts
  | date user code => cases acts
  | issue session =>
    cases acts
    rfl
  | look user intent =>
    obtain ⟨session, _, rfl⟩ := Option.map_eq_some_iff.mp acts
    rfl
  | judge user session intent =>
    cases intent with
    | confirm code => cases acts
    | confirmThenProve email code => cases acts
    | prove email code =>
      simp only [Stage.action?] at acts
      split at acts
      · cases acts
      · cases acts
        rfl
  | prove user email code => cases acts
  | record user record =>
    obtain ⟨session, found, carries, rfl⟩ := Stage.action?_record.mp acts
    have kept := (MemoryStore.finalize_eq_ok_iff _ _ _ _).mpr ⟨session, found, carries, rfl⟩
    have answer : SessionStore.finalize world.store user record = .ok _ := kept
    rw [step, answer]
  | done outcome => cases acts

end Service

end MailProof
