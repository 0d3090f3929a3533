import MailProof.Session.Fault
import MailProof.Session.Service

/-! Operations of the service one after the other. Before any stage of a call the clock may be
set, the mail may break down or recover, and the store may begin or cease to refuse calls. -/

namespace MailProof

/-- What a stage of a call meets. -/
structure Conditions where
  clock : Instant
  /-- The fault that stops the mail. -/
  mail : Option String := none
  /-- The calls that the store refuses. -/
  refused : List StoreCall := []

namespace World

variable {σ : Type}

def conditions (world : World (Faulty σ)) : Conditions :=
  ⟨world.clock, world.outbox.fault, world.store.failing⟩

def under (world : World (Faulty σ)) (conditions : Conditions) : World (Faulty σ) where
  store := { world.store with failing := conditions.refused }
  outbox := { world.outbox with fault := conditions.mail }
  clock := conditions.clock

private theorem under_conditions (world : World (Faulty σ)) :
    world.under world.conditions = world := rfl

end World

/-- A stage that a call has passed, and the stage behind it. -/
structure Passage where
  clock : Instant
  stage : Stage
  next : Stage

/-- A call from a stage to its end. -/
structure Course (σ : Type) where
  world : World (Faulty σ)
  /-- Oldest first. -/
  passed : List Passage
  outcome : Outcome

/-- Pass the remaining stages of a call. No stage comes twice in a call, so each may meet
conditions of its own. -/
def Service.attend {σ : Type} [SessionStore σ] (service : Service) (conditions : Stage → Conditions)
    (world : World (Faulty σ)) (stage : Stage) : Course σ :=
  match _running : stage.outcome? with
  | some outcome => ⟨world, [], outcome⟩
  | none =>
    let next := service.step (world.under (conditions stage)) stage
    let course := attend service conditions next.1 next.2
    { course with passed := ⟨(conditions stage).clock, stage, next.2⟩ :: course.passed }
termination_by stage.remaining
decreasing_by exact remaining_step service _ stage ‹_›

/-- An operation with all that its answer depends on besides the store. Codes and proofs may be
random, so each operation may find another service. -/
inductive Turn where
  | request (service : Service) (conditions : Stage → Conditions) (asked : Request)
  /-- A check of an earlier proof. -/
  | verify (service : Service) (code salt : String) (proof : Bytes)
  | isVerified (refused : List StoreCall) (user : UserId)

inductive Reply where
  | ended (outcome : Outcome)
  | checked (result : Except VerificationError Unit)
  | verified (result : Except VerificationError Bool)

def Reply.Failed : Reply → Prop
  | .ended outcome => ∃ error, outcome = .error error
  | .checked result => ∃ error, result = .error error
  | .verified result => ∃ error, result = .error error

/-- An operation that has been answered. -/
structure Entry where
  turn : Turn
  passed : List Passage := []
  reply : Reply

namespace Turn

variable {σ : Type} [SessionStore σ]

def play (world : World (Faulty σ)) (turn : Turn) : World (Faulty σ) × Entry :=
  match turn with
  | .request service conditions asked =>
    let course := service.attend conditions world asked.stage
    (course.world, ⟨turn, course.passed, .ended course.outcome⟩)
  | .verify service code salt proof =>
    (world, { turn, reply := .checked (service.verifyProof code salt proof) })
  | .isVerified refused user =>
    let met := world.under { world.conditions with refused }
    (world, { turn, reply := .verified (Service.isVerified met user) })

/-- Answer operations one after the other, with a log of them, oldest first. -/
def playAll (world : World (Faulty σ)) : List Turn → World (Faulty σ) × List Entry
  | [] => (world, [])
  | turn :: turns =>
    let first := turn.play world
    let rest := playAll first.1 turns
    (rest.1, first.2 :: rest.2)

theorem play_turn (turn : Turn) (world : World (Faulty σ)) : (turn.play world).2.turn = turn := by
  cases turn <;> rfl

end Turn

namespace Faulty

variable {σ : Type}

theorem guard_eq_ok_iff {store : Faulty σ} {call : StoreCall} {answer : Except StorageError α}
    {result : α} :
    store.guard call answer = .ok result ↔ call ∉ store.failing ∧ answer = .ok result := by
  by_cases refused : call ∈ store.failing <;> simp [guard, refused]

variable [SessionStore σ]

theorem session_eq_ok_iff {store : Faulty σ} {user : UserId} {session : Session} :
    SessionStore.session store user = .ok session ↔
      .session ∉ store.failing ∧ SessionStore.session store.inner user = .ok session :=
  guard_eq_ok_iff

theorem upsert_eq_ok_iff {store later : Faulty σ} {session : Session} :
    SessionStore.upsert store session = .ok later ↔ .upsert ∉ store.failing ∧
      ∃ inner, SessionStore.upsert store.inner session = .ok inner ∧ later = { store with inner } := by
  refine guard_eq_ok_iff.trans (and_congr_right fun _ => ?_)
  cases SessionStore.upsert store.inner session <;> simp [Except.map, eq_comm]

theorem finalize_eq_ok_iff {store later : Faulty σ} {user : UserId} {record : ProofRecord} :
    SessionStore.finalize store user record = .ok later ↔ .finalize ∉ store.failing ∧
      ∃ inner, SessionStore.finalize store.inner user record = .ok inner ∧
        later = { store with inner } := by
  refine guard_eq_ok_iff.trans (and_congr_right fun _ => ?_)
  cases SessionStore.finalize store.inner user record <;> simp [Except.map, eq_comm]

theorem upsert_memory (store : Faulty MemoryStore) (session : Session) :
    SessionStore.upsert store session =
      store.guard .upsert (.ok { store with inner := store.inner.upsert session }) := rfl

theorem session_memory (store : Faulty MemoryStore) (user : UserId) :
    SessionStore.session store user = store.guard .session (store.inner.session user) := rfl

theorem finalize_memory (store : Faulty MemoryStore) (user : UserId) (record : ProofRecord) :
    SessionStore.finalize store user record = store.guard .finalize
      ((store.inner.finalize user record).map fun inner => { store with inner }) := rfl

theorem isVerified_memory (store : Faulty MemoryStore) (user : UserId) :
    SessionStore.isVerified store user = store.guard .isVerified (.ok (store.inner.isVerified user)) :=
  rfl

end Faulty

namespace Service

variable {σ : Type} [SessionStore σ] (service : Service) (conditions : Stage → Conditions)

theorem attend_done (world : World (Faulty σ)) (outcome : Outcome) :
    service.attend conditions world (.done outcome) = ⟨world, [], outcome⟩ := by
  rw [attend]
  rfl

theorem attend_running (world : World (Faulty σ)) {stage : Stage} (running : stage.outcome? = none) :
    service.attend conditions world stage =
      let next := service.step (world.under (conditions stage)) stage
      let course := service.attend conditions next.1 next.2
      { course with passed := ⟨(conditions stage).clock, stage, next.2⟩ :: course.passed } := by
  rw [attend]
  split
  · next outcome ended =>
    rw [running] at ended
    cases ended
  · rfl

/-- What every stage preserves holds at the end of a call. -/
theorem attend_invariant (Invariant : World (Faulty σ) → List Passage → Stage → Prop)
    (met : ∀ world passed stage conditions,
      Invariant world passed stage → Invariant (world.under conditions) passed stage)
    (preserved : ∀ world passed stage, stage.outcome? = none → Invariant world passed stage →
      Invariant (service.step world stage).1
        (passed ++ [⟨world.clock, stage, (service.step world stage).2⟩]) (service.step world stage).2)
    (world : World (Faulty σ)) (passed : List Passage) (stage : Stage)
    (holds : Invariant world passed stage) :
    Invariant (service.attend conditions world stage).world
      (passed ++ (service.attend conditions world stage).passed)
      (.done (service.attend conditions world stage).outcome) := by
  cases running : stage.outcome? with
  | some outcome =>
    cases stage <;> cases running
    simp only [attend_done, List.append_nil]
    exact holds
  | none =>
    have next := attend_invariant Invariant met preserved _ _ _
      (preserved _ passed stage running (met world passed stage (conditions stage) holds))
    rw [List.append_assoc] at next
    rw [attend_running service conditions world running]
    exact next
termination_by stage.remaining
decreasing_by exact remaining_step service _ stage running

/-- A call passes the same stages over two worlds, as long as every stage leads on alike in both and
keeps them related. -/
theorem attend_lockstep (Related : World (Faulty σ) → World (Faulty σ) → Stage → Prop)
    (preserved : ∀ {world other : World (Faulty σ)} {stage : Stage}, stage.outcome? = none →
      Related world other stage →
      let next := service.step (world.under (conditions stage)) stage
      let next' := service.step (other.under (conditions stage)) stage
      next.2 = next'.2 ∧ Related next.1 next'.1 next.2)
    {world other : World (Faulty σ)} {stage : Stage} (related : Related world other stage) :
    let course := service.attend conditions world stage
    let course' := service.attend conditions other stage
    course.passed = course'.passed ∧ course.outcome = course'.outcome ∧
      Related course.world course'.world (.done course.outcome) := by
  cases running : stage.outcome? with
  | some outcome =>
    cases stage <;> cases running
    simp only [attend_done]
    exact ⟨trivial, trivial, related⟩
  | none =>
    obtain ⟨next, kept⟩ := preserved running related
    have rest := attend_lockstep Related preserved kept
    simp only [attend_running service conditions _ running, ← next]
    exact ⟨congrArg _ rest.1, rest.2⟩
termination_by stage.remaining
decreasing_by exact remaining_step service _ stage running

/-- What a stage does to the world, and what it can do next. -/
inductive Effect (world : World (Faulty σ)) : World (Faulty σ) → Stage → Prop where
  | idle (next : Stage) : Effect world world next
  | mailed (message : Email) (next : Stage) : Effect world
      { world with outbox := { world.outbox with sent := world.outbox.sent ++ [message] } } next
  | stored (inner : σ) (answer : Answer) : Effect world
      { world with store := { world.store with inner } } (.done (.ok answer))

/-- A stage sends a mail at most, unless it ends the call with success. -/
theorem step_effect (world : World (Faulty σ)) (stage : Stage) :
    Effect world (service.step world stage).1 (service.step world stage).2 := by
  cases stage with
  | derive user email => simp only [step]; split <;> exact .idle _
  | deliver user email code =>
    simp only [step]
    split
    · next outbox sent =>
      simp only [Outbox.send] at sent
      split at sent
      · cases sent
      · cases sent
        exact .mailed _ _
    · exact .idle _
  | date user code => exact .idle _
  | issue session =>
    simp only [step]
    split
    · next store stored =>
      obtain ⟨_, inner, _, rfl⟩ := Faulty.upsert_eq_ok_iff.mp stored
      exact .stored inner _
    · exact .idle _
  | look user intent => exact .idle _
  | judge user session intent => exact .idle _
  | prove user email code => simp only [step]; split <;> exact .idle _
  | record user record =>
    simp only [step]
    split
    · next store stored =>
      obtain ⟨_, inner, _, rfl⟩ := Faulty.finalize_eq_ok_iff.mp stored
      exact .stored inner _
    · exact .idle _
  | done outcome => exact .idle _

/-- A stage changes neither the clock nor what stops the mail and the store. -/
theorem step_conditions (world : World (Faulty σ)) (stage : Stage) :
    (service.step world stage).1.conditions = world.conditions := by
  have effect := service.step_effect world stage
  generalize service.step world stage = after at effect ⊢
  obtain ⟨later, next⟩ := after
  cases effect <;> rfl

/-- A call that finds a pending session judges it by the clock. -/
theorem attend_pending {world : World (Faulty σ)} {user : User} {session : Session} {intent : Intent}
    (pending : SessionStore.session world.store.inner user.id = .ok session)
    (allowed : .session ∉ (conditions (.look user intent)).refused) :
    ∃ met : World (Faulty σ), met.store.inner = world.store.inner ∧
      let judged := service.attend conditions met
        (.afterJudge user session (conditions (.judge user session intent)).clock intent)
      (service.attend conditions world (.look user intent)).outcome = judged.outcome ∧
      (service.attend conditions world (.look user intent)).world = judged.world := by
  have found : SessionStore.session (world.under (conditions (.look user intent))).store user.id =
      .ok session := Faulty.session_eq_ok_iff.mpr ⟨allowed, pending⟩
  refine ⟨(world.under (conditions (.look user intent))).under
    (conditions (.judge user session intent)), rfl, ?_⟩
  rw [attend_running service conditions world (by rfl)]
  simp only [step, found, Stage.afterLook]
  rw [attend_running service conditions _ (by rfl)]
  exact ⟨rfl, rfl⟩

/-- A call that meets the same conditions throughout is served without interruption. -/
theorem attend_steady (world : World (Faulty σ)) (stage : Stage) :
    let course := service.attend (fun _ => world.conditions) world stage
    (course.world, course.outcome) = service.finish world stage := by
  cases running : stage.outcome? with
  | some outcome =>
    cases stage <;> cases running
    rw [attend_done, finish]
    rfl
  | none =>
    have rest := attend_steady (service.step world stage).1 (service.step world stage).2
    rw [step_conditions] at rest
    rw [attend_running service _ world running, finish, World.under_conditions]
    split
    · next outcome ended =>
      rw [running] at ended
      cases ended
    · exact rest
termination_by stage.remaining
decreasing_by exact remaining_step service _ stage running

end Service

end MailProof
