import MailProof.Proofs.Session.Consumption
import MailProof.Proofs.Session.Sequence

/-! Failed operations. Whatever fails, and wherever in a call, the store is left as it was, so a
failed operation may be struck out of a run and a call may be repeated. -/

namespace MailProof

namespace Service

variable {σ : Type} [SessionStore σ] (service : Service)

/-- Only a stage that ends the call with success changes the store. -/
theorem step_inner (world : World (Faulty σ)) (stage : Stage) :
    (service.step world stage).1.store.inner = world.store.inner ∨
      ∃ answer, (service.step world stage).2 = .done (.ok answer) := by
  have effect := service.step_effect world stage
  generalize service.step world stage = after at effect ⊢
  obtain ⟨later, next⟩ := after
  cases effect with
  | idle => exact .inl rfl
  | mailed message => exact .inl rfl
  | stored inner answer => exact .inr ⟨answer, rfl⟩

private theorem attend_inner (conditions : Stage → Conditions) (world : World (Faulty σ))
    (stage : Stage)
    {error : VerificationError} (failed : (service.attend conditions world stage).outcome = .error error) :
    (service.attend conditions world stage).world.store.inner = world.store.inner := by
  have kept := service.attend_invariant conditions
    (fun reached _ stage =>
      reached.store.inner = world.store.inner ∨ ∃ answer, stage = .done (.ok answer))
    (fun _ _ _ _ holds => holds)
    (fun reached _ stage running holds => by
      have same : reached.store.inner = world.store.inner := by
        rcases holds with same | ⟨answer, rfl⟩
        · exact same
        · cases running
      rw [← same]
      exact service.step_inner reached stage)
    world [] stage (.inl rfl)
  rcases kept with same | ⟨answer, ended⟩
  · exact same
  · rw [failed] at ended
    cases ended

/-- A stage depends on the world through the store and the conditions alone. -/
theorem step_congr {world other : World (Faulty σ)} (store : world.store = other.store)
    (conditions : world.conditions = other.conditions) (stage : Stage) :
    (service.step world stage).2 = (service.step other stage).2 ∧
      (service.step world stage).1.store = (service.step other stage).1.store := by
  have clock : world.clock = other.clock := congrArg Conditions.clock conditions
  have fault : world.outbox.fault = other.outbox.fault := congrArg Conditions.mail conditions
  cases stage with
  | derive user email => simp only [step]; split <;> exact ⟨rfl, store⟩
  | deliver user email code =>
    cases stopped : other.outbox.fault <;>
      simp [step, Outbox.send, fault, stopped, store]
  | date user code => simp [step, clock, store]
  | issue session =>
    simp only [step, store]
    split <;> simp [store]
  | look user intent => simp [step, store]
  | judge user session intent => simp [step, clock, store]
  | prove user email code => simp only [step]; split <;> exact ⟨rfl, store⟩
  | record user record =>
    simp only [step, store]
    split <;> simp [store]
  | done outcome => exact ⟨rfl, store⟩

/-- A call depends on the world through what the store holds alone. -/
theorem attend_congr (conditions : Stage → Conditions) {world other : World (Faulty σ)}
    (inner : world.store.inner = other.store.inner) (stage : Stage) :
    (service.attend conditions world stage).passed = (service.attend conditions other stage).passed ∧
    (service.attend conditions world stage).outcome =
      (service.attend conditions other stage).outcome ∧
    (service.attend conditions world stage).world.store.inner =
      (service.attend conditions other stage).world.store.inner := by
  refine service.attend_lockstep conditions
    (fun reached met _ => reached.store.inner = met.store.inner) ?_ inner
  intro world other stage _ inner
  have store : (world.under (conditions stage)).store = (other.under (conditions stage)).store := by
    simp only [World.under, inner]
  obtain ⟨next, kept⟩ := service.step_congr store rfl stage
  exact ⟨next, congrArg Faulty.inner kept⟩

end Service

namespace Turn

variable {σ : Type} [SessionStore σ]

/-- A failed operation leaves the store as it was. -/
theorem play_inner {turn : Turn} {world : World (Faulty σ)}
    (failed : (turn.play world).2.reply.Failed) :
    (turn.play world).1.store.inner = world.store.inner := by
  cases turn with
  | request service conditions asked =>
    obtain ⟨error, ended⟩ := failed
    exact service.attend_inner conditions world asked.stage ended
  | verify service code salt proof => rfl
  | isVerified refused user => rfl

private theorem play_congr (turn : Turn) {world other : World (Faulty σ)}
    (inner : world.store.inner = other.store.inner) :
    (turn.play world).2 = (turn.play other).2 ∧
      (turn.play world).1.store.inner = (turn.play other).1.store.inner := by
  cases turn with
  | request service conditions asked =>
    obtain ⟨passed, outcome, kept⟩ := service.attend_congr conditions inner asked.stage
    simp only [play, passed, outcome]
    exact ⟨trivial, kept⟩
  | verify service code salt proof => exact ⟨rfl, inner⟩
  | isVerified refused user =>
    refine ⟨?_, inner⟩
    simp only [play, Service.isVerified, World.under, inner]

end Turn

/-- A log without some of its failed operations. -/
inductive Pruned : List Entry → List Entry → Prop where
  | nil : Pruned [] []
  | keep (entry : Entry) (rest : Pruned log kept) : Pruned (entry :: log) (entry :: kept)
  | drop {entry : Entry} (failed : entry.reply.Failed) (rest : Pruned log kept) :
    Pruned (entry :: log) kept

namespace Turn

variable {σ : Type} [SessionStore σ]

/-- Without its failed operations a run goes as it did. -/
theorem playAll_pruned {world other : World (Faulty σ)}
    (inner : world.store.inner = other.store.inner) (turns : List Turn) {kept : List Entry}
    (pruned : Pruned (playAll world turns).2 kept) :
    (playAll other (kept.map Entry.turn)).2 = kept ∧
      (playAll other (kept.map Entry.turn)).1.store.inner =
        (playAll world turns).1.store.inner := by
  induction turns generalizing world other kept with
  | nil =>
    cases pruned
    exact ⟨rfl, inner.symm⟩
  | cons turn turns ih =>
    cases pruned with
    | keep _ rest =>
      obtain ⟨reply, same⟩ := turn.play_congr inner
      obtain ⟨replies, final⟩ := ih same rest
      simp only [List.map_cons, play_turn, playAll, replies, reply]
      exact ⟨trivial, final⟩
    | drop failed rest => exact ih ((play_inner failed).trans inner) rest

private theorem playAll_inner (world : World (Faulty σ)) (turns : List Turn)
    (failed : ∀ entry ∈ (playAll world turns).2, entry.reply.Failed) :
    (playAll world turns).1.store.inner = world.store.inner := by
  induction turns generalizing world with
  | nil => rfl
  | cons turn turns ih =>
    obtain ⟨first, rest⟩ := List.forall_mem_cons.mp failed
    exact (ih _ rest).trans (play_inner first)

end Turn

namespace Service

section Retry

variable (service : Service) {conditions : Stage → Conditions}
variable {world : World (Faulty MemoryStore)} {user : User} {session : Session}

/-- A call finds the pending session and judges it in time. -/
theorem attend_look (pending : world.store.inner.session user.id = .ok session)
    (allowed : ∀ stage, (conditions stage).refused = [])
    (live : ∀ stage, (conditions stage).clock.nanos < session.expiresAt.nanos) (intent : Intent) :
    ∃ (met : World (Faulty MemoryStore)) (now : Instant),
      met.store.inner = world.store.inner ∧ session.isExpiredAt now = false ∧
      (service.attend conditions world (.look user intent)).outcome =
        (service.attend conditions met (.afterJudge user session now intent)).outcome := by
  have asked : .session ∉ (conditions (.look user intent)).refused := by simp [allowed]
  have found : SessionStore.session world.store.inner user.id = .ok session := pending
  obtain ⟨met, inner, outcome, _⟩ := service.attend_pending conditions found asked
  exact ⟨met, _, inner, Session.isExpiredAt_eq_false_iff.mpr (live _), outcome⟩

private theorem attend_confirm (pending : world.store.inner.session user.id = .ok session)
    (allowed : ∀ stage, (conditions stage).refused = [])
    (live : ∀ stage, (conditions stage).clock.nanos < session.expiresAt.nanos) :
    (service.attend conditions world (.look user (.confirm session.code))).outcome =
      .ok (.confirmed session) := by
  obtain ⟨met, now, _, current, course⟩ := service.attend_look pending allowed live _
  rw [course]
  simp [Stage.afterJudge, current, attend_done]

variable {email : String} {proof : Bytes} {keyPair : KeyPairId}

private theorem attend_prove (pending : world.store.inner.session user.id = .ok session)
    (allowed : ∀ stage, (conditions stage).refused = [])
    (live : ∀ stage, (conditions stage).clock.nanos < session.expiresAt.nanos)
    (proves : service.processor.generate email user.salt session.code = .ok (proof, keyPair)) :
    (service.attend conditions world (.look user (.prove email session.code))).outcome =
      .ok (.recorded ⟨proof, keyPair, session.code⟩) := by
  obtain ⟨met, now, inner, current, course⟩ := service.attend_look pending allowed live _
  have stored := MemoryStore.session_eq_ok_iff.mp pending
  obtain ⟨later, kept⟩ : ∃ later, met.store.inner.finalize user.id ⟨proof, keyPair, session.code⟩ =
      .ok later :=
    ⟨_, (MemoryStore.finalize_eq_ok_iff _ _ _ _).mpr ⟨session, inner ▸ stored, rfl, rfl⟩⟩
  have consumes (stage : Stage) (first : Conditions) :
      SessionStore.finalize ((met.under first).under (conditions stage)).store user.id
        ⟨proof, keyPair, session.code⟩ =
      .ok { ((met.under first).under (conditions stage)).store with inner := later } := by
    refine Faulty.finalize_eq_ok_iff.mpr ⟨?_, later, kept, rfl⟩
    simp [World.under, allowed]
  rw [course]
  simp only [Stage.afterJudge, current, Bool.false_eq_true, if_false]
  rw [attend_running service conditions met (by rfl)]
  simp only [step, proves]
  rw [attend_running service conditions _ (by rfl)]
  simp only [step, consumes, attend_done]

theorem attend_confirmThenProve (pending : world.store.inner.session user.id = .ok session)
    (allowed : ∀ stage, (conditions stage).refused = [])
    (live : ∀ stage, (conditions stage).clock.nanos < session.expiresAt.nanos)
    (proves : service.processor.generate email user.salt session.code = .ok (proof, keyPair)) :
    (service.attend conditions world (.look user (.confirmThenProve email session.code))).outcome =
      .ok (.recorded ⟨proof, keyPair, session.code⟩) := by
  obtain ⟨met, now, inner, current, course⟩ := service.attend_look pending allowed live _
  rw [course]
  simp only [Stage.afterJudge, current, Bool.false_eq_true, if_false, if_true]
  exact service.attend_prove (inner ▸ pending) allowed live proves

end Retry

end Service

open Turn

/-- Over every store, a failed operation changes nothing that is stored, and a run goes as it did
without its failed operations. So a session stays open to the right code until it expires, however
many operations have failed. -/
theorem failures_leave_no_trace :
    (∀ {σ : Type} [SessionStore σ] (world : World (Faulty σ)) (turn : Turn),
      (turn.play world).2.reply.Failed →
      (turn.play world).1.store.inner = world.store.inner) ∧
    (∀ {σ : Type} [SessionStore σ] (world : World (Faulty σ)) (turns : List Turn)
      (kept : List Entry), Pruned (playAll world turns).2 kept →
      (playAll world (kept.map Entry.turn)).2 = kept ∧
      (playAll world (kept.map Entry.turn)).1.store.inner =
        (playAll world turns).1.store.inner) ∧
    (∀ (world : World (Faulty MemoryStore)) (turns : List Turn) (user : User) (session : Session),
      world.store.inner.session user.id = .ok session →
      (∀ entry ∈ (playAll world turns).2, entry.reply.Failed) →
      ∀ (service : Service) (conditions : Stage → Conditions),
      (∀ stage, (conditions stage).refused = []) →
      (∀ stage, (conditions stage).clock.nanos < session.expiresAt.nanos) →
      let retry := fun asked =>
        (play (playAll world turns).1 (.request service conditions asked)).2.reply
      retry (.submit user session.code) = .ended (.ok (.confirmed session)) ∧
      ∀ (email : String) (proof : Bytes) (keyPair : KeyPairId),
        service.processor.generate email user.salt session.code = .ok (proof, keyPair) →
        retry (.finalize user email session.code) =
          .ended (.ok (.recorded ⟨proof, keyPair, session.code⟩)) ∧
        retry (.check user email session.code) =
          .ended (.ok (.recorded ⟨proof, keyPair, session.code⟩))) := by
  refine ⟨fun _ _ => play_inner, fun _ turns _ => playAll_pruned rfl turns, ?_⟩
  intro world turns user session pending failed service conditions allowed live
  rw [← playAll_inner world turns failed] at pending
  refine ⟨congrArg _ (service.attend_confirm pending allowed live), ?_⟩
  intro email proof keyPair proves
  exact ⟨congrArg _ (service.attend_prove pending allowed live proves),
    congrArg _ (service.attend_confirmThenProve pending allowed live proves)⟩

/-- A wrong code, and then the right one. -/
theorem failures_leave_no_trace_mistyped :
    ∃ (world : World (Faulty MemoryStore)) (wrong right : Turn),
      (wrong.play world).2.reply = .ended (.error .mismatch) ∧
      (wrong.play world).1.store.inner = world.store.inner ∧
      (right.play (playAll world [wrong]).1).2.reply = .ended (.ok (.recorded slowRecord)) := by
  let stored : MemoryStore := { sessions := ⟨[(1, slowSession)]⟩ }
  let world : World (Faulty MemoryStore) := { store := ⟨stored, []⟩, clock := ⟨0⟩ }
  let conditions : Stage → Conditions := fun _ => ⟨⟨0⟩, none, []⟩
  let turn := Turn.request fixedService conditions
  have pending : world.store.inner.session slowUser.id = .ok slowSession := rfl
  have allowed : ∀ stage, (conditions stage).refused = [] := fun _ => rfl
  have live : ∀ stage, (conditions stage).clock.nanos < slowSession.expiresAt.nanos :=
    fun _ => by decide
  have mistyped : (play world (turn (.submit slowUser "000000"))).2.reply =
      .ended (.error .mismatch) := by
    obtain ⟨met, now, _, current, course⟩ := fixedService.attend_look pending allowed live
      (.confirm "000000")
    simp only [Stage.afterJudge, current, Bool.false_eq_true, if_false] at course
    rw [if_neg (by decide), Stage.fail, Service.attend_done] at course
    exact congrArg _ course
  have failed : (play world (turn (.submit slowUser "000000"))).2.reply.Failed := by
    rw [mistyped]
    exact ⟨_, rfl⟩
  refine ⟨world, _, turn (.check slowUser "myemail@gmail.com" "724b2c"), mistyped,
    failures_leave_no_trace.1 world _ failed, ?_⟩
  exact ((failures_leave_no_trace.2.2 world [turn (.submit slowUser "000000")] slowUser slowSession
    pending (by simpa [playAll] using failed) fixedService conditions allowed live).2
    "myemail@gmail.com" (Utf8.encode "724b2c") Processor.standInKeyPair rfl).2

end MailProof
