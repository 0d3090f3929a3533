import MailProof.Proofs.Session.History

/-! Consumption of sessions. However the stages of the calls interleave, an issued session is
consumed at most once, by a call that found a live session before it went on to prove. -/

namespace MailProof

/-- What holds of the store and the history of a pool at all times. -/
structure ExactlyOnce (pool : Pool) : Prop where
  /-- Between two consumptions of a user's sessions, a session is issued to the user. -/
  issued_between : ∀ {user : UserId} {session other : Session} {record kept : ProofRecord}
    {later between earlier : List Event} {second first : Event},
    pool.history = later ++ second :: (between ++ first :: earlier) →
    second.action = .consumed user session record → first.action = .consumed user other kept →
    ∃ issue ∈ between, issue.action = .issued session ∧ session.user = user
  /-- A consumed session was the last to be issued to the user. -/
  last_issued : ∀ {user : UserId} {session : Session} {record : ProofRecord}
    {later earlier : List Event} {event : Event},
    pool.history = later ++ event :: earlier → event.action = .consumed user session record →
    ∃ (since before : List Event) (issue : Event), earlier = since ++ issue :: before ∧
      issue.action = .issued session ∧ session.user = user ∧
      ∀ other ∈ since, ¬ other.action.Touches user
  /-- A call whose code is not the one of the stored session, whatever it read earlier, is told
  so and changes nothing. -/
  refused : ∀ {call : Nat} {user : UserId} {record : ProofRecord} (service : Service),
    pool.calls[call]? = some (.record user record) →
    (∀ session, pool.world.store.session user = .ok session →
      session.code ≠ record.consumedCode) →
    pool.move (.resume service call) = { pool with
      calls := pool.calls.set call (.done (.error (.storage (.sessionConsumed user)))) }
  /-- A call whose code is the one of the stored session consumes it. -/
  accepted : ∀ {call : Nat} {user : UserId} {record : ProofRecord} {session : Session}
    (service : Service), pool.calls[call]? = some (.record user record) →
    pool.world.store.session user = .ok session → session.code = record.consumedCode →
    (pool.move (.resume service call)).calls = pool.calls.set call (.done (.ok (.recorded record))) ∧
    (pool.move (.resume service call)).history =
      ⟨pool.world.clock, call, .consumed user session record⟩ :: pool.history
  record_eq : ∀ user, pool.world.store.record user =
    match lastRecord user pool.history with
    | some record => .ok record
    | none => .error (.notFound "verification proof")
  isVerified_eq : ∀ user,
    pool.world.store.isVerified user = (lastRecord user pool.history).isSome

namespace Pool

variable {pool : Pool}

theorem Sound.pending_of_consumed (sound : pool.Sound) {user : UserId} {session : Session}
    {record : ProofRecord} {later earlier : List Event} {event : Event}
    (ran : pool.history = later ++ event :: earlier)
    (consumes : event.action = .consumed user session record) :
    pending user earlier = some session := by
  have lawful := sound.lawful
  rw [ran] at lawful
  have warranted := lawful.split.1.2
  rw [consumes] at warranted
  exact warranted.1

theorem Sound.issued_between (sound : pool.Sound) {user : UserId} {session other : Session}
    {record kept : ProofRecord} {later between earlier : List Event} {second first : Event}
    (ran : pool.history = later ++ second :: (between ++ first :: earlier))
    (consumes : second.action = .consumed user session record)
    (consumed : first.action = .consumed user other kept) :
    ∃ issue ∈ between, issue.action = .issued session ∧ session.user = user := by
  rcases pending_of_append (sound.pending_of_consumed ran consumes) with
    ⟨since, before, issue, rfl, issued, own, _⟩ | ⟨waits, _⟩
  · exact ⟨issue, by simp, issued, own⟩
  · simp [consumed, Action.pendingAfter] at waits

theorem Sound.last_issued (sound : pool.Sound) {user : UserId} {session : Session}
    {record : ProofRecord} {later earlier : List Event} {event : Event}
    (ran : pool.history = later ++ event :: earlier)
    (consumes : event.action = .consumed user session record) :
    ∃ (since before : List Event) (issue : Event), earlier = since ++ issue :: before ∧
      issue.action = .issued session ∧ session.user = user ∧
      ∀ other ∈ since, ¬ other.action.Touches user := by
  have waits : pending user (earlier ++ []) = some session := by
    rw [List.append_nil]
    exact sound.pending_of_consumed ran consumes
  rcases pending_of_append waits with last | ⟨never, _⟩
  · exact last
  · cases never

private theorem resume_refused (pool : Pool) {call : Nat} {user : UserId} {record : ProofRecord}
    (service : Service) (present : pool.calls[call]? = some (.record user record))
    (mismatch : ∀ session, pool.world.store.session user = .ok session →
      session.code ≠ record.consumedCode) :
    pool.move (.resume service call) = { pool with
      calls := pool.calls.set call (.done (.error (.storage (.sessionConsumed user)))) } := by
  have refused := MemoryStore.finalize_of_mismatch mismatch
  have answer : SessionStore.finalize pool.world.store user record =
      .error (.sessionConsumed user) := refused
  simp only [move, resume, present, Service.step, answer, Stage.action?, refused]
  rfl

private theorem resume_accepted (pool : Pool) {call : Nat} {user : UserId} {record : ProofRecord}
    {session : Session} (service : Service) (present : pool.calls[call]? = some (.record user record))
    (stored : pool.world.store.session user = .ok session)
    (carries : session.code = record.consumedCode) :
    (pool.move (.resume service call)).calls =
      pool.calls.set call (.done (.ok (.recorded record))) ∧
    (pool.move (.resume service call)).history =
      ⟨pool.world.clock, call, .consumed user session record⟩ :: pool.history := by
  have found := MemoryStore.session_eq_ok_iff.mp stored
  have kept := (MemoryStore.finalize_eq_ok_iff _ _ _ _).mpr ⟨session, found, carries, rfl⟩
  have answer : SessionStore.finalize pool.world.store user record = .ok _ := kept
  have acts := Stage.action?_record.mpr ⟨session, found, carries, rfl⟩
  simp only [move, resume, present, Service.step, answer, acts]
  exact ⟨trivial, rfl⟩

end Pool

/-- However the stages of any calls interleave, an issued session is consumed at most once, stale
codes change nothing, and records and verified flags are those of the last consumption. -/
theorem consumption_exactly_once (outbox : Outbox) (clock : Instant) (moves : List Move) :
    ExactlyOnce ((Pool.initial outbox clock).run moves) where
  issued_between := (Pool.sound_run outbox clock moves).issued_between
  last_issued := (Pool.sound_run outbox clock moves).last_issued
  refused := Pool.resume_refused _
  accepted := Pool.resume_accepted _
  record_eq user := by
    have kept := (Pool.sound_run outbox clock moves).tracks.records user
    cases last : lastRecord user ((Pool.initial outbox clock).run moves).history with
    | none => simp only [MemoryStore.record, kept, last]
    | some record => simp only [MemoryStore.record, kept, last]
  isVerified_eq := (Pool.sound_run outbox clock moves).tracks.verified

/-- Mails one code and takes every code for proven. -/
def fixedService : Service where
  config := .ofAdminEmail "layer8@email.com"
  representable := by decide
  codes _ _ := .ok "724b2c"
  processor := .echo

def slowUser : User := ⟨1, "user", "ajdjsjsaafktyowqqrtgpowrkdkdkfak"⟩

def slowRecord : ProofRecord := ⟨Utf8.encode "724b2c", Processor.standInKeyPair, "724b2c"⟩

/-- Two calls prove the code of one session, and the first of them consumes it. -/
def race : List Move :=
  let finalize : Move := .arrive (.finalize slowUser "myemail@gmail.com" "724b2c")
  .arrive (.start slowUser "myemail@gmail.com") :: List.replicate 4 (.resume fixedService 0) ++
  finalize :: List.replicate 3 (.resume fixedService 1) ++
  finalize :: List.replicate 3 (.resume fixedService 2) ++ [.resume fixedService 1]

/-- After the race the second call is about to store its record, and it is refused. -/
theorem consumption_exactly_once_race :
    let raced := (Pool.initial {} ⟨0⟩).run race
    raced.calls[2]? = some (.record 1 slowRecord) ∧
      raced.move (.resume fixedService 2) = { raced with
        calls := raced.calls.set 2 (.done (.error (.storage (.sessionConsumed 1)))) } ∧
      raced.world.store.record 1 = .ok slowRecord ∧ raced.world.store.isVerified 1 = true := by
  intro raced
  have once : ExactlyOnce raced := consumption_exactly_once {} ⟨0⟩ race
  have present : raced.calls[2]? = some (.record 1 slowRecord) := rfl
  have gone : raced.world.store.sessions.get? 1 = none := rfl
  refine ⟨present, once.refused fixedService present fun session holds => ?_, once.record_eq 1,
    once.isVerified_eq 1⟩
  exact nomatch gone.symm.trans (MemoryStore.session_eq_ok_iff.mp holds)

/-- A run in which a proof takes as long as the session lasts. -/
def slowProof : List Move :=
  .arrive (.start slowUser "myemail@gmail.com") :: List.replicate 4 (.resume fixedService 0) ++
  .arrive (.finalize slowUser "myemail@gmail.com" "724b2c") ::
    List.replicate 2 (.resume fixedService 1) ++
  .tick 120000000000 :: List.replicate 2 (.resume fixedService 1)

def slowSession : Session := ⟨1, "724b2c", ⟨120000000000⟩⟩

private theorem slowProof_history : ((Pool.initial {} ⟨0⟩).run slowProof).history = [
    ⟨⟨120000000000⟩, 1, .consumed 1 slowSession slowRecord⟩, ⟨⟨0⟩, 1, .cleared 1 slowSession⟩,
    ⟨⟨0⟩, 1, .read 1 slowSession⟩, ⟨⟨0⟩, 0, .issued slowSession⟩] := rfl

/-- The store does not know the time, so a session may be over by the time it is consumed. -/
theorem consumed_past_expiry : ∃ event ∈ ((Pool.initial {} ⟨0⟩).run slowProof).history,
    ∃ user session record, event.action = .consumed user session record ∧
      ¬ event.clock.nanos < session.expiresAt.nanos := by
  rw [slowProof_history]
  exact ⟨_, List.mem_cons_self .., 1, slowSession, slowRecord, rfl, by decide⟩

/-- The call of an event read a session of the user from the store and, before it proved, found
the clock short of that session's expiry. If no session was issued to the user since the reading,
it is the given one. -/
def ClearedBefore (earlier : List Event) (event : Event) (user : UserId) (session : Session) : Prop :=
  ∃ (sinceClearance sinceReading before : List Event) (clearance reading : Event) (seen : Session),
    earlier = sinceClearance ++ clearance :: (sinceReading ++ reading :: before) ∧
    clearance.call = event.call ∧ clearance.action = .cleared user seen ∧
    reading.call = event.call ∧ reading.action = .read user seen ∧
    clearance.clock.nanos < seen.expiresAt.nanos ∧
    clearance.clock.nanos ≤ event.clock.nanos ∧
    ((∀ other ∈ sinceClearance ++ sinceReading, ∀ issued, other.action = .issued issued →
      issued.user ≠ user) → session = seen)

/-- An expired session is refused before any proving, so every consumption is by a call that was
cleared to prove. -/
theorem consumed_after_clearance (outbox : Outbox) (clock : Instant) (moves : List Move)
    {user : UserId} {session : Session} {record : ProofRecord} {later earlier : List Event}
    {event : Event}
    (ran : ((Pool.initial outbox clock).run moves).history = later ++ event :: earlier)
    (consumes : event.action = .consumed user session record) :
    ClearedBefore earlier event user session := by
  have lawful := (Pool.sound_run outbox clock moves).lawful
  rw [ran] at lawful
  obtain ⟨⟨clocks, warranted⟩, lawful⟩ := lawful.split
  rw [consumes] at warranted
  obtain ⟨waits, _, seen, cleared⟩ := warranted
  obtain ⟨sinceClearance, past, clearance, rfl, own, clears, _⟩ := cleared.split
  obtain ⟨⟨_, warranted⟩, lawful⟩ := lawful.split
  rw [clears] at warranted
  obtain ⟨sinceReading, before, reading, rfl, own', reads, _⟩ := warranted.2.split
  obtain ⟨⟨_, stored⟩, _⟩ := lawful.split
  rw [reads] at stored
  refine ⟨sinceClearance, sinceReading, before, clearance, reading, seen, rfl, own, clears,
    own'.trans own, reads, warranted.1, clocks clearance (by simp), fun calm => ?_⟩
  have split : sinceClearance ++ clearance :: (sinceReading ++ reading :: before) =
      (sinceClearance ++ clearance :: (sinceReading ++ [reading])) ++ before := by simp
  rw [split] at waits
  rcases pending_of_append waits with ⟨since, rest, issue, between, issued, whose, _⟩ | ⟨already, _⟩
  · have member : issue ∈ sinceClearance ++ clearance :: (sinceReading ++ [reading]) := by
      rw [between]
      simp
    -- Neither the clearance nor the reading issues a session, so the issue lies between.
    have later : issue ∈ sinceClearance ++ sinceReading := by
      simp only [List.mem_append, List.mem_cons, List.not_mem_nil, or_false] at member ⊢
      rcases member with here | rfl | there | rfl
      · exact .inl here
      · simp [clears] at issued
      · exact .inr there
      · simp [reads] at issued
    exact absurd whose (calm issue later session issued)
  · exact Option.some.inj (already.symm.trans stored)

/-- The slow proof was begun in time. -/
theorem consumed_after_clearance_slowProof : ∃ event earlier,
    ((Pool.initial {} ⟨0⟩).run slowProof).history = [] ++ event :: earlier ∧
    event.action = .consumed 1 slowSession slowRecord ∧
    ClearedBefore earlier event 1 slowSession := by
  have ran : ((Pool.initial {} ⟨0⟩).run slowProof).history = [] ++ _ :: _ := slowProof_history
  exact ⟨_, _, ran, rfl, consumed_after_clearance {} ⟨0⟩ slowProof ran rfl⟩

end MailProof
