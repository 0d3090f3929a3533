import MailProof.Proofs.Agreement
import MailProof.Proofs.Session.History
import MailProof.Proofs.Session.Sequence
import MailProof.Setup

/-! Where verified emails come from. Every pending session goes back to a mail that was delivered
with its code, and every verified user to such a session and to a proof made while it was live. -/

namespace MailProof

/-- The mail goes to an address and the code stands in its text. -/
structure Email.Carries (mail : Email) (recipient code : String) : Prop where
  addressed : mail.recipient = recipient
  contains : ∃ front back, mail.body = front ++ code ++ back

/-- The mail by which a service sends a code to a user. -/
def Service.message (service : Service) (user : User) (email code : String) : Email :=
  verificationEmail service.config.adminEmail service.config.senderDisplayName email user.username
    code

theorem Service.message_carries (service : Service) (user : User) (email code : String) :
    (service.message user email code).Carries email code :=
  ⟨rfl, _, _, rfl⟩

/-- A request leads to a look at the user's session with some intent. -/
inductive Request.Pursues : Request → User → Intent → Prop where
  | submit : Pursues (.submit user code) user (.confirm code)
  | finalize : Pursues (.finalize user email code) user (.prove email code)
  | check : Pursues (.check user email code) user (.confirmThenProve email code)
  | confirmed : Pursues (.check user email code) user (.prove email code)

/-- A call derived a code, delivered it to the email by a mail that carries it, and then stored the
session with that code. -/
inductive Entry.Issues (sent : List Email) (session : Session) : Entry → Prop where
  | issues {service : Service} {conditions : Stage → Conditions} {user : User} {email : String}
      {derived mailed dated stored : Instant} (own : user.id = session.user)
      (derives : service.codes user email = .ok session.code)
      (carries : (service.message user email session.code).Carries email session.code)
      (delivered : service.message user email session.code ∈ sent)
      (expires : session.expiresAt = dated.later service.config.codeValidity) :
      Issues sent session {
        turn := .request service conditions (.start user email)
        passed := [
          ⟨derived, .derive user email, .deliver user email session.code⟩,
          ⟨mailed, .deliver user email session.code, .date user session.code⟩,
          ⟨dated, .date user session.code, .issue session⟩,
          ⟨stored, .issue session, .done (.ok .issued)⟩]
        reply := .ended (.ok .issued) }

/-- A call found a session stored and live, had its code proven, and consumed it. -/
inductive Entry.Consumes (service : Service) (user : User) (email : String) (session : Session)
    (record : ProofRecord) : Entry → Prop where
  | consumes {conditions : Stage → Conditions} {asked : Request} {confirmation : List Passage}
      {found judged proven stored : Instant}
      (asks : asked.Pursues user (.prove email record.consumedCode))
      (carries : session.code = record.consumedCode)
      (live : judged.nanos < session.expiresAt.nanos)
      (generates : service.processor.generate email user.salt record.consumedCode =
        .ok (record.proof, record.keyPair)) :
      Consumes service user email session record {
        turn := .request service conditions asked
        passed := confirmation ++ [
          ⟨found, .look user (.prove email record.consumedCode),
            .judge user session (.prove email record.consumedCode)⟩,
          ⟨judged, .judge user session (.prove email record.consumedCode),
            .prove user email record.consumedCode⟩,
          ⟨proven, .prove user email record.consumedCode, .record user.id record⟩,
          ⟨stored, .record user.id record, .done (.ok (.recorded record))⟩]
        reply := .ended (.ok (.recorded record)) }

/-- What a call has passed on its way to a stage. It begins over one store, and has another store
and the mails sent so far when it comes to the stage. -/
inductive Path (service : Service) (conditions : Stage → Conditions) (asked : Request)
    (before : MemoryStore) (sent : List Email) : MemoryStore → List Passage → Stage → Prop where
  | derive (asks : asked = .start user email) :
    Path service conditions asked before sent before [] (.derive user email)
  | deliver (asks : asked = .start user email) (derives : service.codes user email = .ok code) :
    Path service conditions asked before sent before
      [⟨derived, .derive user email, .deliver user email code⟩] (.deliver user email code)
  | date (asks : asked = .start user email) (derives : service.codes user email = .ok code)
      (delivered : service.message user email code ∈ sent) :
    Path service conditions asked before sent before
      [⟨derived, .derive user email, .deliver user email code⟩,
        ⟨mailed, .deliver user email code, .date user code⟩] (.date user code)
  | issue (asks : asked = .start user email) (derives : service.codes user email = .ok code)
      (delivered : service.message user email code ∈ sent)
      (expires : expiry = dated.later service.config.codeValidity) :
    Path service conditions asked before sent before
      [⟨derived, .derive user email, .deliver user email code⟩,
        ⟨mailed, .deliver user email code, .date user code⟩,
        ⟨dated, .date user code, .issue ⟨user.id, code, expiry⟩⟩] (.issue ⟨user.id, code, expiry⟩)
  | look (asks : asked.Pursues user intent) :
    Path service conditions asked before sent before passed (.look user intent)
  | judge (asks : asked.Pursues user intent)
      (holds : before.sessions.get? user.id = some session) :
    Path service conditions asked before sent before
      (passed ++ [⟨found, .look user intent, .judge user session intent⟩])
      (.judge user session intent)
  | prove (asks : asked.Pursues user (.prove email code))
      (holds : before.sessions.get? user.id = some session)
      (live : judged.nanos < session.expiresAt.nanos) :
    Path service conditions asked before sent before
      (passed ++ [
        ⟨found, .look user (.prove email code), .judge user session (.prove email code)⟩,
        ⟨judged, .judge user session (.prove email code), .prove user email code⟩])
      (.prove user email code)
  | record (asks : asked.Pursues user (.prove email code))
      (holds : before.sessions.get? user.id = some session)
      (live : judged.nanos < session.expiresAt.nanos)
      (generates : service.processor.generate email user.salt code = .ok (proof, keyPair)) :
    Path service conditions asked before sent before
      (passed ++ [
        ⟨found, .look user (.prove email code), .judge user session (.prove email code)⟩,
        ⟨judged, .judge user session (.prove email code), .prove user email code⟩,
        ⟨proven, .prove user email code, .record user.id ⟨proof, keyPair, code⟩⟩])
      (.record user.id ⟨proof, keyPair, code⟩)
  | failed : Path service conditions asked before sent before passed (.done (.error error))
  | confirmed (asks : asked.Pursues user (.confirm code)) :
    Path service conditions asked before sent before passed (.done (.ok (.confirmed session)))
  | issued (issues : Entry.Issues sent session
      ⟨.request service conditions asked, passed, .ended (.ok .issued)⟩) :
    Path service conditions asked before sent (before.apply (.issued session)) passed
      (.done (.ok .issued))
  | recorded (holds : before.sessions.get? user.id = some session)
      (consumes : Entry.Consumes service user email session record
        ⟨.request service conditions asked, passed, .ended (.ok (.recorded record))⟩) :
    Path service conditions asked before sent (before.apply (.consumed user.id session record))
      passed (.done (.ok (.recorded record)))

namespace Path

variable {service : Service} {conditions : Stage → Conditions} {asked : Request}
variable {before : MemoryStore} {sent : List Email} {passed : List Passage}

private theorem of_request (asked : Request) :
    Path service conditions asked before sent before [] asked.stage := by
  cases asked with
  | start user email => exact .derive rfl
  | submit user code => exact .look .submit
  | finalize user email code => exact .look .finalize
  | check user email code => exact .look .check

/-- A live session is confirmed, or its code goes on to be proven. -/
theorem afterJudge {user : User} {session : Session} {found : Instant} {intent : Intent}
    (asks : asked.Pursues user intent) (holds : before.sessions.get? user.id = some session)
    (now : Instant) :
    Path service conditions asked before sent before
      (passed ++ [⟨found, .look user intent, .judge user session intent⟩,
        ⟨now, .judge user session intent, .afterJudge user session now intent⟩])
      (.afterJudge user session now intent) := by
  simp only [Stage.afterJudge]
  split
  · exact .failed
  · next current =>
    cases intent with
    | confirm code =>
      dsimp only
      split
      · exact .confirmed asks
      · exact .failed
    | confirmThenProve email code =>
      cases asks
      dsimp only
      split
      · exact .look .confirmed
      · exact .failed
    | prove email code =>
      have live : now.nanos < session.expiresAt.nanos := by
        simpa [Session.isExpiredAt] using current
      exact .prove asks holds live

/-- A stage carries the path on. -/
theorem step {world : World (Faulty MemoryStore)} {stage : Stage}
    (path : Path service conditions asked before world.outbox.sent world.store.inner passed stage)
    (running : stage.outcome? = none) :
    Path service conditions asked before (service.step world stage).1.outbox.sent
      (service.step world stage).1.store.inner
      (passed ++ [⟨world.clock, stage, (service.step world stage).2⟩])
      (service.step world stage).2 := by
  generalize store : world.store.inner = inner at path
  cases path with
  | derive asks =>
    simp only [Service.step]
    split
    · next derives =>
      rw [store]
      exact .deliver asks derives
    · rw [store]
      exact .failed
  | deliver asks derives =>
    simp only [Service.step, Outbox.send]
    split
    · next outbox delivered =>
      split at delivered
      · cases delivered
      · cases delivered
        rw [store]
        exact .date asks derives (List.mem_append_right _ (List.mem_singleton_self _))
    · rw [store]
      exact .failed
  | date asks derives delivered =>
    simp only [Service.step]
    rw [store]
    exact .issue asks derives delivered rfl
  | issue asks derives delivered expires =>
    simp only [Service.step]
    split
    · next later stored =>
      obtain ⟨_, inner, kept, rfl⟩ := Faulty.upsert_eq_ok_iff.mp stored
      cases kept
      rw [store]
      subst asks
      exact .issued (.issues rfl derives (service.message_carries _ _ _) delivered expires)
    · rw [store]
      exact .failed
  | look asks =>
    rename_i user intent
    simp only [Service.step]
    rw [store]
    cases answer : SessionStore.session world.store user.id with
    | ok session =>
      have holds := MemoryStore.session_eq_ok_iff.mp (Faulty.session_eq_ok_iff.mp answer).2
      rw [store] at holds
      exact .judge asks holds
    | error error => cases error <;> exact .failed
  | judge asks holds =>
    simp only [Service.step]
    rw [store, List.append_assoc]
    exact .afterJudge asks holds world.clock
  | prove asks holds live =>
    simp only [Service.step]
    split
    · next proof keyPair generates =>
      rw [List.append_assoc, store]
      exact .record asks holds live generates
    · rw [store]
      exact .failed
  | record asks holds live generates =>
    simp only [Service.step]
    split
    · next later stored =>
      obtain ⟨_, inner, kept, rfl⟩ := Faulty.finalize_eq_ok_iff.mp stored
      rw [store] at kept
      obtain ⟨other, present, carries, rfl⟩ := (MemoryStore.finalize_eq_ok_iff _ _ _ _).mp kept
      -- The store is the one in which the call found the session.
      obtain rfl := Option.some.inj (holds.symm.trans present)
      rw [List.append_assoc]
      exact .recorded holds (.consumes asks carries live generates)
    · rw [store]
      exact .failed
  | failed => cases running
  | confirmed asks => cases running
  | issued issues => cases running
  | recorded holds consumes => cases running

end Path

namespace Service

variable (service : Service) (conditions : Stage → Conditions)

private theorem attend_path (world : World (Faulty MemoryStore)) (asked : Request) :
    let course := service.attend conditions world asked.stage
    Path service conditions asked world.store.inner course.world.outbox.sent course.world.store.inner
      course.passed (.done course.outcome) :=
  service.attend_invariant conditions
    (fun reached passed stage => Path service conditions asked world.store.inner
      reached.outbox.sent reached.store.inner passed stage)
    (fun _ _ _ _ path => path) (fun _ _ _ running path => path.step running) world [] asked.stage
    (.of_request asked)

/-- No mail is taken back. -/
theorem step_sent (world : World (Faulty MemoryStore)) (stage : Stage) :
    world.outbox.sent ⊆ (service.step world stage).1.outbox.sent := by
  have effect := service.step_effect world stage
  generalize service.step world stage = after at effect ⊢
  obtain ⟨later, next⟩ := after
  cases effect with
  | idle => exact List.Subset.refl _
  | mailed message => exact List.subset_append_left _ _
  | stored inner answer => exact List.Subset.refl _

private theorem attend_sent (world : World (Faulty MemoryStore)) (stage : Stage) :
    world.outbox.sent ⊆ (service.attend conditions world stage).world.outbox.sent :=
  service.attend_invariant conditions
    (fun reached _ _ => world.outbox.sent ⊆ reached.outbox.sent) (fun _ _ _ _ kept => kept)
    (fun reached _ stage _ kept => List.Subset.trans kept (service.step_sent reached stage))
    world [] stage (List.Subset.refl _)

end Service

namespace Entry

theorem Issues.mono {sent later : List Email} {session : Session} {entry : Entry}
    (issues : entry.Issues sent session) (grows : sent ⊆ later) : entry.Issues later session := by
  cases issues with
  | issues own derives carries delivered expires =>
    exact .issues own derives carries (grows delivered) expires

end Entry

namespace Turn

private theorem play_sent (turn : Turn) (world : World (Faulty MemoryStore)) :
    world.outbox.sent ⊆ (turn.play world).1.outbox.sent := by
  cases turn with
  | request service conditions asked => exact service.attend_sent conditions world asked.stage
  | verify service code salt proof => exact List.Subset.refl _
  | isVerified refused user => exact List.Subset.refl _

/-- An operation leaves what is stored as it is, issues a session, or consumes the pending one. -/
theorem play_cases (turn : Turn) (world : World (Faulty MemoryStore)) :
    (turn.play world).1.store.inner = world.store.inner ∨
    (∃ session,
      (turn.play world).1.store.inner = world.store.inner.apply (.issued session) ∧
      (turn.play world).2.Issues (turn.play world).1.outbox.sent session) ∨
    ∃ service user email session record,
      world.store.inner.sessions.get? user.id = some session ∧
      (turn.play world).1.store.inner =
        world.store.inner.apply (.consumed user.id session record) ∧
      (turn.play world).2.Consumes service user email session record := by
  cases turn with
  | request service conditions asked =>
    have path := service.attend_path conditions world asked
    simp only [play]
    generalize service.attend conditions world asked.stage = course at path ⊢
    obtain ⟨later, passed, outcome⟩ := course
    dsimp only at path ⊢
    generalize store : later.store.inner = inner at path ⊢
    cases path with
    | failed => exact .inl rfl
    | confirmed asks => exact .inl rfl
    | issued issues => exact .inr (.inl ⟨_, rfl, issues⟩)
    | recorded holds consumes => exact .inr (.inr ⟨_, _, _, _, _, holds, rfl, consumes⟩)
  | verify service code salt proof => exact .inl rfl
  | isVerified refused user => exact .inl rfl

end Turn

/-- In an earlier call a mail with the code of a session was delivered to the email it was derived
from, before the session was stored. -/
def Mailed (sent : List Email) (log : List Entry) (session : Session) : Prop :=
  ∃ entry ∈ log, entry.Issues sent session

/-- A mail with the code of a record was delivered for a user, and in a later call the code was
proven while the session that carries it was live. -/
def Traced (sent : List Email) (log : List Entry) (user : UserId) (record : ProofRecord) : Prop :=
  ∃ (before between after : List Entry) (issue finalization : Entry) (session : Session)
    (service : Service) (owner : User) (email : String),
    log = before ++ issue :: (between ++ finalization :: after) ∧
    session.user = user ∧ issue.Issues sent session ∧
    owner.id = user ∧ finalization.Consumes service owner email session record ∧
    ∀ keys blinding, service.processor = CircuitKeys.processor keys blinding →
      deriveCode email owner.salt = .ok record.consumedCode

section History

variable {sent later : List Email} {log : List Entry} {session : Session} {user : UserId}
variable {record : ProofRecord}

theorem Mailed.append (mailed : Mailed sent log session) (grows : sent ⊆ later) (entry : Entry) :
    Mailed later (log ++ [entry]) session := by
  obtain ⟨issue, member, issues⟩ := mailed
  exact ⟨issue, List.mem_append_left _ member, issues.mono grows⟩

theorem Traced.append (traced : Traced sent log user record) (grows : sent ⊆ later)
    (entry : Entry) : Traced later (log ++ [entry]) user record := by
  obtain ⟨before, between, after, issue, finalization, session, service, owner, email, rfl, own,
    issues, owns, consumes, derives⟩ := traced
  exact ⟨before, between, after ++ [entry], issue, finalization, session, service, owner, email,
    by simp, own, issues.mono grows, owns, consumes, derives⟩

/-- Real proofs are made of derived codes only. -/
theorem Entry.Consumes.derives {service : Service} {owner : User} {email : String} {entry : Entry}
    (consumes : entry.Consumes service owner email session record) {keys : CircuitKeys}
    {blinding : Blinding} (real : service.processor = keys.processor blinding) :
    deriveCode email owner.salt = .ok record.consumedCode := by
  cases consumes with
  | consumes asks carries live generates =>
    rw [real] at generates
    cases proven : keys.prover.prove email owner.salt record.consumedCode blinding with
    | ok proof => exact (keys.prover.prove_iff blinding _ _ _).1.mp ⟨proof, proven⟩
    | error error =>
      simp only [CircuitKeys.processor, proven, bind, Except.bind] at generates
      cases generates

theorem Mailed.consume (mailed : Mailed sent log session) (grows : sent ⊆ later)
    {service : Service} {owner : User} {email : String} {entry : Entry} (own : session.user = user)
    (owns : owner.id = user) (consumes : entry.Consumes service owner email session record) :
    Traced later (log ++ [entry]) user record := by
  obtain ⟨issue, member, issues⟩ := mailed
  obtain ⟨before, between, rfl⟩ := List.append_of_mem member
  exact ⟨before, between, [], issue, entry, session, service, owner, email, by simp, own,
    issues.mono grows, owns, consumes, fun _ _ => consumes.derives⟩

end History

/-- What every pending session and every verified user go back to. -/
structure Provenance (world : World (Faulty MemoryStore)) (log : List Entry) : Prop where
  pending : ∀ {user : UserId} {session : Session}, world.store.inner.session user = .ok session →
    session.user = user ∧ Mailed world.outbox.sent log session
  verified : ∀ {user : UserId}, world.store.inner.isVerified user = true →
    ∃ record, world.store.inner.record user = .ok record ∧
      Traced world.outbox.sent log user record

namespace Provenance

variable {world later : World (Faulty MemoryStore)} {log : List Entry} {entry : Entry}

theorem initial (outbox : Outbox) (clock : Instant) :
    Provenance { store := ⟨{}, []⟩, outbox, clock } [] where
  pending found := nomatch found
  verified yes := nomatch yes

/-- An operation that leaves what is stored as it is. -/
theorem idle (provenance : Provenance world log) (sent : world.outbox.sent ⊆ later.outbox.sent)
    (same : later.store.inner = world.store.inner) : Provenance later (log ++ [entry]) where
  pending found := by
    rw [same] at found
    obtain ⟨own, mailed⟩ := provenance.pending found
    exact ⟨own, mailed.append sent entry⟩
  verified yes := by
    rw [same] at yes ⊢
    obtain ⟨record, kept, traced⟩ := provenance.verified yes
    exact ⟨record, kept, traced.append sent entry⟩

private theorem issue (provenance : Provenance world log)
    (sent : world.outbox.sent ⊆ later.outbox.sent)
    {session : Session} (stored : later.store.inner = world.store.inner.apply (.issued session))
    (issues : entry.Issues later.outbox.sent session) : Provenance later (log ++ [entry]) where
  pending {user other} found := by
    rw [stored, MemoryStore.session_eq_ok_iff, MemoryStore.apply_sessions] at found
    by_cases own : session.user = user
    · obtain rfl : session = other := by simpa [Action.pendingAfter, own] using found
      exact ⟨own, entry, by simp, issues⟩
    · have older : world.store.inner.sessions.get? user = some other := by
        simpa [Action.pendingAfter, own] using found
      obtain ⟨own, mailed⟩ := provenance.pending (MemoryStore.session_eq_ok_iff.mpr older)
      exact ⟨own, mailed.append sent entry⟩
  verified yes := by
    rw [stored] at yes ⊢
    obtain ⟨record, kept, traced⟩ := provenance.verified yes
    exact ⟨record, kept, traced.append sent entry⟩

private theorem consume (provenance : Provenance world log)
    (sent : world.outbox.sent ⊆ later.outbox.sent)
    {service : Service} {owner : User} {email : String} {session : Session} {record : ProofRecord}
    (holds : world.store.inner.sessions.get? owner.id = some session)
    (stored : later.store.inner = world.store.inner.apply (.consumed owner.id session record))
    (consumes : entry.Consumes service owner email session record) :
    Provenance later (log ++ [entry]) where
  pending {user other} found := by
    rw [stored, MemoryStore.session_eq_ok_iff, MemoryStore.apply_sessions] at found
    have older : world.store.inner.sessions.get? user = some other := by
      by_cases own : owner.id = user
      · simp [Action.pendingAfter, own] at found
      · simpa [Action.pendingAfter, own] using found
    obtain ⟨own, mailed⟩ := provenance.pending (MemoryStore.session_eq_ok_iff.mpr older)
    exact ⟨own, mailed.append sent entry⟩
  verified {user} yes := by
    by_cases owns : owner.id = user
    · subst owns
      obtain ⟨own, mailed⟩ := provenance.pending (MemoryStore.session_eq_ok_iff.mpr holds)
      refine ⟨record, ?_, mailed.consume sent own rfl consumes⟩
      rw [stored]
      simp [MemoryStore.record, MemoryStore.apply_records, Action.record?]
    · rw [stored, MemoryStore.apply_isVerified] at yes
      have before : world.store.inner.isVerified user = true := by
        simpa [Action.record?, owns] using yes
      obtain ⟨older, kept, traced⟩ := provenance.verified before
      refine ⟨older, ?_, traced.append sent entry⟩
      rw [stored, ← kept]
      simp [MemoryStore.record, MemoryStore.apply_records, Action.record?, owns]

/-- Every operation keeps the provenance. -/
theorem play (provenance : Provenance world log) (turn : Turn) :
    Provenance (turn.play world).1 (log ++ [(turn.play world).2]) := by
  have sent := turn.play_sent world
  rcases turn.play_cases world with same | ⟨session, stored, issues⟩ |
    ⟨service, owner, email, session, record, holds, stored, consumes⟩
  · exact provenance.idle sent same
  · exact provenance.issue sent stored issues
  · exact provenance.consume sent holds stored consumes

theorem playAll (provenance : Provenance world log) (turns : List Turn) :
    Provenance (Turn.playAll world turns).1 (log ++ (Turn.playAll world turns).2) := by
  induction turns generalizing world log with
  | nil =>
    rw [Turn.playAll, List.append_nil]
    exact provenance
  | cons turn turns ih =>
    have rest := ih (provenance.play turn)
    rwa [List.append_assoc] at rest

end Provenance

/-- A call that proves another code than the pending one fails without effect. -/
theorem Turn.play_of_mismatch {world : World (Faulty MemoryStore)} {user : User} {code : String}
    (mismatch : ∀ session, world.store.inner.session user.id = .ok session → session.code ≠ code)
    (service : Service) (conditions : Stage → Conditions) (email : String) :
    let finalized := play world (.request service conditions (.finalize user email code))
    finalized.1.store.inner = world.store.inner ∧ finalized.2.reply.Failed := by
  have path := service.attend_path conditions world (.finalize user email code)
  simp only [play]
  generalize service.attend conditions world (Request.finalize user email code).stage = course at path ⊢
  obtain ⟨later, passed, outcome⟩ := course
  dsimp only at path ⊢
  generalize store : later.store.inner = inner at path ⊢
  cases path with
  | failed => exact ⟨rfl, _, rfl⟩
  | confirmed asks => cases asks
  | issued issues => cases issues
  | recorded holds consumes =>
    cases consumes with
    | consumes asks carries live generates =>
      cases asks
      exact absurd carries (mismatch _ (MemoryStore.session_eq_ok_iff.mpr holds))

/-- After any operations, whatever failed in them and whatever the clock showed, a pending session
carries a code that was mailed to its user, and a verified user has a record of such a code, proven
while it was live. A proof of any other code than the pending one is refused without effect. -/
theorem verified_emails_traced (outbox : Outbox) (clock : Instant) (turns : List Turn) :
    let run := Turn.playAll { store := ⟨{}, []⟩, outbox, clock } turns
    Provenance run.1 run.2 ∧
    ∀ (service : Service) (conditions : Stage → Conditions) (user : User) (email code : String),
      (∀ session, run.1.store.inner.session user.id = .ok session → session.code ≠ code) →
      let finalized := Turn.play run.1 (.request service conditions (.finalize user email code))
      finalized.1.store.inner = run.1.store.inner ∧ finalized.2.reply.Failed := by
  intro run
  refine ⟨(Provenance.initial outbox clock).playAll turns, ?_⟩
  intro service conditions user email code mismatch
  exact Turn.play_of_mismatch mismatch service conditions email

end MailProof
