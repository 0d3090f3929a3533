import MailProof.Proofs.Session.Sequence

/-! When codes expire. The validity is read as whole seconds, a service takes it if it can be added
to a time, and a session is live strictly before the time of its issue plus the validity. -/

namespace MailProof

/-- A numeral is read as a 64-bit word or refused. -/
theorem appendDigit_lt {value next : Nat} {char : Char} (reads : appendDigit value char = .ok next) :
    next < UInt64.size := by
  rw [appendDigit] at reads
  split at reads
  · cases reads
  · dsimp only at reads
    split at reads
    · next small => exact Except.ok.inj reads ▸ small
    · cases reads

private theorem foldlM_appendDigit_lt {digits : List Char} {value n : Nat}
    (small : value < UInt64.size)
    (reads : digits.foldlM appendDigit value = .ok n) : n < UInt64.size := by
  induction digits generalizing value with
  | nil => exact Except.ok.inj reads ▸ small
  | cons digit digits ih =>
    rw [List.foldlM_cons] at reads
    cases first : appendDigit value digit with
    | error error =>
      rw [first] at reads
      cases reads
    | ok next =>
      rw [first] at reads
      exact ih (appendDigit_lt first) reads

private theorem parseWord_lt {text : String} {n : Nat} (reads : parseWord text = .ok n) :
    n < UInt64.size := by
  rw [parseWord] at reads
  split at reads
  · cases reads
  · cases reads
  · exact foldlM_appendDigit_lt (by decide) reads
  · exact foldlM_appendDigit_lt (by decide) reads

namespace Config

private theorem readValidity_eq_ok {raw : String} {validity : Duration}
    (reads : readValidity raw = .ok validity) :
    ∃ n, parseWord (trimBlank raw) = .ok n ∧ 0 < n ∧ validity = .ofSeconds n := by
  rw [readValidity] at reads
  split at reads
  · cases reads
  · cases reads
  · next n nonzero found =>
    exact ⟨n, found, Nat.pos_of_ne_zero nonzero, (Except.ok.inj reads).symm⟩

/-- The validity is a positive number of seconds, and the one that is set if any is. -/
theorem validity_of_lookup {lookup : String → Option String} {config : Config}
    (accepted : ofLookup lookup = .ok config) :
    ∃ n, (∀ raw, lookup validitySetting = some raw → parseWord (trimBlank raw) = .ok n) ∧
      0 < n ∧ n < UInt64.size ∧ config.codeValidity = .ofSeconds n := by
  rw [ofLookup] at accepted
  cases sender : lookup adminEmailSetting with
  | none =>
    rw [sender] at accepted
    cases accepted
  | some adminEmail =>
    rw [sender] at accepted
    cases given : lookup validitySetting with
    | none =>
      rw [given] at accepted
      cases accepted
      exact ⟨120, nofun, by decide, by decide, rfl⟩
    | some raw =>
      rw [given] at accepted
      cases reads : readValidity raw with
      | error error =>
        simp [reads, bind, Except.bind] at accepted
      | ok validity =>
        simp only [reads, bind, Except.bind] at accepted
        cases accepted
        obtain ⟨n, found, positive, rfl⟩ := readValidity_eq_ok reads
        exact ⟨n, fun _ same => Option.some.inj same ▸ found, positive, parseWord_lt found, rfl⟩

end Config

theorem Duration.ofSeconds_le_longest (n : Nat) :
    (Duration.ofSeconds n).nanos ≤ Duration.longest.nanos ↔ n ≤ 9223372036854775 := by
  simp only [ofSeconds, longest, nanosPerSecond]
  omega

/-- The right code is confirmed before the expiry and comes too late from then on. -/
theorem Stage.afterJudge_confirm (user : User) (session : Session) (now : Instant) :
    afterJudge user session now (.confirm session.code) = .done
      (if now.nanos < session.expiresAt.nanos then .ok (.confirmed session)
        else .error .expired) := by
  rw [afterJudge]
  by_cases live : now.nanos < session.expiresAt.nanos
  · simp [Session.isExpiredAt_eq_false_iff.mpr live, live]
  · simp [Session.isExpiredAt, Int.le_of_not_gt live, live, fail]

namespace Service

variable {σ : Type} [SessionStore σ] (service : Service) {conditions : Stage → Conditions}
variable {world : World (Faulty σ)} {user : User}

/-- A start mails the code that it derives, and stores a session with it. -/
theorem attend_start (conditions : Stage → Conditions) (world : World (Faulty σ)) (user : User)
    (email : String) :
    let started := service.attend conditions world (.derive user email)
    match service.codes user email with
    | .error error => started.outcome = .error (.ofCrypto error)
    | .ok code =>
      match (conditions (.deliver user email code)).mail with
      | some detail => started.outcome = .error (.mail ⟨detail⟩)
      | none =>
        let session : Session := ⟨user.id, code,
          (conditions (.date user code)).clock.later service.config.codeValidity⟩
        match SessionStore.upsert
          (⟨world.store.inner, (conditions (.issue session)).refused⟩ : Faulty σ) session with
        | .error error => started.outcome = .error (.storage error)
        | .ok store => started.outcome = .ok .issued ∧ started.world.store = store ∧
          started.world.outbox.sent = world.outbox.sent ++ [verificationEmail
            service.config.adminEmail service.config.senderDisplayName email user.username code] := by
  rw [attend_running service conditions world (by rfl)]
  cases derives : service.codes user email with
  | error error => simp [step, derives, Stage.fail, attend_done]
  | ok code =>
    simp only [step, derives]
    rw [attend_running service conditions _ (by rfl)]
    cases stopped : (conditions (.deliver user email code)).mail with
    | some detail => simp [step, World.under, Outbox.send, stopped, Stage.fail, attend_done]
    | none =>
      simp only [step, World.under, Outbox.send, stopped]
      rw [attend_running service conditions _ (by rfl)]
      simp only [step, World.under]
      rw [attend_running service conditions _ (by rfl)]
      simp only [step, World.under]
      split
      · next error refused => simp [refused, Stage.fail, attend_done]
      · next store stored => simp [stored, attend_done]

/-- A call that succeeds has found the session and judged it in time. -/
theorem attend_look_ok {session : Session} {intent : Intent} {answer : Answer}
    (pending : SessionStore.session world.store.inner user.id = .ok session)
    (succeeds : (service.attend conditions world (.look user intent)).outcome = .ok answer) :
    (conditions (.judge user session intent)).clock.nanos < session.expiresAt.nanos ∧
    ∃ met : World (Faulty σ), met.store.inner = world.store.inner ∧
      (service.attend conditions met (.afterJudge user session
        (conditions (.judge user session intent)).clock intent)).outcome = .ok answer := by
  by_cases allowed : .session ∈ (conditions (.look user intent)).refused
  · rw [attend_running service conditions world (by rfl)] at succeeds
    simp [step, World.under, SessionStore.session, Faulty.guard, allowed, Stage.afterLook, Stage.fail,
      attend_done] at succeeds
  · obtain ⟨met, inner, judged, _⟩ := service.attend_pending conditions pending allowed
    rw [succeeds] at judged
    refine ⟨?_, met, inner, judged.symm⟩
    cases expired : session.isExpiredAt (conditions (.judge user session intent)).clock with
    | false => exact Session.isExpiredAt_eq_false_iff.mp expired
    | true => simp [Stage.afterJudge, expired, Stage.fail, attend_done] at judged

end Service

/-- Stores that hand out the session that was stored last. -/
def KeepsSessions (σ : Type) [SessionStore σ] : Prop :=
  ∀ (store later : σ) (session : Session), SessionStore.upsert store session = .ok later →
    SessionStore.session later session.user = .ok session

theorem MemoryStore.keepsSessions : KeepsSessions MemoryStore := by
  intro store later session stored
  cases stored
  simp only [SessionStore.session, MemoryStore.session, upsert, Table.get?_insert, if_true]

namespace Service

/-- A pending session is open to its code up to the expiry and to nothing from then on. -/
structure OpenUntilExpiry {σ : Type} [SessionStore σ] (service : Service) (world : World (Faulty σ))
    (user : User) (session : Session) : Prop where
  /-- The right code is confirmed or found too late, and the store stays as it is. -/
  submitted : ∀ conditions : Stage → Conditions,
    let request := Request.submit user session.code
    .session ∉ (conditions request.stage).refused →
    (service.attend conditions world request.stage).outcome =
      (if (conditions (.judge user session (.confirm session.code))).clock.nanos <
          session.expiresAt.nanos
        then .ok (.confirmed session) else .error .expired) ∧
    (service.attend conditions world request.stage).world.store.inner = world.store.inner
  /-- A check reads the clock before it compares the code, and again before it proves. -/
  checked : ∀ (conditions : Stage → Conditions) (email code : String) (answer : Answer),
    (service.attend conditions world (Request.check user email code).stage).outcome = .ok answer →
    (conditions (.judge user session (.confirmThenProve email code))).clock.nanos <
      session.expiresAt.nanos ∧
    (conditions (.judge user session (.prove email code))).clock.nanos < session.expiresAt.nanos

variable {σ : Type} [SessionStore σ] (service : Service) {world : World (Faulty σ)} {user : User}

private theorem openUntilExpiry {session : Session}
    (pending : SessionStore.session world.store.inner user.id = .ok session) :
    service.OpenUntilExpiry world user session where
  submitted conditions allowed := by
    obtain ⟨met, inner, outcome, after⟩ := service.attend_pending conditions pending allowed
    rw [Stage.afterJudge_confirm, attend_done] at outcome after
    exact ⟨outcome, (congrArg (·.store.inner) after).trans inner⟩
  checked conditions email code answer succeeds := by
    obtain ⟨first, met, inner, judged⟩ := service.attend_look_ok pending succeeds
    have current := Session.isExpiredAt_eq_false_iff.mpr first
    refine ⟨first, ?_⟩
    by_cases same : code = session.code
    · simp only [Stage.afterJudge, current, Bool.false_eq_true, if_false, if_pos same] at judged
      exact (service.attend_look_ok (inner ▸ pending) judged).1
    · simp [Stage.afterJudge, current, same, Stage.fail, attend_done] at judged

/-- How long the codes of a service can be used, whatever store keeps its sessions. -/
def ValidFor (service : Service) (seconds : Nat) : Prop :=
  ∀ {σ : Type} [SessionStore σ], KeepsSessions σ →
  ∀ (conditions : Stage → Conditions) (world : World (Faulty σ)) (user : User) (email : String),
    let started := service.attend conditions world (Request.start user email).stage
    started.outcome = .ok .issued →
    ∃ code, service.codes user email = .ok code ∧
      started.world.outbox.sent = world.outbox.sent ++ [verificationEmail
        service.config.adminEmail service.config.senderDisplayName email user.username code] ∧
      let issue := (conditions (.date user code)).clock
      let session : Session :=
        ⟨user.id, code, ⟨min (issue.nanos + seconds * nanosPerSecond) Instant.last.nanos⟩⟩
      SessionStore.session started.world.store.inner user.id = .ok session ∧
      ∀ later : World (Faulty σ), SessionStore.session later.store.inner user.id = .ok session →
        service.OpenUntilExpiry later user session

private theorem validFor {seconds : Nat} (valid : service.config.codeValidity = .ofSeconds seconds) :
    service.ValidFor seconds := by
  intro σ _ keeps conditions world user email started issued
  have expiry (issue : Instant) : issue.later service.config.codeValidity =
      ⟨min (issue.nanos + seconds * nanosPerSecond) Instant.last.nanos⟩ := by
    rw [valid]
    simp [Instant.later, Duration.ofSeconds]
  have course := service.attend_start conditions world user email
  split at course
  · cases course.symm.trans issued
  · next code derives =>
    split at course
    · cases course.symm.trans issued
    · dsimp only at course
      rw [expiry] at course
      split at course
      · cases course.symm.trans issued
      · next store stored =>
        obtain ⟨_, inner, kept, rfl⟩ := Faulty.upsert_eq_ok_iff.mp stored
        obtain ⟨_, holds, mailed⟩ := course
        have pending := (congrArg (SessionStore.session ·.inner user.id) holds).trans
          (keeps _ _ _ kept)
        exact ⟨code, derives, mailed, pending, fun later pending => service.openUntilExpiry pending⟩

end Service

/-- From the setting to the decision. Settings that are accepted give the codes a validity of whole
seconds. A service is made of them if the validity can be added to a time, and then a code is
confirmed strictly before the time of its issue plus the validity, or before the last time if that
comes first, and has expired from then on. -/
theorem expiry_boundary {lookup : String → Option String} {config : Config}
    (accepted : Config.ofLookup lookup = .ok config) :
    ∃ n, (∀ raw, lookup Config.validitySetting = some raw →
        parseWord (trimBlank raw) = .ok n) ∧
      1 ≤ n ∧ n < UInt64.size ∧ config.codeValidity = .ofSeconds n ∧
      ∀ (codes : User → String → Except CryptoError String) (processor : Processor),
        if n ≤ 9223372036854775 then
          ∃ service, Service.new config codes processor = .ok service ∧ service.ValidFor n
        else ∃ reason,
          Service.new config codes processor = .error (.invalid "code_validity" reason) := by
  obtain ⟨n, given, positive, small, valid⟩ := Config.validity_of_lookup accepted
  refine ⟨n, given, positive, small, valid, fun codes processor => ?_⟩
  have fits := Duration.ofSeconds_le_longest n
  rw [← valid] at fits
  split
  · next short =>
    have representable := fits.mpr short
    exact ⟨⟨config, representable, codes, processor⟩, by rw [Service.new, dif_pos representable],
      Service.validFor _ valid⟩
  · next long =>
    exact ⟨_, by rw [Service.new, dif_neg (long ∘ fits.mp)]⟩

/-- Settings that let a code last five minutes. -/
def fiveMinutes (name : String) : Option String :=
  if name = Config.adminEmailSetting then some "layer8@email.com"
  else if name = Config.validitySetting then some " 300 "
  else none

def fiveMinuteConfig : Config where
  adminEmail := "layer8@email.com"
  senderDisplayName := "Layer8 team"
  codeValidity := .ofSeconds 300

/-- A code is confirmed to the last nanosecond of its five minutes. -/
theorem expiry_boundary_fiveMinutes : Config.ofLookup fiveMinutes = .ok fiveMinuteConfig ∧
    ∃ service, Service.new fiveMinuteConfig (fun _ _ => .ok "724b2c") .echo = .ok service ∧
    ∃ (user : User) (started : World (Faulty MemoryStore)),
      let submit := fun clock => (service.attend (fun _ => { clock }) started
        (Request.submit user "724b2c").stage).outcome
      submit ⟨299999999999⟩ = .ok (.confirmed ⟨user.id, "724b2c", ⟨300000000000⟩⟩) ∧
      submit ⟨300000000000⟩ = .error .expired := by
  have accepted : Config.ofLookup fiveMinutes = .ok fiveMinuteConfig := rfl
  obtain ⟨n, given, _, _, _, decision⟩ := expiry_boundary accepted
  have read : (.ok 300 : Except NumeralError Nat) = .ok n := given " 300 " rfl
  cases read
  obtain ⟨service, built, valid⟩ := decision (fun _ _ => .ok "724b2c") .echo
  refine ⟨accepted, service, built, ?_⟩
  cases built
  let user : User := ⟨1, "user", "ajdjsjsaafktyowqqrtgpowrkdkdkfak"⟩
  let world : World (Faulty MemoryStore) := { store := ⟨{}, []⟩, clock := ⟨0⟩ }
  let issue : Stage → Conditions := fun _ => { clock := ⟨0⟩ }
  have issued := (Service.attend_start ⟨fiveMinuteConfig, by decide, fun _ _ => .ok "724b2c", .echo⟩
    issue world user "myemail@gmail.com").1
  obtain ⟨code, derives, _, pending, opened⟩ :=
    valid MemoryStore.keepsSessions issue world user "myemail@gmail.com" issued
  cases derives
  have submitted := (opened _ pending).submitted
  exact ⟨user, _, (submitted _ List.not_mem_nil).1.trans (if_pos (by decide)),
    (submitted _ List.not_mem_nil).1.trans (if_neg (by decide))⟩

end MailProof
