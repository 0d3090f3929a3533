import MailProof.Proofs.Refusal
import MailProof.Proofs.Session.Provenance

/-! Rejections reveal nothing. Two runs whose emails and salts differ, but have as many characters,
answer alike as long as no code is guessed: every answer is settled by lengths, users, the clock
and the submitted codes. -/

namespace MailProof

/-- A processor that proves the derived codes and refuses all others as a prover does. -/
structure Processor.Faithful (processor : Processor) : Prop where
  proves : ∀ email salt code,
    (∃ made, processor.generate email salt code = .ok made) ↔ deriveCode email salt = .ok code
  refuses : ∀ email salt code, deriveCode email salt ≠ .ok code →
    processor.generate email salt code = .error (rejection email salt code)

/-- Proofs under any keys are faithful. -/
theorem CircuitKeys.processor_faithful (keys : CircuitKeys) (blinding : Blinding) :
    (keys.processor blinding).Faithful where
  proves email salt code := by
    rw [← (keys.prover.prove_iff blinding email salt code).1]
    change (∃ made, (keys.prover.prove email salt code blinding >>= _) = _) ↔ _
    cases keys.prover.prove email salt code blinding with
    | error error => exact ⟨nofun, nofun⟩
    | ok proof => exact ⟨fun _ => ⟨proof, rfl⟩, fun _ => ⟨_, rfl⟩⟩
  refuses email salt code wrong := by
    change (keys.prover.prove email salt code blinding >>= _) = _
    rw [(keys.prover.prove_iff blinding email salt code).2 wrong]
    rfl

/-- A service that derives its codes and proves them faithfully. -/
structure Service.Faithful (service : Service) : Prop where
  codes : service.codes = derivedCodes
  processor : service.processor.Faithful

/-- Faithful services with the same validity of codes. -/
structure Service.Alike (service other : Service) : Prop where
  first : service.Faithful
  second : other.Faithful
  validity : service.config.codeValidity = other.config.codeValidity

/-- The same user, with salts of as many characters. -/
structure User.Alike (user other : User) : Prop where
  id : user.id = other.id
  salt : user.salt.length = other.salt.length

inductive Intent.Alike : Intent → Intent → Prop where
  | confirm (code : String) : Alike (.confirm code) (.confirm code)
  | confirmThenProve (long : email.length = other.length) (code : String) :
    Alike (.confirmThenProve email code) (.confirmThenProve other code)
  | prove (long : email.length = other.length) (code : String) :
    Alike (.prove email code) (.prove other code)

/-- Requests that differ in emails and salts alone. -/
inductive Request.Alike : Request → Request → Prop where
  | start (users : User.Alike user user') (long : email.length = email'.length) :
    Alike (.start user email) (.start user' email')
  | submit (users : User.Alike user user') (code : String) :
    Alike (.submit user code) (.submit user' code)
  | finalize (users : User.Alike user user') (long : email.length = email'.length)
    (code : String) : Alike (.finalize user email code) (.finalize user' email' code)
  | check (users : User.Alike user user') (long : email.length = email'.length) (code : String) :
    Alike (.check user email code) (.check user' email' code)

/-- The submitted code is no pending one where it is compared, and no derived one where it is
proved. -/
def Intent.Misses (user : User) (pending : Option Session) : Intent → Prop
  | .confirm code | .confirmThenProve _ code => ∀ session ∈ pending, code ≠ session.code
  | .prove email code => deriveCode email user.salt ≠ .ok code

/-- Stores that cannot be told apart without a code. -/
structure MemoryStore.Alike (store other : MemoryStore) : Prop where
  sessions : ∀ user, Option.Rel (fun session session' => session.expiresAt = session'.expiresAt)
    (store.sessions.get? user) (other.sessions.get? user)
  verified : ∀ user, store.isVerified user = other.isVerified user

theorem MemoryStore.Alike.upsert {store other : MemoryStore} {session session' : Session}
    (alike : store.Alike other) (user : session.user = session'.user)
    (expiry : session.expiresAt = session'.expiresAt) :
    (store.upsert session).Alike (other.upsert session') where
  sessions owner := by
    simp only [MemoryStore.upsert, Table.get?_insert, user]
    split
    · exact .some expiry
    · exact alike.sessions owner
  verified := alike.verified

/-- Stages of calls that go on alike. -/
inductive Stage.Alike (store other : MemoryStore) : Stage → Stage → Prop where
  | derive (users : User.Alike user user') (long : email.length = email'.length) :
    Alike store other (.derive user email) (.derive user' email')
  | deliver (users : User.Alike user user') :
    Alike store other (.deliver user email code) (.deliver user' email' code')
  | date (users : User.Alike user user') :
    Alike store other (.date user code) (.date user' code')
  | issue (user : session.user = session'.user) (expiry : session.expiresAt = session'.expiresAt) :
    Alike store other (.issue session) (.issue session')
  | look (users : User.Alike user user') (intents : Intent.Alike intent intent')
    (misses : intent.Misses user (store.sessions.get? user.id))
    (misses' : intent'.Misses user' (other.sessions.get? user'.id)) :
    Alike store other (.look user intent) (.look user' intent')
  | judge (users : User.Alike user user') (intents : Intent.Alike intent intent')
    (expiry : session.expiresAt = session'.expiresAt)
    (misses : intent.Misses user (some session)) (misses' : intent'.Misses user' (some session')) :
    Alike store other (.judge user session intent) (.judge user' session' intent')
  | prove (users : User.Alike user user') (long : email.length = email'.length)
    (wrong : deriveCode email user.salt ≠ .ok code)
    (wrong' : deriveCode email' user'.salt ≠ .ok code) :
    Alike store other (.prove user email code) (.prove user' email' code)
  | done (outcome : Outcome) : Alike store other (.done outcome) (.done outcome)

theorem Stage.Alike.remaining_eq {store other : MemoryStore} {stage stage' : Stage}
    (alike : Stage.Alike store other stage stage') : stage.remaining = stage'.remaining := by
  cases alike with
  | look _ intents => cases intents <;> rfl
  | judge _ intents => cases intents <;> rfl
  | derive | deliver | date | issue | prove | done => rfl

theorem Stage.Alike.outcome?_eq {store other : MemoryStore} {stage stage' : Stage}
    (alike : Stage.Alike store other stage stage') : stage.outcome? = stage'.outcome? := by
  cases alike <;> rfl

namespace Service

variable {service service' : Service} {world world' : World (Faulty MemoryStore)}
  {stage stage' : Stage}

/-- What two stages leave behind: stores that are alike, and stages that go on alike. -/
def Continues (after after' : World (Faulty MemoryStore) × Stage) : Prop :=
  after.1.store.inner.Alike after'.1.store.inner ∧
    Stage.Alike after.1.store.inner after'.1.store.inner after.2 after'.2

private theorem judge_alike {session session' : Session} {user user' : User}
    {intent intent' : Intent}
    {store other : MemoryStore} (now : Instant)
    (users : user.Alike user') (intents : intent.Alike intent')
    (expiry : session.expiresAt = session'.expiresAt)
    (misses : intent.Misses user (some session)) (misses' : intent'.Misses user' (some session')) :
    Stage.Alike store other (.afterJudge user session now intent)
      (.afterJudge user' session' now intent') := by
  have expired : session.isExpiredAt now = session'.isExpiredAt now := by
    simp only [Session.isExpiredAt, expiry]
  simp only [Stage.afterJudge, expired]
  split
  · exact .done _
  · cases intents with
    | confirm code =>
      simp only [if_neg (misses session rfl), if_neg (misses' session' rfl)]
      exact .done _
    | confirmThenProve long code =>
      simp only [if_neg (misses session rfl), if_neg (misses' session' rfl)]
      exact .done _
    | prove long code => exact .prove users long misses misses'

/-- Looking up sessions that are alike leads on alike. -/
theorem look_alike {store other : Faulty MemoryStore} {user user' : User} {intent intent' : Intent}
    (failing : store.failing = other.failing) (stores : store.inner.Alike other.inner)
    (users : user.Alike user') (intents : intent.Alike intent')
    (misses : intent.Misses user (store.inner.sessions.get? user.id))
    (misses' : intent'.Misses user' (other.inner.sessions.get? user'.id)) :
    Stage.Alike store.inner other.inner
      (.afterLook user intent (SessionStore.session store user.id))
      (.afterLook user' intent' (SessionStore.session other user'.id)) := by
  rw [Faulty.session_memory, Faulty.session_memory, Faulty.guard, Faulty.guard, failing,
    MemoryStore.session, MemoryStore.session]
  split
  · exact .done _
  · have rows := stores.sessions user.id
    rw [users.id] at rows misses ⊢
    generalize store.inner.sessions.get? user'.id = held at rows misses
    generalize other.inner.sessions.get? user'.id = held' at rows misses'
    cases rows with
    | none =>
      simp only [Stage.afterLook, users.id]
      exact .done _
    | some expiry => exact .judge users intents expiry misses misses'

/-- Stages that go on alike do so under the same conditions. -/
theorem step_alike (services : service.Alike service')
    (conditions : world.conditions = world'.conditions)
    (stores : world.store.inner.Alike world'.store.inner)
    (stages : Stage.Alike world.store.inner world'.store.inner stage stage') :
    Continues (service.step world stage) (service'.step world' stage') := by
  have clock : world.clock = world'.clock := congrArg Conditions.clock conditions
  have fault : world.outbox.fault = world'.outbox.fault := congrArg Conditions.mail conditions
  have failing : world.store.failing = world'.store.failing :=
    congrArg Conditions.refused conditions
  cases stages with
  | derive users long =>
    simp only [step, services.first.codes, services.second.codes, derivedCodes]
    rcases failure?_eq_cases (deriveCode_failure_congr long users.salt) with
      ⟨error, fails, fails'⟩ | ⟨code, code', derives, derives'⟩
    · rw [fails, fails']
      exact ⟨stores, .done _⟩
    · rw [derives, derives']
      exact ⟨stores, .deliver users⟩
  | deliver users =>
    simp only [step, Outbox.send, fault]
    cases world'.outbox.fault with
    | some detail => exact ⟨stores, .done _⟩
    | none => exact ⟨stores, .date users⟩
  | date users =>
    simp only [step, clock, services.validity]
    exact ⟨stores, .issue users.id rfl⟩
  | issue user expiry =>
    by_cases refused : StoreCall.upsert ∈ world'.store.failing
    · simp only [step, Faulty.upsert_memory, Faulty.guard, failing, refused, if_true]
      exact ⟨stores, .done _⟩
    · simp only [step, Faulty.upsert_memory, Faulty.guard, failing, refused, if_false]
      exact ⟨stores.upsert user expiry, .done _⟩
  | look users intents misses misses' =>
    exact ⟨stores, look_alike failing stores users intents misses misses'⟩
  | judge users intents expiry misses misses' =>
    simp only [step, clock]
    exact ⟨stores, judge_alike _ users intents expiry misses misses'⟩
  | prove users long wrong wrong' =>
    simp only [step, services.first.processor.refuses _ _ _ wrong,
      services.second.processor.refuses _ _ _ wrong', rejection_congr long users.salt _]
    exact ⟨stores, .done _⟩
  | done outcome => exact ⟨stores, .done outcome⟩

/-- Calls that go on alike under the same readings end alike. -/
theorem attend_alike {service service' : Service} (services : service.Alike service')
    (readings : Nat → Conditions) {world world' : World (Faulty MemoryStore)} {stage stage' : Stage}
    (stores : world.store.inner.Alike world'.store.inner)
    (stages : Stage.Alike world.store.inner world'.store.inner stage stage') :
    let course := service.attend (fun stage => readings stage.remaining) world stage
    let course' := service'.attend (fun stage => readings stage.remaining) world' stage'
    course.outcome = course'.outcome ∧
      course.world.store.inner.Alike course'.world.store.inner := by
  cases running : stage.outcome? with
  | some outcome =>
    cases stages with
    | done =>
      simp only [attend_done]
      exact ⟨trivial, stores⟩
    | derive | deliver | date | issue | look | judge | prove => cases running
  | none =>
    have running' : stage'.outcome? = none := stages.outcome?_eq ▸ running
    simp only [attend_running _ _ _ running, attend_running _ _ _ running', stages.remaining_eq]
    have next : Continues (service.step (world.under (readings stage'.remaining)) stage)
        (service'.step (world'.under (readings stage'.remaining)) stage') :=
      step_alike services rfl stores stages
    obtain ⟨stores', stages'⟩ := next
    exact attend_alike services readings stores' stages'
termination_by stage.remaining
decreasing_by exact remaining_step service _ stage running

end Service

/-- Where a code is submitted, it is no pending one that it is compared with, and no derived one that
is proved. -/
def Request.Misses (store : MemoryStore) : Request → Prop
  | .start .. => True
  | .submit user code => (Intent.confirm code).Misses user (store.sessions.get? user.id)
  | .finalize user email code =>
    (Intent.prove email code).Misses user (store.sessions.get? user.id)
  | .check user email code =>
    (Intent.confirmThenProve email code).Misses user (store.sessions.get? user.id)

theorem Request.Alike.stage {store other : MemoryStore} {asked asked' : Request}
    (alike : asked.Alike asked') (misses : asked.Misses store) (misses' : asked'.Misses other) :
    Stage.Alike store other asked.stage asked'.stage := by
  cases alike with
  | start users long => exact .derive users long
  | submit users code => exact .look users (.confirm code) misses misses'
  | finalize users long code => exact .look users (.prove long code) misses misses'
  | check users long code => exact .look users (.confirmThenProve long code) misses misses'

namespace Turn

/-- Operations that differ in emails and salts alone. The stages of a request are told apart by how
many remain, and both runs meet the same conditions there. Besides the operations that derive,
compare, prove and store codes there are checks of earlier proofs: these are alike if both are made
by one verifier and it accepts the proof under both salts or under neither. -/
inductive Alike : Turn → Turn → Prop where
  | request (services : Service.Alike service service') (readings : Nat → Conditions)
    (requests : Request.Alike asked asked') :
    Alike (.request service (fun stage => readings stage.remaining) asked)
      (.request service' (fun stage => readings stage.remaining) asked')
  | verify (verifier : Verifier) (checks : service.processor.verify = verifier.verify)
    (checks' : service'.processor.verify = verifier.verify) (long : salt.length = salt'.length)
    (accepted : verifier.verify code salt proof = .ok () ↔
      verifier.verify code salt' proof = .ok ()) :
    Alike (.verify service code salt proof) (.verify service' code salt' proof)
  | isVerified (refused : List StoreCall) (user : UserId) :
    Alike (.isVerified refused user) (.isVerified refused user)

/-- The code that is submitted, if any, is no guess. -/
def Misses (store : MemoryStore) : Turn → Prop
  | .request _ _ asked => asked.Misses store
  | .verify .. | .isVerified .. => True

/-- No code is guessed in a run: each misses what the store holds by then. -/
def Unguessed (world : World (Faulty MemoryStore)) (turns : List Turn) : Prop :=
  ∀ before turn after, turns = before ++ turn :: after →
    turn.Misses (playAll world before).1.store.inner

theorem Unguessed.of_cons {world : World (Faulty MemoryStore)} {turn : Turn} {turns : List Turn}
    (unguessed : Unguessed world (turn :: turns)) :
    turn.Misses world.store.inner ∧ Unguessed (turn.play world).1 turns :=
  ⟨unguessed [] turn turns rfl, fun before next after split =>
    unguessed (turn :: before) next after (congrArg (turn :: ·) split)⟩

private theorem play_alike {turn turn' : Turn} (turns : turn.Alike turn')
    {world world' : World (Faulty MemoryStore)} (stores : world.store.inner.Alike world'.store.inner)
    (misses : turn.Misses world.store.inner) (misses' : turn'.Misses world'.store.inner) :
    (turn.play world).2.reply = (turn'.play world').2.reply ∧
      (turn.play world).1.store.inner.Alike (turn'.play world').1.store.inner := by
  cases turns with
  | request services readings requests =>
    obtain ⟨outcome, stores'⟩ :=
      Service.attend_alike services readings stores (requests.stage misses misses')
    exact ⟨congrArg Reply.ended outcome, stores'⟩
  | verify verifier checks checks' long accepted =>
    refine ⟨?_, stores⟩
    simp only [play, Service.verifyProof, checks, checks', verifier.verify_congr long accepted]
  | isVerified refused user =>
    have answered (world : World (Faulty MemoryStore)) : (play world (.isVerified refused user)).2.reply =
        .verified ((Faulty.guard ⟨world.store.inner, refused⟩ .isVerified
          (.ok (world.store.inner.isVerified user))).mapError .storage) := rfl
    rw [answered, answered, stores.verified user]
    exact ⟨rfl, stores⟩

/-- Runs that differ in emails and salts alone have the same answers. -/
theorem playAll_alike {turns turns' : List Turn} (alike : List.Forall₂ Alike turns turns')
    {world world' : World (Faulty MemoryStore)} (stores : world.store.inner.Alike world'.store.inner)
    (unguessed : Unguessed world turns) (unguessed' : Unguessed world' turns') :
    (playAll world turns).2.map Entry.reply = (playAll world' turns').2.map Entry.reply := by
  induction alike generalizing world world' with
  | nil => rfl
  | cons first rest ih =>
    obtain ⟨misses, later⟩ := unguessed.of_cons
    obtain ⟨misses', later'⟩ := unguessed'.of_cons
    obtain ⟨reply, stores'⟩ := play_alike first stores misses misses'
    rw [playAll, playAll, List.map_cons, List.map_cons, reply, ih stores' later later']

/-- Every operation is in the log with its answer. -/
theorem playAll_turns {σ : Type} [SessionStore σ] (world : World (Faulty σ)) (turns : List Turn) :
    (playAll world turns).2.map Entry.turn = turns := by
  induction turns generalizing world with
  | nil => rfl
  | cons turn turns ih => rw [playAll, List.map_cons, play_turn, ih]

/-- The codes of a request are derived ones. -/
def Derives : Turn → Prop
  | .request service _ _ => service.codes = derivedCodes
  | .verify .. | .isVerified .. => True

/-- The code that an operation submits. -/
def code? : Turn → Option String
  | .request _ _ (.submit _ code) | .request _ _ (.finalize _ _ code)
  | .request _ _ (.check _ _ code) => some code
  | _ => none

/-- Where codes are derived, the pending ones are. -/
theorem pending_derived (outbox : Outbox) (clock : Instant) {turns : List Turn}
    (derives : ∀ turn ∈ turns, turn.Derives) {user : UserId} {session : Session} :
    let run := playAll { store := ⟨({} : MemoryStore), []⟩, outbox, clock } turns
    run.1.store.inner.sessions.get? user = some session →
      ∃ email salt, deriveCode email salt = .ok session.code := by
  intro run held
  obtain ⟨_, entry, member, issues⟩ := ((Provenance.initial outbox clock).playAll turns).pending
    (MemoryStore.session_eq_ok_iff.mpr held)
  have played : entry.turn ∈ turns := by
    rw [← playAll_turns { store := ⟨({} : MemoryStore), []⟩, outbox, clock } turns]
    exact List.mem_map_of_mem member
  cases issues with
  | @issues service conditions user email _ _ _ _ own code carries delivered expires =>
    have codes : service.codes = derivedCodes := derives _ played
    rw [codes] at code
    exact ⟨email, user.salt, code⟩

/-- A text that is no code is neither pending nor derived. -/
theorem misses_of_unreadable {turn : Turn} {store : MemoryStore}
    (pending : ∀ {user session}, store.sessions.get? user = some session →
      ∃ email salt, deriveCode email salt = .ok session.code)
    (unreadable : ∀ code ∈ turn.code?, ∀ digits, CodeDigits.ofText code ≠ .ok digits) :
    turn.Misses store := by
  have underived {code : String} (submits : code ∈ turn.code?) {email salt : String} :
      deriveCode email salt ≠ .ok code := fun derives => by
    obtain ⟨_, _, _, _, reads⟩ := ofText_of_deriveCode derives
    exact unreadable code submits _ reads
  have absent {code : String} (submits : code ∈ turn.code?) (user : UserId) :
      ∀ session ∈ store.sessions.get? user, code ≠ session.code := by
    rintro session held rfl
    obtain ⟨email, salt, derives⟩ := pending held
    exact underived submits derives
  cases turn with
  | verify | isVerified => trivial
  | request service conditions asked =>
    cases asked with
    | start user email => trivial
    | submit user code => exact absent rfl user.id
    | finalize user email code => exact underived rfl
    | check user email code => exact absent rfl user.id

/-- Nobody guesses a code by texts that are none. -/
theorem unguessed_of_unreadable (outbox : Outbox) (clock : Instant) {turns : List Turn}
    (derives : ∀ turn ∈ turns, turn.Derives)
    (unreadable : ∀ turn ∈ turns, ∀ code ∈ turn.code?, ∀ digits,
      CodeDigits.ofText code ≠ .ok digits) :
    Unguessed { store := ⟨{}, []⟩, outbox, clock } turns := by
  rintro before turn after rfl
  refine misses_of_unreadable (pending_derived outbox clock fun earlier member => ?_)
    (unreadable turn (List.mem_append_right _ (List.mem_cons_self ..)))
  exact derives earlier (List.mem_append_left _ member)

end Turn

theorem MemoryStore.alike_empty : ({} : MemoryStore).Alike {} where
  sessions _ := .none
  verified _ := rfl

/-- Rejections reveal nothing. Two runs over empty stores, whose operations differ in emails and
salts that have as many characters, give the same answers and the same errors, as long as no code
is guessed in either of them. For runs of requests and queries nothing else is asked; earlier proofs
may be checked in between, where one verifier accepts them under both salts or under neither. -/
theorem rejections_reveal_nothing (outbox outbox' : Outbox) (clock clock' : Instant)
    {turns turns' : List Turn} (alike : List.Forall₂ Turn.Alike turns turns')
    (unguessed : Turn.Unguessed { store := ⟨{}, []⟩, outbox, clock } turns)
    (unguessed' : Turn.Unguessed { store := ⟨{}, []⟩, outbox := outbox', clock := clock' } turns') :
    (Turn.playAll { store := ⟨({} : MemoryStore), []⟩, outbox, clock } turns).2.map Entry.reply =
      (Turn.playAll { store := ⟨({} : MemoryStore), []⟩, outbox := outbox', clock := clock' }
        turns').2.map Entry.reply :=
  Turn.playAll_alike alike MemoryStore.alike_empty unguessed unguessed'

/-- Keys of points at infinity, with only the constant wire in the queries that have it. -/
def blankKeys : CircuitKeys :=
  let verifyingKey : VerifyingKey := ⟨.infinity, .infinity, .infinity, .infinity, []⟩
  ⟨1, ⟨verifyingKey, .infinity, .infinity, [.infinity], [.infinity], [.infinity], [], []⟩,
    verifyingKey, ⟨0, 0, 0⟩⟩

def provingService : Service where
  config := .ofAdminEmail "layer8@email.com"
  representable := Nat.le_of_ble_eq_true rfl
  codes := derivedCodes
  processor := blankKeys.processor ⟨0, 0⟩

def calm : Nat → Conditions := fun _ => ⟨⟨0⟩, none, []⟩

/-- A user asks for a code, and no text that is submitted is one. -/
def mistyped (email salt : String) : List Turn :=
  let user : User := ⟨1, "user", salt⟩
  let request := Turn.request provingService fun stage => calm stage.remaining
  [request (.start user email), request (.submit user "724B2C"), request (.check user email ""),
    request (.finalize user email "72"), .verify provingService "724b2c" salt [], .isVerified [] 1]

private theorem mistyped_alike (email email' salt salt' : String)
    (emails : email.length = email'.length)
    (salts : salt.length = salt'.length) :
    List.Forall₂ Turn.Alike (mistyped email salt) (mistyped email' salt') := by
  have refused (salt : String) : blankKeys.verifier.verify "724b2c" salt [] ≠ .ok () := nofun
  have faithful : provingService.Faithful := ⟨rfl, blankKeys.processor_faithful _⟩
  have services : provingService.Alike provingService := ⟨faithful, faithful, rfl⟩
  have users : User.Alike ⟨1, "user", salt⟩ ⟨1, "user", salt'⟩ := ⟨rfl, salts⟩
  exact .cons (.request services calm (.start users emails)) <|
    .cons (.request services calm (.submit users "724B2C")) <|
    .cons (.request services calm (.check users emails "")) <|
    .cons (.request services calm (.finalize users emails "72")) <|
    .cons (.verify blankKeys.verifier rfl rfl salts (iff_of_false (refused _) (refused _))) <|
    .cons (.isVerified [] 1) .nil

private theorem mistyped_unguessed (email salt : String) :
    Turn.Unguessed { store := ⟨{}, []⟩, clock := ⟨0⟩ } (mistyped email salt) := by
  refine Turn.unguessed_of_unreadable {} ⟨0⟩ (by simp [mistyped, Turn.Derives, provingService]) ?_
  have first : CodeDigits.ofText "724B2C" = .error (.invalidCodeCharacter 3) := by decide
  have second : CodeDigits.ofText "" = .error (.invalidCodeLength 0 6) := by decide
  have third : CodeDigits.ofText "72" = .error (.invalidCodeLength 2 6) := by decide
  simp [mistyped, Turn.code?, first, second, third]

/-- Under two users' secrets the mistyped codes are answered alike. -/
theorem rejections_reveal_nothing_mistyped :
    let start : World (Faulty MemoryStore) := { store := ⟨{}, []⟩, clock := ⟨0⟩ }
    let first := mistyped "myemail@gmail.com" "salt"
    let second := mistyped "another@mail.host" "dust"
    List.Forall₂ Turn.Alike first second ∧ Turn.Unguessed start first ∧
      Turn.Unguessed start second ∧
      (Turn.playAll start first).2.map Entry.reply =
        (Turn.playAll start second).2.map Entry.reply := by
  have alike : List.Forall₂ Turn.Alike (mistyped "myemail@gmail.com" "salt")
      (mistyped "another@mail.host" "dust") :=
    mistyped_alike _ _ _ _ (by decide) (by decide)
  exact ⟨alike, mistyped_unguessed _ _, mistyped_unguessed _ _,
    rejections_reveal_nothing {} {} ⟨0⟩ ⟨0⟩ alike (mistyped_unguessed _ _) (mistyped_unguessed _ _)⟩

end MailProof
