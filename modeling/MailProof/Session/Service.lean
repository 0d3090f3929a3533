import MailProof.Config
import MailProof.Mail
import MailProof.Processor
import MailProof.Session.Store

/-! The verification service. A call runs through stages, each a single atomic access to
the code derivation, the mail, the clock, the store or the proof processor; calls that
run at the same time interleave their stages. -/

namespace MailProof

structure Service where
  config : Config
  /-- The validity can be added to a time. -/
  representable : config.codeValidity.nanos ≤ Duration.longest.nanos
  codes : User → (email : String) → Except CryptoError String
  processor : Processor

/-- Codes derived from the email and the user's salt. -/
def derivedCodes (user : User) (email : String) : Except CryptoError String :=
  deriveCode email user.salt

/-- Refuses a validity that cannot be added to a time. -/
def Service.new (config : Config) (codes : User → String → Except CryptoError String)
    (processor : Processor) : Except ConfigError Service :=
  if representable : config.codeValidity.nanos ≤ Duration.longest.nanos then
    .ok { config, representable, codes, processor }
  else
    .error (.invalid "code_validity" "Source duration value is out of range for the target type")

/-- What the stages of all calls share. -/
structure World (σ : Type) where
  store : σ
  outbox : Outbox := {}
  clock : Instant

inductive Request where
  /-- Mail a fresh code and record it as the pending session. -/
  | start (user : User) (email : String)
  /-- Check a code against the pending session. -/
  | submit (user : User) (code : String)
  /-- Prove a code and consume the pending session. -/
  | finalize (user : User) (email code : String)
  /-- Submit, then finalize. -/
  | check (user : User) (email code : String)
  deriving DecidableEq, Repr

inductive Answer where
  | issued
  | confirmed (session : Session)
  | recorded (record : ProofRecord)
  deriving DecidableEq, Repr

abbrev Outcome := Except VerificationError Answer

/-- What a call does with the live session that it looks up. -/
inductive Intent where
  | confirm (code : String)
  | confirmThenProve (email code : String)
  | prove (email code : String)
  deriving DecidableEq, Repr

/-- The next access of a call, with what the call has learned. -/
inductive Stage where
  | derive (user : User) (email : String)
  | deliver (user : User) (email code : String)
  | date (user : User) (code : String)
  | issue (session : Session)
  | look (user : User) (intent : Intent)
  | judge (user : User) (session : Session) (intent : Intent)
  | prove (user : User) (email code : String)
  | record (user : UserId) (record : ProofRecord)
  | done (outcome : Outcome)

/-- First stage of a request. -/
def Request.stage : Request → Stage
  | .start user email => .derive user email
  | .submit user code => .look user (.confirm code)
  | .finalize user email code => .look user (.prove email code)
  | .check user email code => .look user (.confirmThenProve email code)

namespace Stage

def fail (error : VerificationError) : Stage := .done (.error error)

/-- Looking a session up only turns its absence into an answer for the user. -/
def afterLook (user : User) (intent : Intent) : Except StorageError Session → Stage
  | .ok session => .judge user session intent
  | .error (.notFound _) => fail (.notFound user.id)
  | .error error => fail (.storage error)

/-- A session is judged by the clock first and then by the submitted code. -/
def afterJudge (user : User) (session : Session) (now : Instant) (intent : Intent) : Stage :=
  if session.isExpiredAt now then fail .expired
  else
    match intent with
    | .confirm code =>
      if code = session.code then .done (.ok (.confirmed session)) else fail .mismatch
    | .confirmThenProve email code =>
      if code = session.code then .look user (.prove email code) else fail .mismatch
    | .prove email code => .prove user email code

/-- The outcome of a call that has ended. -/
def outcome? : Stage → Option Outcome
  | .done outcome => some outcome
  | _ => none

/-- Number of stages that a call can still pass. -/
def remaining : Stage → Nat
  | .derive .. => 4
  | .deliver .. => 3
  | .date .. => 2
  | .issue .. => 1
  | .look _ (.confirm ..) => 2
  | .look _ (.prove ..) => 4
  | .look _ (.confirmThenProve ..) => 6
  | .judge _ _ (.confirm ..) => 1
  | .judge _ _ (.prove ..) => 3
  | .judge _ _ (.confirmThenProve ..) => 5
  | .prove .. => 2
  | .record .. => 1
  | .done .. => 0

end Stage

namespace Service

variable {σ : Type} [SessionStore σ]

/-- One stage of a call. A stage that fails leaves the world as it was. -/
def step (service : Service) (world : World σ) : Stage → World σ × Stage
  | .derive user email =>
    match service.codes user email with
    | .ok code => (world, .deliver user email code)
    | .error error => (world, .fail (.ofCrypto error))
  | .deliver user email code =>
    let config := service.config
    let message :=
      verificationEmail config.adminEmail config.senderDisplayName email user.username code
    match world.outbox.send message with
    | .ok outbox => ({ world with outbox }, .date user code)
    | .error error => (world, .fail (.mail error))
  | .date user code =>
    (world, .issue ⟨user.id, code, world.clock.later service.config.codeValidity⟩)
  | .issue session =>
    match SessionStore.upsert world.store session with
    | .ok store => ({ world with store }, .done (.ok .issued))
    | .error error => (world, .fail (.storage error))
  | .look user intent =>
    (world, .afterLook user intent (SessionStore.session world.store user.id))
  | .judge user session intent => (world, .afterJudge user session world.clock intent)
  | .prove user email code =>
    match service.processor.generate email user.salt code with
    | .ok (proof, keyPair) => (world, .record user.id ⟨proof, keyPair, code⟩)
    | .error error => (world, .fail (.ofCrypto error))
  | .record user record =>
    match SessionStore.finalize world.store user record with
    | .ok store => ({ world with store }, .done (.ok (.recorded record)))
    | .error error => (world, .fail (.storage error))
  | .done outcome => (world, .done outcome)

theorem remaining_step (service : Service) (world : World σ) (stage : Stage)
    (running : stage.outcome? = none) :
    (service.step world stage).2.remaining < stage.remaining := by
  cases stage with
  | derive user email => simp only [step]; split <;> simp [Stage.remaining, Stage.fail]
  | deliver user email code => simp only [step]; split <;> simp [Stage.remaining, Stage.fail]
  | date user code => simp [step, Stage.remaining]
  | issue session => simp only [step]; split <;> simp [Stage.remaining, Stage.fail]
  | look user intent =>
    simp only [step, Stage.afterLook]
    split <;> cases intent <;> simp [Stage.remaining, Stage.fail]
  | judge user session intent =>
    simp only [step, Stage.afterJudge]
    split
    · cases intent <;> simp [Stage.remaining, Stage.fail]
    · cases intent <;> simp only <;> (try split) <;> simp [Stage.remaining, Stage.fail]
  | prove user email code => simp only [step]; split <;> simp [Stage.remaining, Stage.fail]
  | record user record => simp only [step]; split <;> simp [Stage.remaining, Stage.fail]
  | done outcome => simp [Stage.outcome?] at running

/-- Run the remaining stages of a call without interruption. -/
def finish (service : Service) (world : World σ) (stage : Stage) : World σ × Outcome :=
  match _running : stage.outcome? with
  | some outcome => (world, outcome)
  | none =>
    let next := service.step world stage
    finish service next.1 next.2
termination_by stage.remaining
decreasing_by exact remaining_step service world stage ‹_›

/-- Serve a request alone. -/
def serve (service : Service) (world : World σ) (request : Request) : World σ × Outcome :=
  service.finish world request.stage

/-- Check a proof produced earlier. -/
def verifyProof (service : Service) (code salt : String) (proof : Bytes) :
    Except VerificationError Unit :=
  (service.processor.verify code salt proof).mapError .ofCrypto

/-- Whether the user completed a verification. -/
def isVerified (world : World σ) (user : UserId) : Except VerificationError Bool :=
  (SessionStore.isVerified world.store user).mapError .storage

end Service

end MailProof
