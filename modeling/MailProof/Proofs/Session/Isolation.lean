import MailProof.Proofs.Session.Failure

/-! Isolation of users. A call reads and changes only what the store holds for its own user, so what
other users do shows neither in the answers to a user nor in what is kept for the user. -/

namespace MailProof

namespace MemoryStore

/-- Stores that hold the same for a user. -/
structure AgreesOn (user : UserId) (store other : MemoryStore) : Prop where
  session : store.sessions.get? user = other.sessions.get? user
  record : store.records.get? user = other.records.get? user
  verified : store.isVerified user = other.isVerified user

/-- Stores that nobody can tell apart. -/
structure HoldsSame (store other : MemoryStore) : Prop where
  users : ∀ user, AgreesOn user store other
  keyPairs : store.keyPairs = other.keyPairs

namespace AgreesOn

variable {user : UserId} {store other third : MemoryStore}

theorem refl (user : UserId) (store : MemoryStore) : store.AgreesOn user store := ⟨rfl, rfl, rfl⟩

theorem symm (agrees : store.AgreesOn user other) : other.AgreesOn user store :=
  ⟨agrees.session.symm, agrees.record.symm, agrees.verified.symm⟩

theorem trans (agrees : store.AgreesOn user other) (further : other.AgreesOn user third) :
    store.AgreesOn user third :=
  ⟨agrees.session.trans further.session, agrees.record.trans further.record,
    agrees.verified.trans further.verified⟩

private theorem apply (agrees : store.AgreesOn user other) (action : Action) :
    (store.apply action).AgreesOn user (other.apply action) where
  session := by rw [apply_sessions, apply_sessions, agrees.session]
  record := by rw [apply_records, apply_records, agrees.record]
  verified := by rw [apply_isVerified, apply_isVerified, agrees.verified]

private theorem of_untouched {action : Action} (untouched : ¬ action.Touches user)
    (store : MemoryStore) :
    (store.apply action).AgreesOn user store where
  session := by rw [apply_sessions, Action.pendingAfter_of_untouched untouched]
  record := by rw [apply_records, Action.record?_of_untouched untouched, Option.none_or]
  verified := by
    rw [apply_isVerified, Action.record?_of_untouched untouched, Option.isSome_none, Bool.false_or]

/-- Stores that hold the same for a user answer alike when the user's session is to be consumed. -/
theorem finalize (agrees : store.AgreesOn user other) (record : ProofRecord) :
    (∃ session, store.finalize user record = .ok (store.apply (.consumed user session record)) ∧
      other.finalize user record = .ok (other.apply (.consumed user session record))) ∨
    (store.finalize user record = .error (.sessionConsumed user) ∧
      other.finalize user record = .error (.sessionConsumed user)) := by
  by_cases carried : ∃ session, store.sessions.get? user = some session ∧
      session.code = record.consumedCode
  · obtain ⟨session, found, carries⟩ := carried
    left
    refine ⟨session, ?_, ?_⟩
    · exact (finalize_eq_ok_iff _ _ _ _).mpr ⟨session, found, carries, rfl⟩
    · exact (finalize_eq_ok_iff _ _ _ _).mpr ⟨session, agrees.session ▸ found, carries, rfl⟩
  · right
    constructor
    · exact finalize_of_mismatch fun session stored carries =>
        carried ⟨session, session_eq_ok_iff.mp stored, carries⟩
    · exact finalize_of_mismatch fun session stored carries =>
        carried ⟨session, agrees.session.trans (session_eq_ok_iff.mp stored), carries⟩

end AgreesOn

/-- Nothing has changed but what is kept for the user. -/
structure ChangesOnly (user : UserId) (before after : MemoryStore) : Prop where
  others : ∀ bystander, bystander ≠ user → after.AgreesOn bystander before
  keyPairs : after.keyPairs = before.keyPairs

namespace ChangesOnly

variable {user : UserId} {before after : MemoryStore}

theorem refl (user : UserId) (store : MemoryStore) : ChangesOnly user store store :=
  ⟨fun bystander _ => .refl bystander store, rfl⟩

private theorem apply (changes : ChangesOnly user before after) {action : Action}
    (touches : ∀ touched, action.Touches touched → touched = user) :
    ChangesOnly user before (after.apply action) where
  others bystander foreign := by
    have untouched : ¬ action.Touches bystander := fun touched => foreign (touches bystander touched)
    exact (AgreesOn.of_untouched untouched after).trans (changes.others bystander foreign)
  keyPairs := by
    rw [← changes.keyPairs]
    cases action <;> rfl

end ChangesOnly

end MemoryStore

/-- A stage of a call of the user. -/
def Stage.IsOf (user : UserId) : Stage → Prop
  | .derive owner _ | .deliver owner _ _ | .date owner _ | .look owner _ | .judge owner _ _
  | .prove owner _ _ => owner.id = user
  | .issue session => session.user = user
  | .record owner _ => owner = user
  | .done _ => True

namespace Service

variable (service : Service) {user : UserId} {stage : Stage}

private theorem step_isOf (world : World (Faulty MemoryStore)) (own : stage.IsOf user) :
    (service.step world stage).2.IsOf user := by
  cases stage with
  | derive owner email =>
    simp only [step]
    split
    · exact own
    · trivial
  | deliver owner email code =>
    simp only [step]
    split
    · exact own
    · trivial
  | date owner code => exact own
  | issue session => simp only [step]; split <;> trivial
  | look owner intent =>
    simp only [step, Stage.afterLook]
    split
    · exact own
    · trivial
    · trivial
  | judge owner session intent =>
    simp only [step, Stage.afterJudge]
    split
    · trivial
    · cases intent with
      | confirm code => dsimp only; split <;> trivial
      | confirmThenProve email code =>
        dsimp only
        split
        · exact own
        · trivial
      | prove email code => exact own
  | prove owner email code =>
    simp only [step]
    split
    · exact own
    · trivial
  | record owner record => simp only [step]; split <;> trivial
  | done outcome => trivial

/-- A stage does at most one thing to the store, and it does it to the rows of its user. -/
theorem step_applies (world : World (Faulty MemoryStore)) (own : stage.IsOf user) :
    (service.step world stage).1.store.inner = world.store.inner ∨
    ∃ action : Action, (∀ touched, action.Touches touched → touched = user) ∧
      (service.step world stage).1.store.inner = world.store.inner.apply action := by
  cases stage with
  | derive owner email => simp only [step]; split <;> exact .inl rfl
  | deliver owner email code => simp only [step]; split <;> exact .inl rfl
  | date owner code => exact .inl rfl
  | issue session =>
    simp only [step]
    split
    · next later stored =>
      obtain ⟨_, inner, kept, rfl⟩ := Faulty.upsert_eq_ok_iff.mp stored
      cases kept
      exact .inr ⟨.issued session, fun touched touches => touches.symm.trans own, rfl⟩
    · exact .inl rfl
  | look owner intent => exact .inl rfl
  | judge owner session intent => exact .inl rfl
  | prove owner email code => simp only [step]; split <;> exact .inl rfl
  | record owner record =>
    simp only [step]
    split
    · next later stored =>
      obtain ⟨_, inner, kept, rfl⟩ := Faulty.finalize_eq_ok_iff.mp stored
      obtain ⟨session, _, _, rfl⟩ := (MemoryStore.finalize_eq_ok_iff _ _ _ _).mp kept
      exact .inr ⟨.consumed owner session record, fun touched touches => touches.symm.trans own, rfl⟩
    · exact .inl rfl
  | done outcome => exact .inl rfl

/-- What a stage does and learns depends on what the store holds for its user. -/
theorem step_agrees {world other : World (Faulty MemoryStore)} (own : stage.IsOf user)
    (conditions : world.conditions = other.conditions)
    (agrees : world.store.inner.AgreesOn user other.store.inner) :
    (service.step world stage).2 = (service.step other stage).2 ∧
      (service.step world stage).1.store.inner.AgreesOn user
        (service.step other stage).1.store.inner := by
  have clock : world.clock = other.clock := congrArg Conditions.clock conditions
  have fault : world.outbox.fault = other.outbox.fault := congrArg Conditions.mail conditions
  have failing : world.store.failing = other.store.failing := congrArg Conditions.refused conditions
  cases stage with
  | derive owner email => simp only [step]; split <;> exact ⟨rfl, agrees⟩
  | deliver owner email code =>
    simp only [step, Outbox.send, fault]
    cases other.outbox.fault with
    | some detail => exact ⟨rfl, agrees⟩
    | none => exact ⟨rfl, agrees⟩
  | date owner code =>
    simp only [step, clock]
    exact ⟨trivial, agrees⟩
  | issue session =>
    simp only [step, Faulty.upsert_memory, Faulty.guard, failing]
    by_cases refused : StoreCall.upsert ∈ other.store.failing
    · simp only [refused, if_true]
      exact ⟨trivial, agrees⟩
    · simp only [refused, if_false]
      exact ⟨trivial, agrees.apply (.issued session)⟩
  | look owner intent =>
    cases own
    simp only [step, Faulty.session_memory, Faulty.guard, failing, MemoryStore.session, agrees.session]
    exact ⟨trivial, agrees⟩
  | judge owner session intent =>
    simp only [step, clock]
    exact ⟨trivial, agrees⟩
  | prove owner email code => simp only [step]; split <;> exact ⟨rfl, agrees⟩
  | record owner record =>
    cases own
    simp only [step, Faulty.finalize_memory, Faulty.guard, failing]
    by_cases refused : StoreCall.finalize ∈ other.store.failing
    · simp only [refused, if_true]
      exact ⟨trivial, agrees⟩
    · simp only [refused, if_false]
      rcases agrees.finalize record with ⟨session, kept, kept'⟩ | ⟨fails, fails'⟩
      · simp only [kept, kept', Except.map]
        exact ⟨trivial, agrees.apply _⟩
      · simp only [fails, fails', Except.map]
        exact ⟨trivial, agrees⟩
  | done outcome => exact ⟨rfl, agrees⟩

variable (conditions : Stage → Conditions)

/-- A call changes nothing but what is kept for its user. -/
theorem attend_changesOnly (world : World (Faulty MemoryStore)) (own : stage.IsOf user) :
    MemoryStore.ChangesOnly user world.store.inner
      (service.attend conditions world stage).world.store.inner := by
  have kept := service.attend_invariant conditions
    (fun reached _ stage => stage.IsOf user ∧
      MemoryStore.ChangesOnly user world.store.inner reached.store.inner)
    (fun _ _ _ _ holds => holds)
    (fun reached _ stage _ ⟨own, changes⟩ => by
      refine ⟨service.step_isOf reached own, ?_⟩
      rcases service.step_applies reached own with same | ⟨action, touches, applied⟩
      · rw [same]
        exact changes
      · rw [applied]
        exact changes.apply touches)
    world [] stage ⟨own, .refl user _⟩
  exact kept.2

/-- A call goes alike over stores that hold the same for its user. -/
theorem attend_agrees {world other : World (Faulty MemoryStore)} (own : stage.IsOf user)
    (agrees : world.store.inner.AgreesOn user other.store.inner) :
    (service.attend conditions world stage).passed = (service.attend conditions other stage).passed ∧
    (service.attend conditions world stage).outcome =
      (service.attend conditions other stage).outcome ∧
    (service.attend conditions world stage).world.store.inner.AgreesOn user
      (service.attend conditions other stage).world.store.inner := by
  have lockstep := service.attend_lockstep conditions
    (fun reached met stage =>
      stage.IsOf user ∧ MemoryStore.AgreesOn user reached.store.inner met.store.inner)
    (fun {reached met stage} _ ⟨own, agrees⟩ => by
      have conditioned : (reached.under (conditions stage)).conditions =
          (met.under (conditions stage)).conditions := rfl
      obtain ⟨next, kept⟩ := service.step_agrees own conditioned agrees
      exact ⟨next, service.step_isOf _ own, kept⟩)
    ⟨own, agrees⟩
  exact ⟨lockstep.1, lockstep.2.1, lockstep.2.2.2⟩

end Service

/-- Who makes a request. -/
def Request.asker : Request → User
  | .start user _ | .submit user _ | .finalize user _ _ | .check user _ _ => user

theorem Request.stage_isOf (asked : Request) : asked.stage.IsOf asked.asker.id := by
  cases asked <;> rfl

/-- The user that an operation is about. A check of an earlier proof is about nobody. -/
def Turn.user? : Turn → Option UserId
  | .request _ _ asked => some asked.asker.id
  | .isVerified _ user => some user
  | .verify .. => none

/-- An operation by a user: it is about that user, if it is about one. -/
structure UserTurn where
  user : UserId
  turn : Turn
  own : ∀ other ∈ turn.user?, other = user

namespace UserTurn

/-- The operations of a user alone. -/
def alone (user : UserId) (turns : List UserTurn) : List Turn :=
  (turns.filter (·.user = user)).map turn

/-- The answers to a user in a log of operations. -/
def answersTo (user : UserId) (turns : List UserTurn) (log : List Entry) : List Entry :=
  ((turns.zip log).filter (·.1.user = user)).map (·.2)

private theorem alone_own (asked : UserTurn) (turns : List UserTurn) :
    alone asked.user (asked :: turns) = asked.turn :: alone asked.user turns := by
  simp [alone]

private theorem alone_foreign {asked : UserTurn} {user : UserId} (foreign : asked.user ≠ user)
    (turns : List UserTurn) : alone user (asked :: turns) = alone user turns := by
  simp [alone, foreign]

private theorem alone_exchange {first second : UserTurn} (different : first.user ≠ second.user)
    (turns : List UserTurn) (user : UserId) :
    alone user (first :: second :: turns) = alone user (second :: first :: turns) := by
  by_cases own : first.user = user
  · subst own
    rw [alone_own, alone_foreign (Ne.symm different), alone_foreign (Ne.symm different), alone_own]
  · by_cases own' : second.user = user
    · subst own'
      rw [alone_foreign own, alone_own, alone_own, alone_foreign own]
    · rw [alone_foreign own, alone_foreign own', alone_foreign own', alone_foreign own]

private theorem answersTo_own (asked : UserTurn) (turns : List UserTurn) (entry : Entry)
    (log : List Entry) :
    answersTo asked.user (asked :: turns) (entry :: log) =
      entry :: answersTo asked.user turns log := by
  simp [answersTo]

private theorem answersTo_foreign {asked : UserTurn} {user : UserId} (foreign : asked.user ≠ user)
    (turns : List UserTurn) (entry : Entry) (log : List Entry) :
    answersTo user (asked :: turns) (entry :: log) = answersTo user turns log := by
  simp [answersTo, foreign]

variable {world other : World (Faulty MemoryStore)} {user : UserId}

private theorem play_changesOnly (asked : UserTurn) (world : World (Faulty MemoryStore)) :
    MemoryStore.ChangesOnly asked.user world.store.inner
      (asked.turn.play world).1.store.inner := by
  obtain ⟨user, turn, own⟩ := asked
  cases turn with
  | request service conditions request =>
    obtain rfl := own request.asker.id rfl
    exact service.attend_changesOnly conditions world request.stage_isOf
  | verify service code salt proof => exact .refl user _
  | isVerified refused about => exact .refl user _

private theorem play_agrees (asked : UserTurn)
    (agrees : world.store.inner.AgreesOn asked.user other.store.inner) :
    (asked.turn.play world).2 = (asked.turn.play other).2 ∧
      (asked.turn.play world).1.store.inner.AgreesOn asked.user
        (asked.turn.play other).1.store.inner := by
  obtain ⟨user, turn, own⟩ := asked
  cases turn with
  | request service conditions request =>
    obtain rfl := own request.asker.id rfl
    obtain ⟨passed, outcome, kept⟩ :=
      service.attend_agrees conditions request.stage_isOf agrees
    simp only [Turn.play, passed, outcome]
    exact ⟨trivial, kept⟩
  | verify service code salt proof => exact ⟨rfl, agrees⟩
  | isVerified refused about =>
    obtain rfl := own about rfl
    refine ⟨?_, agrees⟩
    simp only [Turn.play, Service.isVerified, Faulty.isVerified_memory, World.under, Faulty.guard,
      agrees.verified]

/-- Without the operations of other users, a user's operations go as they did. -/
theorem playAll_alone (turns : List UserTurn)
    (agrees : world.store.inner.AgreesOn user other.store.inner) :
    answersTo user turns (Turn.playAll world (turns.map turn)).2 =
      (Turn.playAll other (alone user turns)).2 ∧
    (Turn.playAll world (turns.map turn)).1.store.inner.AgreesOn user
      (Turn.playAll other (alone user turns)).1.store.inner := by
  -- The runs drift apart in what they hold for other users, so only the agreement on this one is
  -- carried along.
  induction turns generalizing world other with
  | nil => exact ⟨rfl, agrees⟩
  | cons asked turns ih =>
    by_cases own : asked.user = user
    · subst own
      obtain ⟨answer, kept⟩ := asked.play_agrees agrees
      obtain ⟨answers, final⟩ := ih kept
      simp only [List.map_cons, Turn.playAll, answersTo_own, alone_own, answer, answers]
      exact ⟨trivial, final⟩
    · have kept := (asked.play_changesOnly world).others user (Ne.symm own)
      obtain ⟨answers, final⟩ := ih (kept.trans agrees)
      simp only [List.map_cons, Turn.playAll, answersTo_foreign own, alone_foreign own, answers]
      exact ⟨trivial, final⟩

private theorem playAll_keyPairs (world : World (Faulty MemoryStore)) (turns : List UserTurn) :
    (Turn.playAll world (turns.map turn)).1.store.inner.keyPairs = world.store.inner.keyPairs := by
  induction turns generalizing world with
  | nil => rfl
  | cons asked turns ih => exact (ih _).trans (asked.play_changesOnly world).keyPairs

/-- How the operations of different users are interleaved shows nowhere. -/
theorem playAll_interleaved (world : World (Faulty MemoryStore)) {turns turns' : List UserTurn}
    (same : ∀ user, alone user turns = alone user turns') :
    (∀ user, answersTo user turns (Turn.playAll world (turns.map turn)).2 =
      answersTo user turns' (Turn.playAll world (turns'.map turn)).2) ∧
    (Turn.playAll world (turns.map turn)).1.store.inner.HoldsSame
      (Turn.playAll world (turns'.map turn)).1.store.inner := by
  have course (user : UserId) := playAll_alone turns (.refl user world.store.inner)
  have course' (user : UserId) := playAll_alone turns' (.refl user world.store.inner)
  refine ⟨fun user => ?_, fun user => ?_, ?_⟩
  · rw [(course user).1, (course' user).1, same user]
  · have agrees := (course user).2
    rw [same user] at agrees
    exact agrees.trans (course' user).2.symm
  · rw [playAll_keyPairs, playAll_keyPairs]

private theorem playAll_exchange (world : World (Faulty MemoryStore)) {first second : UserTurn}
    (different : first.user ≠ second.user) :
    (Turn.playAll world [first.turn, second.turn]).2 =
      (Turn.playAll world [second.turn, first.turn]).2.reverse ∧
    (Turn.playAll world [first.turn, second.turn]).1.store.inner.HoldsSame
      (Turn.playAll world [second.turn, first.turn]).1.store.inner := by
  have after {asked earlier : UserTurn} (foreign : asked.user ≠ earlier.user) :
      (asked.turn.play (earlier.turn.play world).1).2 = (asked.turn.play world).2 :=
    (asked.play_agrees ((earlier.play_changesOnly world).others asked.user foreign)).1
  constructor
  · simp only [Turn.playAll, after different, after (Ne.symm different), List.reverse_cons,
      List.reverse_nil, List.nil_append, List.cons_append]
  · have same : ∀ user, alone user [first, second] = alone user [second, first] :=
      alone_exchange different []
    exact (playAll_interleaved world same).2

end UserTurn

/-- Users are isolated. In every run, whatever fails in it, the operations of a user are answered as
in the run of these operations alone, which leaves the user the same session, record and mark. So
two operations of different users can be exchanged, and runs that interleave the operations of
different users in different ways give every user the same answers and leave the same store. -/
theorem users_isolated (world : World (Faulty MemoryStore)) :
    (∀ (turns : List UserTurn) (user : UserId),
      let whole := Turn.playAll world (turns.map UserTurn.turn)
      let alone := Turn.playAll world (UserTurn.alone user turns)
      UserTurn.answersTo user turns whole.2 = alone.2 ∧
      whole.1.store.inner.AgreesOn user alone.1.store.inner) ∧
    (∀ first second : UserTurn, first.user ≠ second.user →
      let forth := Turn.playAll world [first.turn, second.turn]
      let back := Turn.playAll world [second.turn, first.turn]
      forth.2 = back.2.reverse ∧ forth.1.store.inner.HoldsSame back.1.store.inner) ∧
    ∀ turns turns' : List UserTurn,
      (∀ user, UserTurn.alone user turns = UserTurn.alone user turns') →
      let run := Turn.playAll world (turns.map UserTurn.turn)
      let run' := Turn.playAll world (turns'.map UserTurn.turn)
      (∀ user, UserTurn.answersTo user turns run.2 = UserTurn.answersTo user turns' run'.2) ∧
      run.1.store.inner.HoldsSame run'.1.store.inner :=
  ⟨fun turns user => UserTurn.playAll_alone turns (.refl user world.store.inner),
    fun _ _ different => UserTurn.playAll_exchange world different,
    fun _ _ same => UserTurn.playAll_interleaved world same⟩

def secondUser : User := ⟨2, "second", "kfdkdkwopgrtqqwoytkfaasjsjdja"⟩

def atOnce : Stage → Conditions := fun _ => { clock := ⟨0⟩ }

/-- A request that meets nothing unusual. -/
def promptly (asked : Request) : UserTurn where
  user := asked.asker.id
  turn := .request fixedService atOnce asked
  own _ about := (Option.some.inj about).symm

/-- While one user confirms a code, another user asks for one. -/
theorem users_isolated_twoUsers :
    let stored : MemoryStore := { sessions := ⟨[(1, slowSession)]⟩ }
    let world : World (Faulty MemoryStore) := { store := ⟨stored, []⟩, clock := ⟨0⟩ }
    let check := promptly (.check slowUser "myemail@gmail.com" "724b2c")
    let start := promptly (.start secondUser "second@gmail.com")
    let forth := Turn.playAll world [start.turn, check.turn]
    let back := Turn.playAll world [check.turn, start.turn]
    (UserTurn.answersTo 1 [start, check] forth.2).map Entry.reply =
      [.ended (.ok (.recorded slowRecord))] ∧
    start.user ≠ check.user ∧ forth.2 = back.2.reverse ∧
    (∀ user, UserTurn.alone user [start, check] = UserTurn.alone user [check, start]) ∧
    (UserTurn.answersTo 1 [check, start] back.2).map Entry.reply =
      [.ended (.ok (.recorded slowRecord))] ∧
    forth.1.store.inner.HoldsSame back.1.store.inner := by
  intro stored world check start forth back
  have different : start.user ≠ check.user := by decide
  have same := UserTurn.alone_exchange different []
  obtain ⟨isolated, exchanged, interleaved⟩ := users_isolated world
  obtain ⟨answers, stores⟩ := interleaved _ _ same
  have pending : world.store.inner.session slowUser.id = .ok slowSession := rfl
  have live : (0 : Int) < slowSession.expiresAt.nanos := by decide
  have recorded : (fixedService.attend atOnce world
      (.look slowUser (.confirmThenProve "myemail@gmail.com" "724b2c"))).outcome =
      .ok (.recorded slowRecord) :=
    fixedService.attend_confirmThenProve pending (fun _ => rfl) (fun _ => live) rfl
  have aside : UserTurn.answersTo 1 [start, check] forth.2 =
      (Turn.playAll world [check.turn]).2 := (isolated [start, check] 1).1
  have told : (UserTurn.answersTo 1 [start, check] forth.2).map Entry.reply =
      [.ended (.ok (.recorded slowRecord))] := by
    rw [aside]
    exact congrArg (fun outcome => [Reply.ended outcome]) recorded
  refine ⟨told, different, (exchanged _ _ different).1, same, ?_, stores⟩
  rw [← told]
  exact congrArg (List.map Entry.reply) (answers 1).symm

end MailProof
