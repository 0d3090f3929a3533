import MailProof.Proofs.Session.Interleaving

/-! What histories say about the store and about themselves. The store holds what the events so
far have left in it, and every event is warranted by the events before it. -/

namespace MailProof

namespace Action

/-- The session of a user after an action, given the one before. -/
def pendingAfter (user : UserId) (before : Option Session) : Action → Option Session
  | .read .. | .cleared .. => before
  | .issued session => if session.user = user then some session else before
  | .consumed other _ _ => if other = user then none else before

/-- The record that a consumption leaves for a user. -/
def record? (user : UserId) : Action → Option ProofRecord
  | .consumed other _ record => if other = user then some record else none
  | _ => none

/-- The user's session is replaced or removed. -/
def Touches (user : UserId) : Action → Prop
  | .read .. | .cleared .. => False
  | .issued session => session.user = user
  | .consumed other _ _ => other = user

end Action

/-- The session that a history leaves pending for a user. -/
def pending (user : UserId) (history : List Event) : Option Session :=
  history.foldr (fun event before => event.action.pendingAfter user before) none

/-- The record of the newest consumption of a user's session. -/
def lastRecord (user : UserId) (history : List Event) : Option ProofRecord :=
  history.findSome? fun event => event.action.record? user

@[simp] theorem pending_cons (user : UserId) (event : Event) (history : List Event) :
    pending user (event :: history) = event.action.pendingAfter user (pending user history) := rfl

@[simp] theorem lastRecord_cons (user : UserId) (event : Event) (history : List Event) :
    lastRecord user (event :: history) =
      (event.action.record? user).or (lastRecord user history) := by
  rw [lastRecord, List.findSome?_cons]
  cases event.action.record? user <;> rfl

theorem Action.pendingAfter_of_untouched {user : UserId} {action : Action}
    (untouched : ¬ action.Touches user) (before : Option Session) :
    action.pendingAfter user before = before := by
  cases action with
  | read other session => rfl
  | cleared other session => rfl
  | issued session => exact if_neg untouched
  | consumed other session record => exact if_neg untouched

theorem Action.record?_of_untouched {user : UserId} {action : Action}
    (untouched : ¬ action.Touches user) : action.record? user = none := by
  cases action with
  | read other session => rfl
  | cleared other session => rfl
  | issued session => rfl
  | consumed other session record => exact if_neg untouched

/-- A pending session was the last to be issued, or it has been pending for longer; either way
the user's session has been left alone since. -/
theorem pending_of_append {user : UserId} {session : Session} {recent earlier : List Event}
    (waits : pending user (recent ++ earlier) = some session) :
    (∃ (since before : List Event) (issue : Event), recent = since ++ issue :: before ∧
      issue.action = .issued session ∧ session.user = user ∧
      ∀ event ∈ since, ¬ event.action.Touches user) ∨
    (pending user earlier = some session ∧ ∀ event ∈ recent, ¬ event.action.Touches user) := by
  induction recent with
  | nil => exact .inr ⟨waits, by simp⟩
  | cons event recent ih =>
    rw [List.cons_append, pending_cons] at waits
    by_cases touched : event.action.Touches user
    · left
      cases acted : event.action with
      | read other seen => simp [acted, Action.Touches] at touched
      | cleared other seen => simp [acted, Action.Touches] at touched
      | issued other =>
        have own : other.user = user := by simpa [acted, Action.Touches] using touched
        have same : other = session := by simpa [acted, Action.pendingAfter, own] using waits
        subst same
        exact ⟨[], recent, event, rfl, acted, own, by simp⟩
      | consumed other seen record =>
        have own : other = user := by simpa [acted, Action.Touches] using touched
        simp [acted, Action.pendingAfter, own] at waits
    · rw [Action.pendingAfter_of_untouched touched] at waits
      rcases ih waits with ⟨since, before, issue, rfl, issued, own, calm⟩ | ⟨already, calm⟩
      · exact .inl ⟨event :: since, before, issue, rfl, issued, own,
          List.forall_mem_cons.mpr ⟨touched, calm⟩⟩
      · exact .inr ⟨already, List.forall_mem_cons.mpr ⟨touched, calm⟩⟩

namespace MemoryStore

variable (store : MemoryStore) (action : Action) (user : UserId)

theorem apply_sessions : (store.apply action).sessions.get? user =
    action.pendingAfter user (store.sessions.get? user) := by
  cases action with
  | read other session => rfl
  | cleared other session => rfl
  | issued session => simp [apply, upsert, Table.get?_insert, Action.pendingAfter, eq_comm]
  | consumed other session record => simp [apply, Table.get?_erase, Action.pendingAfter, eq_comm]

theorem apply_records : (store.apply action).records.get? user =
    (action.record? user).or (store.records.get? user) := by
  cases action with
  | read other session => rfl
  | cleared other session => rfl
  | issued session => rfl
  | consumed other session record =>
    by_cases own : user = other
    · simp [apply, Table.get?_insert, Action.record?, own]
    · simp [apply, Table.get?_insert, Action.record?, own, Ne.symm own]

theorem apply_isVerified : (store.apply action).isVerified user =
    ((action.record? user).isSome || store.isVerified user) := by
  cases action with
  | read other session => rfl
  | cleared other session => rfl
  | issued session => rfl
  | consumed other session record =>
    by_cases own : user = other
    · simp [apply, isVerified, Table.get?_insert, Action.record?, own]
    · simp [apply, isVerified, Table.get?_insert, Action.record?, own, Ne.symm own]

end MemoryStore

/-- The store holds what a history has left in it. -/
structure MemoryStore.Tracks (store : MemoryStore) (history : List Event) : Prop where
  sessions : ∀ user, store.sessions.get? user = pending user history
  records : ∀ user, store.records.get? user = lastRecord user history
  verified : ∀ user, store.isVerified user = (lastRecord user history).isSome

theorem MemoryStore.Tracks.apply {store : MemoryStore} {history : List Event}
    (tracks : store.Tracks history) (event : Event) :
    (store.apply event.action).Tracks (event :: history) where
  sessions user := by rw [apply_sessions, tracks.sessions, pending_cons]
  records user := by rw [apply_records, tracks.records, lastRecord_cons]
  verified user := by
    rw [apply_isVerified, tracks.verified, lastRecord_cons, Option.isSome_or]

/-- The newest event of a call is an action. -/
def LastDid (call : Nat) (action : Action) (history : List Event) : Prop :=
  ∃ event, history.find? (·.call = call) = some event ∧ event.action = action

/-- The newest event of a call, with what lies behind and before it. -/
theorem LastDid.split {call : Nat} {action : Action} {history : List Event}
    (did : LastDid call action history) :
    ∃ (since before : List Event) (event : Event), history = since ++ event :: before ∧
      event.call = call ∧ event.action = action ∧ ∀ other ∈ since, other.call ≠ call := by
  obtain ⟨event, found, acted⟩ := did
  obtain ⟨own, since, before, rfl, others⟩ := List.find?_eq_some_iff_append.mp found
  exact ⟨since, before, event, rfl, by simpa using own, acted, by simpa using others⟩

/-- What the events before an event say of it. -/
def Warranted (earlier : List Event) (event : Event) : Prop :=
  (∀ other ∈ earlier, other.clock.nanos ≤ event.clock.nanos) ∧
  match event.action with
  | .read user session => pending user earlier = some session
  | .cleared user session =>
    event.clock.nanos < session.expiresAt.nanos ∧ LastDid event.call (.read user session) earlier
  | .issued _ => True
  | .consumed user session record =>
    pending user earlier = some session ∧ session.code = record.consumedCode ∧
      ∃ seen, LastDid event.call (.cleared user seen) earlier

/-- Every event is warranted by those before it. -/
def Lawful : List Event → Prop
  | [] => True
  | event :: earlier => Warranted earlier event ∧ Lawful earlier

theorem Lawful.split {later earlier : List Event} {event : Event}
    (lawful : Lawful (later ++ event :: earlier)) : Warranted earlier event ∧ Lawful earlier := by
  induction later with
  | nil => exact lawful
  | cons newest later ih => exact ih lawful.2

/-- What a call has done before it comes to a stage. -/
def Stage.Reached (call : Nat) (history : List Event) : Stage → Prop
  | .judge user session _ => LastDid call (.read user.id session) history
  | .prove user _ _ => ∃ session, LastDid call (.cleared user.id session) history
  | .record user _ => ∃ session, LastDid call (.cleared user session) history
  | _ => True

theorem LastDid.newest (clock : Instant) (call : Nat) (action : Action) (history : List Event) :
    LastDid call action (⟨clock, call, action⟩ :: history) :=
  ⟨⟨clock, call, action⟩, by simp, rfl⟩

theorem LastDid.of_other {call : Nat} {action : Action} {history : List Event} {event : Event}
    (did : LastDid call action history) (other : event.call ≠ call) :
    LastDid call action (event :: history) := by
  obtain ⟨last, found, acted⟩ := did
  exact ⟨last, by simpa [other] using found, acted⟩

theorem Stage.Reached.of_other {call : Nat} {stage : Stage} {history : List Event} {event : Event}
    (reached : stage.Reached call history) (other : event.call ≠ call) :
    stage.Reached call (event :: history) := by
  cases stage with
  | judge user session intent => exact LastDid.of_other reached other
  | prove user email code =>
    obtain ⟨session, did⟩ := reached
    exact ⟨session, did.of_other other⟩
  | record user record =>
    obtain ⟨session, did⟩ := reached
    exact ⟨session, did.of_other other⟩
  | _ => trivial

namespace Pool

/-- The store, the clock, the calls and the events agree with the history. -/
structure Sound (pool : Pool) : Prop where
  tracks : pool.world.store.Tracks pool.history
  clock : ∀ event ∈ pool.history, event.clock.nanos ≤ pool.world.clock.nanos
  calls : ∀ call (stage : Stage), pool.calls[call]? = some stage → stage.Reached call pool.history
  lawful : Lawful pool.history

private theorem sound_initial (outbox : Outbox) (clock : Instant) :
    (initial outbox clock).Sound where
  tracks := ⟨fun _ => rfl, fun _ => rfl, fun _ => rfl⟩
  clock := by simp [initial]
  calls := by simp [initial]
  lawful := trivial

variable {pool : Pool}

/-- The event of a stage is warranted. -/
theorem Sound.warranted (sound : pool.Sound) {call : Nat} {stage : Stage} {action : Action}
    (reached : stage.Reached call pool.history) (acts : stage.action? pool.world = some action) :
    Warranted pool.history ⟨pool.world.clock, call, action⟩ := by
  refine ⟨sound.clock, ?_⟩
  cases stage with
  | look user intent =>
    obtain ⟨session, found, rfl⟩ := Option.map_eq_some_iff.mp acts
    rwa [sound.tracks.sessions] at found
  | judge user session intent =>
    cases intent with
    | prove email code =>
      simp only [Stage.action?] at acts
      split at acts
      · cases acts
      · next live =>
        cases acts
        exact ⟨by simpa [Session.isExpiredAt] using live, reached⟩
    | confirm code => cases acts
    | confirmThenProve email code => cases acts
  | issue session =>
    cases acts
    trivial
  | record user record =>
    obtain ⟨session, found, carries, rfl⟩ := Stage.action?_record.mp acts
    rw [sound.tracks.sessions] at found
    exact ⟨found, carries, reached⟩
  | derive user email => cases acts
  | deliver user email code => cases acts
  | date user code => cases acts
  | prove user email code => cases acts
  | done outcome => cases acts

/-- A call that passes a stage has done what its next stage asks for. -/
theorem reached_step (service : Service) (world : World MemoryStore) {call : Nat} {stage : Stage}
    {history : List Event} (reached : stage.Reached call history) :
    (service.step world stage).2.Reached call
      (((stage.action? world).map (Event.mk world.clock call)).toList ++ history) := by
  cases stage with
  | derive user email => simp only [Service.step]; split <;> trivial
  | deliver user email code => simp only [Service.step]; split <;> trivial
  | date user code => trivial
  | issue session => trivial
  | look user intent =>
    cases found : world.store.sessions.get? user.id with
    | none =>
      have answer : SessionStore.session world.store user.id =
          .error (.notFound "verification session") := by
        simp only [SessionStore.session, MemoryStore.session, found]
      simp only [Service.step, answer]
      trivial
    | some session =>
      have answer : SessionStore.session world.store user.id = .ok session := by
        simp only [SessionStore.session, MemoryStore.session, found]
      simp only [Service.step, answer, Stage.action?, found]
      exact LastDid.newest ..
  | judge user session intent =>
    simp only [Service.step, Stage.afterJudge]
    split
    · trivial
    · next live =>
      cases intent with
      | confirm code => dsimp only; split <;> trivial
      | confirmThenProve email code => dsimp only; split <;> trivial
      | prove email code =>
        simp only [Stage.action?, if_neg live]
        exact ⟨session, LastDid.newest ..⟩
  | prove user email code =>
    simp only [Service.step]
    split
    · exact reached
    · trivial
  | record user record => simp only [Service.step]; split <;> trivial
  | done outcome => trivial

/-- Only the call that moves comes to another stage. -/
theorem reached_set {calls : List Stage} {call : Nat} {next : Stage} {history : List Event}
    (passed : next.Reached call history)
    (others : ∀ other, other ≠ call → ∀ found : Stage, calls[other]? = some found →
      found.Reached other history) (other : Nat) (found : Stage)
    (there : (calls.set call next)[other]? = some found) : found.Reached other history := by
  by_cases same : other = call
  · subst same
    rw [List.getElem?_set_self'] at there
    obtain ⟨_, _, rfl⟩ := Option.map_eq_some_iff.mp there
    exact passed
  · rw [List.getElem?_set_ne (Ne.symm same)] at there
    exact others other same found there

theorem Sound.resume (sound : pool.Sound) (service : Service) (call : Nat) :
    (pool.resume service call).Sound := by
  rw [Pool.resume]
  split
  · exact sound
  · next stage present =>
    have reached := sound.calls call stage present
    have passed := reached_step service pool.world reached
    have clock := service.step_clock pool.world stage
    cases acts : stage.action? pool.world with
    | none =>
      have store := service.step_store_of_none pool.world acts
      rw [acts] at passed
      refine ⟨?_, ?_, ?_, sound.lawful⟩
      · simpa [store] using sound.tracks
      · simpa [clock] using sound.clock
      · exact reached_set passed fun other _ => sound.calls other
    | some action =>
      have store := service.step_store_of_some pool.world acts
      rw [acts] at passed
      have warranted := sound.warranted reached acts
      refine ⟨?_, ?_, ?_, warranted, sound.lawful⟩
      · simpa [store] using sound.tracks.apply ⟨pool.world.clock, call, action⟩
      · simpa [clock] using sound.clock
      · exact reached_set passed fun other moved found there =>
          (sound.calls other found there).of_other (Ne.symm moved)

/-- Every move keeps the history right. -/
theorem Sound.move (sound : pool.Sound) (move : Move) : (pool.move move).Sound := by
  cases move with
  | arrive request =>
    refine ⟨sound.tracks, sound.clock, fun call stage there => ?_, sound.lawful⟩
    have there : (pool.calls ++ [request.stage])[call]? = some stage := there
    by_cases old : call < pool.calls.length
    · rw [List.getElem?_append_left old] at there
      exact sound.calls call stage there
    · rw [List.getElem?_append_right (Nat.le_of_not_lt old)] at there
      rw [List.mem_singleton.mp (List.mem_of_getElem? there)]
      cases request <;> trivial
  | resume service call => exact sound.resume service call
  | tick nanos =>
    refine ⟨sound.tracks, fun event member => ?_, sound.calls, sound.lawful⟩
    exact Int.le_trans (sound.clock event member) (Int.le_add_of_nonneg_right (Int.natCast_nonneg nanos))
  | mail fault => exact ⟨sound.tracks, sound.clock, sound.calls, sound.lawful⟩

theorem sound_run (outbox : Outbox) (clock : Instant) (moves : List Move) :
    ((initial outbox clock).run moves).Sound :=
  run_invariant moves (fun _ move sound => sound.move move) (sound_initial outbox clock)

end Pool

end MailProof
