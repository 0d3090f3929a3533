import MailProof.Bytes

/-! What readers take. A reader takes some bytes if it takes exactly them off every input that
begins with them, so readers in a row take the bytes of the first and then those of the next. It
starves on the bytes if it fails on all inputs that end before they do. In the other direction, a
reader yields a property if all values that it reads have it, and it takes a form if all bytes that
it takes have the form of the value. -/

namespace MailProof.Reader

private theorem bind_of_ok {reader : Reader ε α} {input rest : Bytes} {value : α}
    (reads : reader input = .ok (value, rest)) (continue_ : α → Reader ε β) :
    (reader >>= continue_) input = continue_ value rest := by
  have chained : (reader >>= continue_) input =
      reader input >>= fun taken => continue_ taken.1 taken.2 := rfl
  rw [chained, reads]
  rfl

private theorem bind_of_error {reader : Reader ε α} {input : Bytes} {cause : ε}
    (fails : reader input = .error cause) (continue_ : α → Reader ε β) :
    (reader >>= continue_) input = .error cause := by
  have chained : (reader >>= continue_) input =
      reader input >>= fun taken => continue_ taken.1 taken.2 := rfl
  rw [chained, fails]
  rfl

/-- Readers in a row succeed one after the other. -/
theorem bind_eq_ok {reader : Reader ε α} {continue_ : α → Reader ε β} {input rest : Bytes}
    {result : β} (reads : (reader >>= continue_) input = .ok (result, rest)) :
    ∃ value middle, reader input = .ok (value, middle) ∧
      continue_ value middle = .ok (result, rest) := by
  cases taken : reader input with
  | error cause => cases (bind_of_error taken continue_).symm.trans reads
  | ok pair => exact ⟨pair.1, pair.2, rfl, (bind_of_ok taken continue_).symm.trans reads⟩

/-- The reader takes these bytes off the front of an input, whatever follows, for a value. -/
def Reads (reader : Reader ε α) (bytes : Bytes) (value : α) : Prop :=
  ∀ rest, reader (bytes ++ rest) = .ok (value, rest)

theorem Reads.pure (value : α) : (pure value : Reader ε α).Reads [] value := fun _ => rfl

theorem Reads.bind {reader : Reader ε α} {continue_ : α → Reader ε β} {front back : Bytes}
    {value : α} {result : β} (first : reader.Reads front value)
    (next : (continue_ value).Reads back result) :
    (reader >>= continue_).Reads (front ++ back) result := by
  intro rest
  rw [List.append_assoc, bind_of_ok (first (back ++ rest))]
  exact next rest

/-- A last step that takes nothing. -/
theorem Reads.map {reader : Reader ε α} {continue_ : α → Reader ε β} {bytes : Bytes} {value : α}
    {result : β} (first : reader.Reads bytes value) (next : (continue_ value).Reads [] result) :
    (reader >>= continue_).Reads bytes result := by
  have whole := first.bind next
  rwa [List.append_nil] at whole

/-- A passed check takes nothing. -/
theorem Reads.check {outcome : Except ε α} {value : α} (passed : outcome = .ok value) :
    (liftM outcome : Reader ε α).Reads [] value := by
  intro rest
  rw [passed]
  rfl

theorem reads_take {count : Nat} {bytes : Bytes} (size : bytes.length = count) (onEnd : ε) :
    (take count onEnd).Reads bytes bytes := by
  intro rest
  rw [take, List.splitAt_eq]
  simp [← size]

theorem Reads.replicate {reader : Reader ε α} {write : α → Bytes} {values : List α}
    (each : ∀ value ∈ values, reader.Reads (write value) value) :
    (replicate reader values.length).Reads (values.flatMap write) values := by
  induction values with
  | nil => exact .pure []
  | cons value values ih =>
    refine .bind (each value (List.mem_cons_self ..)) ?_
    refine .map (ih fun other member => each other (List.mem_cons_of_mem value member)) ?_
    exact .pure _

/-- Off an input in which some of the last of these bytes are missing, the reader takes nothing. The
fault depends on how many are missing. -/
def Starves (reader : Reader ε α) (bytes : Bytes) (fault : Nat → ε) : Prop :=
  ∀ input missing, input ++ missing = bytes → missing ≠ [] →
    reader input = .error (fault missing.length)

theorem Starves.congr {reader : Reader ε α} {bytes : Bytes} {fault fault' : Nat → ε}
    (starves : reader.Starves bytes fault) (same : ∀ missing, fault missing = fault' missing) :
    reader.Starves bytes fault' :=
  funext same ▸ starves

theorem starves_take {count : Nat} {bytes : Bytes} (size : bytes.length = count) (onEnd : ε) :
    (take count onEnd).Starves bytes fun _ => onEnd := by
  intro input missing split some
  have more : 0 < missing.length := List.length_pos_iff.mpr some
  have total := congrArg List.length split
  have short : (input.take count).length ≠ count := by
    rw [List.length_append] at total
    rw [List.length_take]
    omega
  rw [take, List.splitAt_eq]
  exact if_neg short

/-- A last step that takes nothing is not reached. -/
theorem Starves.map {reader : Reader ε α} {bytes : Bytes} {fault : Nat → ε}
    (starves : reader.Starves bytes fault) (continue_ : α → Reader ε β) :
    (reader >>= continue_).Starves bytes fault :=
  fun input missing split some => bind_of_error (starves input missing split some) continue_

/-- Of readers in a row, the one whose bytes are the first to end early fails. -/
theorem Starves.bind {reader : Reader ε α} {continue_ : α → Reader ε β} {front back : Bytes}
    {value : α} {fault fault' : Nat → ε} (reads : reader.Reads front value)
    (starves : reader.Starves front fault) (next : (continue_ value).Starves back fault') :
    (reader >>= continue_).Starves (front ++ back) fun missing =>
      if missing ≤ back.length then fault' missing else fault (missing - back.length) := by
  intro input missing split some
  dsimp only
  rcases List.append_eq_append_iff.mp split with ⟨rest, rfl, rfl⟩ | ⟨rest, rfl, rfl⟩
  · cases rest with
    | nil =>
      rw [List.append_nil] at reads
      have read := reads []
      rw [List.append_nil] at read
      rw [bind_of_ok read, if_pos (by simp)]
      exact next [] back rfl some
    | cons byte rest =>
      rw [List.length_append, Nat.add_sub_cancel, if_neg (by rw [List.length_cons]; omega)]
      exact bind_of_error (starves input (byte :: rest) rfl nofun) continue_
  · have few : missing.length ≤ (rest ++ missing).length := by simp
    rw [bind_of_ok (reads rest), if_pos few]
    exact next rest missing rfl some

/-- All values that are read have the property. -/
def Yields (reader : Reader ε α) (property : α → Prop) : Prop :=
  ∀ input value rest, reader input = .ok (value, rest) → property value

theorem Yields.pure {property : α → Prop} {value : α} (holds : property value) :
    (pure value : Reader ε α).Yields property := by
  intro input result rest read
  cases read
  exact holds

theorem Yields.bind {reader : Reader ε α} {continue_ : α → Reader ε β} {first : α → Prop}
    {second : β → Prop} (yields : reader.Yields first)
    (next : ∀ value, first value → (continue_ value).Yields second) :
    (reader >>= continue_).Yields second := by
  intro input result rest read
  obtain ⟨value, middle, taken, read'⟩ := bind_eq_ok read
  exact next value (yields input value middle taken) middle result rest read'

theorem yields_check (outcome : Except ε α) :
    (liftM outcome : Reader ε α).Yields fun value => outcome = .ok value := by
  intro input value rest read
  cases outcome with
  | error cause => cases read
  | ok result =>
    cases read
    rfl

theorem yields_any (reader : Reader ε α) : reader.Yields fun _ => True := fun _ _ _ _ => trivial

theorem yields_take (count : Nat) (onEnd : ε) :
    (take count onEnd).Yields fun bytes => bytes.length = count := by
  intro input value rest read
  rw [take] at read
  dsimp only at read
  split at read
  · cases read
    assumption
  · cases read

theorem Yields.replicate {reader : Reader ε α} {property : α → Prop} (yields : reader.Yields property)
    (count : Nat) : (replicate reader count).Yields fun values =>
      values.length = count ∧ ∀ value ∈ values, property value := by
  induction count with
  | zero => exact .pure ⟨rfl, nofun⟩
  | succ count ih =>
    refine .bind yields fun first holds => .bind ih fun rest all => .pure ⟨?_, ?_⟩
    · rw [List.length_cons, all.1]
    · exact List.forall_mem_cons.mpr ⟨holds, all.2⟩

/-- The bytes that are taken off an input have the form of the value that is read. -/
def Takes (reader : Reader ε α) (form : Bytes → α → Prop) : Prop :=
  ∀ input value rest, reader input = .ok (value, rest) →
    ∃ bytes, input = bytes ++ rest ∧ form bytes value

theorem Takes.weaken {reader : Reader ε α} {form wider : Bytes → α → Prop}
    (takes : reader.Takes form) (implied : ∀ bytes value, form bytes value → wider bytes value) :
    reader.Takes wider := by
  intro input value rest read
  obtain ⟨bytes, split, formed⟩ := takes input value rest read
  exact ⟨bytes, split, implied bytes value formed⟩

theorem Takes.pure (value : α) :
    (pure value : Reader ε α).Takes fun bytes result => bytes = [] ∧ result = value := by
  intro input result rest read
  cases read
  exact ⟨[], rfl, rfl, rfl⟩

theorem Takes.bind {reader : Reader ε α} {continue_ : α → Reader ε β} {first : Bytes → α → Prop}
    {second : α → Bytes → β → Prop} (takes : reader.Takes first)
    (next : ∀ value, (continue_ value).Takes (second value)) :
    (reader >>= continue_).Takes fun bytes result => ∃ value front back,
      bytes = front ++ back ∧ first front value ∧ second value back result := by
  intro input result rest read
  obtain ⟨value, middle, taken, read'⟩ := bind_eq_ok read
  obtain ⟨front, split, formed⟩ := takes input value middle taken
  obtain ⟨back, split', formed'⟩ := next value middle result rest read'
  refine ⟨front ++ back, ?_, value, front, back, rfl, formed, formed'⟩
  rw [split, split', List.append_assoc]

/-- A check takes nothing. -/
theorem takes_check (outcome : Except ε α) :
    (liftM outcome : Reader ε α).Takes fun bytes value => bytes = [] ∧ outcome = .ok value := by
  intro input value rest read
  cases outcome with
  | error cause => cases read
  | ok result =>
    cases read
    exact ⟨[], rfl, rfl, rfl⟩

theorem takes_take (count : Nat) (onEnd : ε) :
    (take count onEnd).Takes fun bytes value => bytes = value ∧ value.length = count := by
  intro input value rest read
  rw [take, List.splitAt_eq] at read
  dsimp only at read
  split at read
  · cases read
    exact ⟨input.take count, (List.take_append_drop count input).symm, rfl, ‹_›⟩
  · cases read

end MailProof.Reader
