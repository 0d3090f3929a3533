import MailProof.Proofs.KeyPair.File
import MailProof.Session.Store

/-! Stores of key pairs under any calls. Pairs are numbered on from the one that a store was found
with, and the latest pair is the last one saved. A file and the memory cannot be told apart. -/

namespace MailProof

/-- Every part of the material has a length that eight bytes can hold. -/
def KeyMaterial.Countable (material : KeyMaterial) : Prop :=
  ∀ id, (⟨id, material⟩ : KeyPair).Countable

/-- A call of a store of key pairs. -/
inductive KeyCall where
  | latest
  | save (material : KeyMaterial)

inductive KeyAnswer where
  | found (keyPair : KeyPair)
  | saved (id : KeyPairId)
  | failed (error : StorageError)

/-- The answer of a store whose last pair is known. -/
def KeyAnswer.ofLast : Option KeyPair → KeyAnswer
  | some keyPair => .found keyPair
  | none => .failed .noKeyPair

/-- What calls save, in order. -/
def KeyCall.saved (calls : List KeyCall) : List KeyMaterial :=
  calls.filterMap fun
    | .save material => some material
    | .latest => none

@[simp] theorem KeyCall.saved_save (material : KeyMaterial) (calls : List KeyCall) :
    saved (.save material :: calls) = material :: saved calls := rfl

@[simp] theorem KeyCall.saved_append (calls more : List KeyCall) :
    saved (calls ++ more) = saved calls ++ saved more := List.filterMap_append

namespace KeyPairStore

variable {σ : Type} [KeyPairStore σ]

/-- The answer to a call, with the store behind it. A failed call leaves the store as it is. -/
def call (store : σ) : KeyCall → KeyAnswer × σ
  | .latest =>
    match latest store with
    | .ok keyPair => (.found keyPair, store)
    | .error error => (.failed error, store)
  | .save material =>
    match save store material with
    | .ok (id, later) => (.saved id, later)
    | .error error => (.failed error, store)

def answer (store : σ) (asked : KeyCall) : KeyAnswer := (call store asked).1

/-- The store after calls one after the other. -/
def after (store : σ) (calls : List KeyCall) : σ :=
  calls.foldl (fun store asked => (call store asked).2) store

/-- The last pair after calls, where `number` pairs have been numbered before and `last` is the
last of them. -/
def lastPair (number : Nat) (last : Option KeyPair) (calls : List KeyCall) : Option KeyPair :=
  match (KeyCall.saved calls).getLast? with
  | some material => some ⟨.ofNat (number + (KeyCall.saved calls).length), material⟩
  | none => last

private theorem lastPair_latest (number : Nat) (last : Option KeyPair) (calls : List KeyCall) :
    lastPair number last (.latest :: calls) = lastPair number last calls := rfl

private theorem lastPair_save (number : Nat) (last : Option KeyPair) (material : KeyMaterial)
    (calls : List KeyCall) : lastPair number last (.save material :: calls) =
      lastPair (number + 1) (some ⟨.ofNat (number + 1), material⟩) calls := by
  rw [lastPair, lastPair, KeyCall.saved_save]
  cases KeyCall.saved calls with
  | nil => rfl
  | cons next rest =>
    have count : number + (material :: next :: rest).length =
        number + 1 + (next :: rest).length := by
      rw [List.length_cons, Nat.add_assoc, Nat.add_comm 1]
    rw [List.getLast?_cons_cons, List.getLast?_cons, count]

/-- A relation of stores to the number and the last of their pairs that every call keeps. -/
structure Tracks (related : σ → Nat → Option KeyPair → Prop) : Prop where
  latest : ∀ store number last, related store number last →
    KeyPairStore.latest store = last.elim (.error .noKeyPair) .ok
  save : ∀ store number last material, related store number last →
    ∃ later, KeyPairStore.save store material = .ok (.ofNat (number + 1), later) ∧
      (material.Countable → related later (number + 1) (some ⟨.ofNat (number + 1), material⟩))

namespace Tracks

variable {related : σ → Nat → Option KeyPair → Prop} (tracks : Tracks related) {store : σ}
  {number : Nat} {last : Option KeyPair} (known : related store number last)

include tracks known

private theorem answer_latest : answer store .latest = .ofLast last := by
  rw [answer, call, tracks.latest store number last known]
  cases last <;> rfl

private theorem answer_save (material : KeyMaterial) :
    answer store (.save material) = .saved (.ofNat (number + 1)) := by
  obtain ⟨later, saves, _⟩ := tracks.save store number last material known
  rw [answer, call, saves]

/-- What a call keeps is kept by all of them. -/
theorem after (calls : List KeyCall)
    (countable : ∀ material ∈ KeyCall.saved calls, material.Countable) :
    related (after store calls) (number + (KeyCall.saved calls).length)
      (lastPair number last calls) := by
  induction calls generalizing store number last with
  | nil => exact known
  | cons asked calls ih =>
    cases asked with
    | latest =>
      have left : (call store .latest).2 = store := by
        rw [call]
        split <;> rfl
      rw [lastPair_latest, KeyPairStore.after, List.foldl_cons, left]
      exact ih known countable
    | save material =>
      rw [KeyCall.saved_save, List.forall_mem_cons] at countable
      obtain ⟨later, saves, next⟩ := tracks.save store number last material known
      have left : (call store (.save material)).2 = later := by rw [call, saves]
      rw [lastPair_save, KeyPairStore.after, List.foldl_cons, left, KeyCall.saved_save,
        List.length_cons, Nat.add_comm _ 1, ← Nat.add_assoc]
      exact ih (next countable.1) countable.2

end Tracks

/-- The number of the pair that a store was found with, or zero. -/
def startNumber (found : Option KeyPair) : Nat := (found.map (·.id.toNat)).getD 0

/-- Calls that a file can keep up with: all lengths fit into eight bytes, and so do the numbers. -/
structure Admissible (found : Option KeyPair) (calls : List KeyCall) : Prop where
  countable : ∀ material ∈ KeyCall.saved calls, material.Countable
  numbered : startNumber found + (KeyCall.saved calls).length < 2 ^ 64

theorem Admissible.of_append {found : Option KeyPair} {calls more : List KeyCall}
    (admissible : Admissible found (calls ++ more)) : Admissible found calls := by
  obtain ⟨countable, numbered⟩ := admissible
  rw [KeyCall.saved_append] at countable numbered
  rw [List.length_append] at numbered
  exact ⟨fun material member => countable material (List.mem_append_left _ member), by omega⟩

/-- A store that was found with at most one pair counts on from it. -/
structure Numbers (store : σ) (found : Option KeyPair) : Prop where
  /-- A pair is saved under the number behind the last one. -/
  save : ∀ calls material, Admissible found (calls ++ [.save material]) →
    ∃ id, answer (after store calls) (.save material) = .saved id ∧
      id.toNat = startNumber found + (KeyCall.saved calls).length + 1
  /-- The last pair is answered with all of its parts under the number that it was given. -/
  latest : ∀ calls, Admissible found calls →
    answer (after store calls) .latest = .ofLast (lastPair (startNumber found) found calls)
  /-- No number is given twice. -/
  increasing : ∀ calls material between other,
    Admissible found (calls ++ .save material :: between ++ [.save other]) →
    ∃ id next, answer (after store calls) (.save material) = .saved id ∧
      answer (after store (calls ++ .save material :: between)) (.save other) = .saved next ∧
      startNumber found < id.toNat ∧ id < next

namespace Tracks

variable {related : σ → Nat → Option KeyPair → Prop} {store : σ} {found : Option KeyPair}

private theorem save_number (tracks : Tracks related)
    (known : related store (startNumber found) found)
    (calls : List KeyCall) (material : KeyMaterial)
    (admissible : Admissible found (calls ++ [.save material])) :
    ∃ id, answer (KeyPairStore.after store calls) (.save material) = .saved id ∧
      id.toNat = startNumber found + (KeyCall.saved calls).length + 1 := by
  have held := tracks.after known calls admissible.of_append.countable
  refine ⟨_, tracks.answer_save held material, UInt64.toNat_ofNat_of_lt' ?_⟩
  have numbered := admissible.numbered
  rw [KeyCall.saved_append, List.length_append] at numbered
  exact numbered

theorem numbers (tracks : Tracks related) (known : related store (startNumber found) found) :
    Numbers store found where
  save := tracks.save_number known
  latest calls admissible := tracks.answer_latest (tracks.after known calls admissible.countable)
  increasing calls material between other admissible := by
    have earlier : Admissible found (calls ++ [.save material]) := by
      rw [List.append_assoc, List.cons_append, List.append_cons] at admissible
      exact admissible.of_append
    obtain ⟨id, answered, number⟩ := tracks.save_number known calls material earlier
    obtain ⟨next, answered', number'⟩ := tracks.save_number known _ other admissible
    rw [KeyCall.saved_append, KeyCall.saved_save, List.length_append, List.length_cons] at number'
    refine ⟨id, next, answered, answered', by omega, ?_⟩
    rw [UInt64.lt_iff_toNat_lt]
    omega

end Tracks

end KeyPairStore

open KeyPairStore

/-- The memory holds as many pairs as were saved, the last of them in front. -/
def MemoryStore.Holds (store : MemoryStore) (number : Nat) (last : Option KeyPair) : Prop :=
  store.keyPairs.length = number ∧ store.keyPairs.head? = last

theorem MemoryStore.tracks_holds : Tracks MemoryStore.Holds where
  latest store number last known := by
    obtain ⟨_, rfl⟩ := known
    change store.latestKeyPair = _
    rw [latestKeyPair]
    cases store.keyPairs <;> rfl
  save store number last material known := by
    obtain ⟨rfl, _⟩ := known
    exact ⟨_, rfl, fun _ => ⟨rfl, rfl⟩⟩

/-- The file holds the last pair, and there is none before the first. -/
def KeyFile.Holds (file : KeyFile) (number : Nat) : Option KeyPair → Prop
  | none => file.node = .absent ∧ number = 0
  | some keyPair =>
    (∃ bytes, file.node = .file bytes ∧ KeyPair.ofBytes bytes = .ok keyPair) ∧
      keyPair.id = .ofNat number

theorem KeyFile.latest_of_holds {file : KeyFile} {number : Nat} {last : Option KeyPair}
    (known : file.Holds number last) : file.latest = last.elim (.error .noKeyPair) .ok := by
  cases last with
  | none => rw [latest, known.1]; rfl
  | some keyPair =>
    obtain ⟨⟨bytes, held, reads⟩, _⟩ := known
    rw [latest, held, FileNode.loadKeyPair_of_bytes, reads]
    rfl

theorem KeyFile.nextId_of_holds {file : KeyFile} {number : Nat} {last : Option KeyPair}
    (known : file.Holds number last) : file.nextId = .ok (.ofNat (number + 1)) := by
  rw [nextId, latest_of_holds known]
  cases last with
  | none => rw [known.2]; rfl
  | some keyPair =>
    have next : keyPair.id + 1 = .ofNat (number + 1) := by
      rw [known.2, UInt64.ofNat_add]
      rfl
    exact congrArg Except.ok next

theorem KeyFile.tracks_holds : Tracks KeyFile.Holds where
  latest _ _ _ known := latest_of_holds known
  save file number last material known := by
    let keyPair : KeyPair := ⟨.ofNat (number + 1), material⟩
    have place : file.node = .absent ∨ ∃ bytes, file.node = .file bytes := by
      cases last with
      | none => exact .inl known.1
      | some _ => exact .inr ⟨known.1.choose, known.1.choose_spec.1⟩
    have saves : file.node.saveKeyPair keyPair = .ok (.file keyPair.toBytes) :=
      FileNode.saveKeyPair_eq_ok_iff.mpr ⟨place, rfl⟩
    refine ⟨⟨.file keyPair.toBytes⟩, ?_, fun countable => ⟨⟨keyPair.toBytes, rfl, ?_⟩, rfl⟩⟩
    · change file.save material = _
      rw [KeyFile.save, nextId_of_holds known]
      change ((file.node.saveKeyPair keyPair).mapError _ >>= _) = _
      rw [saves]
      rfl
    · rw [← List.append_nil keyPair.toBytes]
      exact KeyPair.ofBytes_toBytes (countable keyPair.id) []

/-- Over bytes that are no key pair every call fails. -/
theorem KeyFile.call_broken {bytes : Bytes} {cause : KeyFormatError}
    (broken : KeyPair.ofBytes bytes = .error cause) (asked : KeyCall) :
    call (⟨.file bytes⟩ : KeyFile) asked =
      (.failed (.backend (KeyFileError.format cause).message), ⟨.file bytes⟩) := by
  have fails : KeyFile.latest ⟨.file bytes⟩ =
      .error (.backend (KeyFileError.format cause).message) := by
    rw [KeyFile.latest, FileNode.loadKeyPair_of_bytes, broken]
    rfl
  cases asked with
  | latest =>
    have latest : KeyPairStore.latest (⟨.file bytes⟩ : KeyFile) = _ := fails
    rw [call, latest]
  | save material =>
    have save : KeyPairStore.save (⟨.file bytes⟩ : KeyFile) material =
        .error (.backend (KeyFileError.format cause).message) := by
      change KeyFile.save _ _ = _
      rw [KeyFile.save, nextId, fails]
      rfl
    rw [call, save]

/-- Whatever is called, such bytes are never replaced. -/
theorem KeyFile.after_broken {bytes : Bytes} {cause : KeyFormatError}
    (broken : KeyPair.ofBytes bytes = .error cause) (calls : List KeyCall) :
    after (⟨.file bytes⟩ : KeyFile) calls = ⟨.file bytes⟩ := by
  induction calls with
  | nil => rfl
  | cons asked calls ih =>
    rw [KeyPairStore.after, List.foldl_cons, call_broken broken asked]
    exact ih

/-- The stores are interchangeable. In memory or in a file, pairs are numbered from one and the
latest is the last one saved; a file counts on from the pair that it holds, and keeps bytes that
are no pair. -/
theorem key_stores_interchangeable :
    Numbers ({} : MemoryStore) none ∧ Numbers (⟨.absent⟩ : KeyFile) none ∧
    (∀ calls asked, Admissible none (calls ++ [asked]) →
      answer (after ({} : MemoryStore) calls) asked =
        answer (after (⟨.absent⟩ : KeyFile) calls) asked) ∧
    (∀ bytes keyPair, KeyPair.ofBytes bytes = .ok keyPair →
      Numbers (⟨.file bytes⟩ : KeyFile) (some keyPair)) ∧
    ∀ bytes cause, KeyPair.ofBytes bytes = .error cause → ∀ calls asked,
      answer (after (⟨.file bytes⟩ : KeyFile) calls) asked =
          .failed (.backend (KeyFileError.format cause).message) ∧
        after (⟨.file bytes⟩ : KeyFile) (calls ++ [asked]) = ⟨.file bytes⟩ := by
  have memory : Numbers ({} : MemoryStore) none := MemoryStore.tracks_holds.numbers ⟨rfl, rfl⟩
  have file : Numbers (⟨.absent⟩ : KeyFile) none := KeyFile.tracks_holds.numbers ⟨rfl, rfl⟩
  refine ⟨memory, file, fun calls asked admissible => ?_, fun bytes keyPair reads => ?_,
    fun bytes cause broken calls asked => ⟨?_, KeyFile.after_broken broken _⟩⟩
  · cases asked with
    | latest =>
      rw [memory.latest calls admissible.of_append, file.latest calls admissible.of_append]
    | save material =>
      obtain ⟨id, answered, number⟩ := memory.save calls material admissible
      obtain ⟨other, answered', number'⟩ := file.save calls material admissible
      rw [answered, answered', UInt64.toNat_inj.mp (number.trans number'.symm)]
  · exact KeyFile.tracks_holds.numbers ⟨⟨bytes, rfl, reads⟩, UInt64.ofNat_toNat.symm⟩
  · rw [KeyFile.after_broken broken, answer, KeyFile.call_broken broken]

/-- A pair is renewed in memory, in a new file, and in a file that holds a pair with the number six.
A file that ends early is left alone. -/
theorem key_stores_interchangeable_renewal :
    let first : KeyMaterial := ⟨[1, 2], [3], "a"⟩
    let second : KeyMaterial := ⟨[4], [], "b"⟩
    let calls := [.save first, .latest]
    Admissible none (calls ++ [.save second]) ∧
      answer (after ({} : MemoryStore) calls) (.save second) = .saved 2 ∧
      answer (after (⟨.absent⟩ : KeyFile) calls) (.save second) = .saved 2 ∧
      answer (after (⟨.file (KeyPair.toBytes ⟨6, second⟩)⟩ : KeyFile) calls) .latest =
        .found ⟨7, first⟩ ∧
      after (⟨.file [1]⟩ : KeyFile) (calls ++ [.save second]) = ⟨.file [1]⟩ := by
  intro first second calls
  obtain ⟨memory, -, alike, continued, kept⟩ := key_stores_interchangeable
  have texts : (Utf8.encode first.circuitFingerprint).length < 2 ^ 64 ∧
      (Utf8.encode second.circuitFingerprint).length < 2 ^ 64 := by decide
  have small : first.Countable := fun _ =>
    ⟨Nat.le_of_ble_eq_true rfl, Nat.le_of_ble_eq_true rfl, texts.1⟩
  have small' : second.Countable := fun _ =>
    ⟨Nat.le_of_ble_eq_true rfl, Nat.le_of_ble_eq_true rfl, texts.2⟩
  have admissible : Admissible none (calls ++ [.save second]) :=
    ⟨List.forall_mem_cons.mpr ⟨small, List.forall_mem_singleton.mpr small'⟩, by decide⟩
  have reads : KeyPair.ofBytes (KeyPair.toBytes ⟨6, second⟩) = .ok ⟨6, second⟩ := by
    simpa using KeyPair.ofBytes_toBytes (small' 6) []
  have broken : KeyPair.ofBytes [1] = .error .unexpectedEnd := rfl
  obtain ⟨id, answered, number⟩ := memory.save calls second admissible
  obtain rfl : id = 2 := UInt64.toNat_inj.mp number
  exact ⟨admissible, answered, (alike calls _ admissible).symm.trans answered,
    (continued _ _ reads).latest calls ⟨List.forall_mem_singleton.mpr small, by decide⟩,
    (kept [1] _ broken calls (.save second)).2⟩

end MailProof
