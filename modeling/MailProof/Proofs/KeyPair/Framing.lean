import MailProof.Proofs.KeyPair.File
import MailProof.Proofs.Text.Canonical

/-! The bytes of key files. A file is read as a pair exactly if it begins with the bytes of the pair.
Where the file ends before they do, the fault tells whether the fingerprint or an earlier part is cut
short. -/

namespace MailProof

namespace KeyPair

/-! What is read from a part of the bytes. -/

private theorem starves_readNumber (n : Nat) :
    readNumber.Starves (Bytes.littleEndian 8 n) fun _ => .unexpectedEnd :=
  (Reader.starves_take (Bytes.littleEndian_length ..) _).map _

private theorem starves_readFramed {bytes : Bytes} (small : bytes.length < 2 ^ 64)
    (onEnd : KeyFormatError) :
    (readFramed onEnd).Starves (framed bytes) fun missing =>
      if missing ≤ bytes.length then onEnd else .unexpectedEnd :=
  .bind (readNumber_littleEndian small) (starves_readNumber _) (Reader.starves_take rfl onEnd)

/-- The fault of a file in which some of the last bytes of a pair are missing. -/
def faultWithout (keyPair : KeyPair) (missing : Nat) : KeyFormatError :=
  if missing ≤ (Utf8.encode keyPair.material.circuitFingerprint).length then .textEnd
  else .unexpectedEnd

private theorem starves_read {keyPair : KeyPair} (countable : keyPair.Countable) :
    read.Starves keyPair.toBytes keyPair.faultWithout := by
  rw [toBytes, List.append_assoc, List.append_assoc]
  refine (Reader.Starves.bind (readNumber_littleEndian keyPair.id.toNat_lt) (starves_readNumber _) <|
    .bind (readFramed_framed countable.provingKey _) (starves_readFramed countable.provingKey _) <|
      .bind (readFramed_framed countable.verifyingKey _)
        (starves_readFramed countable.verifyingKey _) <|
        .map ((starves_readFramed countable.circuitFingerprint .textEnd).map _) _).congr
    fun missing => ?_
  simp only [ite_self, faultWithout, framed, List.length_append]
  split_ifs <;> first | rfl | omega

/-! What bytes a pair is read from. -/

private theorem takes_readNumber :
    readNumber.Takes fun bytes n => bytes = Bytes.littleEndian 8 n ∧ n < 2 ^ 64 := by
  refine (Reader.Takes.bind (Reader.takes_take 8 _)
    fun bytes => Reader.Takes.pure bytes.toNatLE).weaken ?_
  rintro _ _ ⟨_, bytes, _, rfl, ⟨rfl, size⟩, rfl, rfl⟩
  have bounded := Bytes.toNatLE_lt bytes
  have written := Bytes.littleEndian_toNatLE bytes
  rw [size] at bounded written
  exact ⟨by rw [List.append_nil, written], bounded.trans_eq (by decide)⟩

private theorem takes_readFramed (onEnd : KeyFormatError) :
    (readFramed onEnd).Takes fun bytes value =>
    bytes = framed value ∧ value.length < 2 ^ 64 := by
  refine (Reader.Takes.bind takes_readNumber fun count => Reader.takes_take count onEnd).weaken ?_
  rintro _ value ⟨_, _, _, rfl, ⟨rfl, small⟩, rfl, rfl⟩
  exact ⟨rfl, small⟩

private theorem takes_readText : readText.Takes fun bytes text =>
    bytes = framed (Utf8.encode text) ∧ (Utf8.encode text).length < 2 ^ 64 := by
  intro input text rest read
  obtain ⟨bytes, middle, framedRead, decoded⟩ := Reader.bind_eq_ok read
  obtain ⟨taken, split, rfl, small⟩ := takes_readFramed .textEnd input bytes middle framedRead
  cases decodes : Utf8.decode bytes with
  | error cause =>
    rw [decodes] at decoded
    cases decoded
  | ok other =>
    rw [decodes] at decoded
    cases decoded
    rw [← Utf8.encode_of_decode decodes] at split small
    exact ⟨_, split, rfl, small⟩

private theorem takes_read :
    read.Takes fun bytes keyPair => bytes = keyPair.toBytes ∧ keyPair.Countable := by
  refine (Reader.Takes.bind takes_readNumber fun id =>
    .bind (takes_readFramed .unexpectedEnd) fun provingKey =>
      .bind (takes_readFramed .unexpectedEnd) fun verifyingKey =>
        .bind takes_readText fun circuitFingerprint => .pure
          (⟨.ofNat id, ⟨provingKey, verifyingKey, circuitFingerprint⟩⟩ : KeyPair)).weaken ?_
  rintro _ _ ⟨id, _, _, rfl, ⟨rfl, numbered⟩, provingKey, _, _, rfl, ⟨rfl, small⟩, verifyingKey, _,
    _, rfl, ⟨rfl, small'⟩, circuitFingerprint, _, _, rfl, ⟨rfl, small''⟩, rfl, rfl⟩
  refine ⟨?_, small, small', small''⟩
  rw [toBytes, UInt64.toNat_ofNat_of_lt' numbered]
  simp

/-- A pair is read exactly from bytes that begin with its own. -/
theorem ofBytes_eq_ok_iff {bytes : Bytes} {keyPair : KeyPair} :
    ofBytes bytes = .ok keyPair ↔ keyPair.Countable ∧ ∃ rest, bytes = keyPair.toBytes ++ rest := by
  constructor
  · intro reads
    cases whole : read bytes with
    | error cause =>
      rw [ofBytes, whole] at reads
      cases reads
    | ok pair =>
      rw [ofBytes, whole] at reads
      cases reads
      obtain ⟨_, split, rfl, countable⟩ := takes_read bytes pair.1 pair.2 whole
      exact ⟨countable, pair.2, split⟩
  · rintro ⟨countable, rest, rfl⟩
    exact ofBytes_toBytes countable rest

/-- A part of the bytes of a pair is no pair. -/
theorem ofBytes_of_missing {keyPair : KeyPair} (countable : keyPair.Countable) {front missing : Bytes}
    (split : front ++ missing = keyPair.toBytes) (some : missing ≠ []) :
    ofBytes front = .error (keyPair.faultWithout missing.length) := by
  rw [ofBytes, starves_read countable front missing split some]
  rfl

end KeyPair

/-- A file that begins with the bytes of a pair is loaded as that pair, and a file that ends within
them is malformed: the fingerprint ends early if nothing but bytes of its text is missing, and
otherwise a number or a key does. In the other direction, a file that is loaded as a pair begins with
the bytes of the pair. The lengths of the three parts are numbers of 64 bits, as they are in every
pair that is loaded. -/
theorem key_bytes_framed :
    (∀ keyPair : KeyPair, keyPair.Countable →
      (∀ rest, (FileNode.file (keyPair.toBytes ++ rest)).loadKeyPair = .ok keyPair) ∧
        ∀ front missing, front ++ missing = keyPair.toBytes → missing ≠ [] →
          (FileNode.file front).loadKeyPair = .error (.format
            (if missing.length ≤ (Utf8.encode keyPair.material.circuitFingerprint).length then .textEnd
            else .unexpectedEnd))) ∧
    ∀ bytes keyPair, (FileNode.file bytes).loadKeyPair = .ok keyPair →
      keyPair.Countable ∧ ∃ rest, bytes = keyPair.toBytes ++ rest := by
  refine ⟨fun keyPair countable => ⟨FileNode.loadKeyPair_file countable, ?_⟩, ?_⟩
  · intro front missing split some
    rw [FileNode.loadKeyPair_of_bytes, KeyPair.ofBytes_of_missing countable split some]
    rfl
  · intro bytes keyPair loads
    rw [FileNode.loadKeyPair_of_bytes] at loads
    cases reads : KeyPair.ofBytes bytes with
    | error cause =>
      rw [reads] at loads
      cases loads
    | ok other =>
      rw [reads] at loads
      cases loads
      exact KeyPair.ofBytes_eq_ok_iff.mp reads

/-- A file that ends within the two bytes of a character. -/
theorem key_bytes_framed_half_character :
    (⟨7, ⟨[1, 2], [3], "ü"⟩⟩ : KeyPair).Countable ∧
      (FileNode.file [7, 0, 0, 0, 0, 0, 0, 0, 2, 0, 0, 0, 0, 0, 0, 0, 1, 2, 1, 0, 0, 0, 0, 0, 0, 0, 3,
        2, 0, 0, 0, 0, 0, 0, 0, 0xC3]).loadKeyPair = .error (.format .textEnd) := by
  have countable : (⟨7, ⟨[1, 2], [3], "ü"⟩⟩ : KeyPair).Countable :=
    ⟨by decide, by decide, by decide⟩
  exact ⟨countable, (key_bytes_framed.1 _ countable).2 _ [0xBC] (by decide) nofun⟩

end MailProof
