import MailProof.KeyPair.File
import MailProof.Proofs.Reader
import MailProof.Proofs.Text.Utf8

/-! Key pairs in files. A key pair is read back from its bytes whatever follows them, so it is loaded
from the file that it was saved to. -/

namespace MailProof

namespace KeyPair

/-- Every part of the pair has a length that eight bytes can hold. -/
structure Countable (keyPair : KeyPair) : Prop where
  provingKey : keyPair.material.provingKey.length < 2 ^ 64
  verifyingKey : keyPair.material.verifyingKey.length < 2 ^ 64
  circuitFingerprint : (Utf8.encode keyPair.material.circuitFingerprint).length < 2 ^ 64

theorem readNumber_littleEndian {n : Nat} (small : n < 2 ^ 64) :
    readNumber.Reads (Bytes.littleEndian 8 n) n := by
  have number : (Bytes.littleEndian 8 n).toNatLE = n := by
    rw [Bytes.toNatLE_littleEndian]
    exact Nat.mod_eq_of_lt (Nat.lt_of_lt_of_eq small (by decide))
  refine .map (Reader.reads_take (Bytes.littleEndian_length ..) _) ?_
  rw [number]
  exact .pure n

theorem readFramed_framed {bytes : Bytes} (small : bytes.length < 2 ^ 64) (onEnd : KeyFormatError) :
    (readFramed onEnd).Reads (framed bytes) bytes :=
  .bind (readNumber_littleEndian small) (Reader.reads_take rfl onEnd)

private theorem readText_framed {text : String} (small : (Utf8.encode text).length < 2 ^ 64) :
    readText.Reads (framed (Utf8.encode text)) text := by
  refine .map (readFramed_framed small .textEnd) ?_
  rw [Utf8.decode_encode]
  exact .pure text

variable {keyPair : KeyPair} (countable : keyPair.Countable)

include countable

private theorem read_toBytes : read.Reads keyPair.toBytes keyPair := by
  rw [toBytes, List.append_assoc, List.append_assoc]
  refine .bind (readNumber_littleEndian keyPair.id.toNat_lt) <|
    .bind (readFramed_framed countable.provingKey _) <|
      .bind (readFramed_framed countable.verifyingKey _) <|
        .map (readText_framed countable.circuitFingerprint) ?_
  rw [UInt64.ofNat_toNat]
  exact .pure keyPair

/-- Whatever follows a key pair is left out. -/
theorem ofBytes_toBytes (rest : Bytes) : ofBytes (keyPair.toBytes ++ rest) = .ok keyPair := by
  rw [ofBytes, read_toBytes countable]
  rfl

end KeyPair

namespace FileNode

/-- Saving puts the bytes of the pair in place of nothing or of a file, and fails anywhere else. -/
theorem saveKeyPair_eq_ok_iff {node saved : FileNode} {keyPair : KeyPair} :
    node.saveKeyPair keyPair = .ok saved ↔
      (node = .absent ∨ ∃ bytes, node = .file bytes) ∧ saved = .file keyPair.toBytes := by
  have written : (Except.ok (.file keyPair.toBytes) : Except KeyFileError FileNode) = .ok saved ↔
      saved = .file keyPair.toBytes := ⟨fun same => (Except.ok.inj same).symm, congrArg Except.ok ∘ Eq.symm⟩
  cases node with
  | absent | file bytes => exact written.trans (by simp)
  | unreachable | directory | broken fault => exact ⟨nofun, by simp⟩

theorem loadKeyPair_of_bytes (bytes : Bytes) :
    (file bytes).loadKeyPair = (KeyPair.ofBytes bytes).mapError .format := rfl

/-- A file holds the pair that was saved, whatever was added to it. -/
theorem loadKeyPair_file {keyPair : KeyPair} (countable : keyPair.Countable) (rest : Bytes) :
    (FileNode.file (keyPair.toBytes ++ rest)).loadKeyPair = .ok keyPair := by
  rw [loadKeyPair_of_bytes, KeyPair.ofBytes_toBytes countable]
  rfl

end FileNode

end MailProof
