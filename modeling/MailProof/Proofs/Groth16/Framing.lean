import MailProof.Proofs.Curve.Canonical
import MailProof.Proofs.Groth16.Codec

/-! The bytes of proofs. A proof is read from some bytes exactly if its points are in the groups and
the bytes are those of its three points in a row. All of these byte strings have one length, so no
proof is read from a part of the bytes of a proof, and none if more bytes follow. -/

namespace MailProof

theorem Point.WrittenAs.length_first {p : G1} {bytes : Bytes} (written : p.WrittenAs bytes) :
    bytes.length = 32 :=
  written.length_eq (by decide) Base.toBytes_length

theorem Point.WrittenAs.length_second {p : G2} {bytes : Bytes} (written : p.WrittenAs bytes) :
    bytes.length = 64 := by
  refine written.length_eq (by decide) fun x => ?_
  change (x.re.toBytes ++ x.im.toBytes).length = 64
  rw [List.length_append, Base.toBytes_length, Base.toBytes_length]
  rfl

namespace Proof

/-- The first and the last point are on their curve, and the other one has the group order. -/
structure InGroups (proof : Proof) : Prop where
  a : ∃ g : (curve Base).Point, proof.a = .ofElement g
  b : ∃ g : (curve Quadratic).Point, proof.b = .ofElement g ∧ scalarOrder • g = 0
  c : ∃ g : (curve Base).Point, proof.c = .ofElement g

/-- The groups are what readers check. -/
theorem inGroups_iff {proof : Proof} : proof.InGroups ↔ proof.Admissible := by
  constructor
  · rintro ⟨a, b, c⟩
    exact ⟨⟨Point.onCurve_iff.mpr a, rfl⟩, Point.inGroup_iff.mpr b, ⟨Point.onCurve_iff.mpr c, rfl⟩⟩
  · rintro ⟨a, b, c⟩
    exact ⟨Point.onCurve_iff.mp a.1, Point.inGroup_iff.mp b, Point.onCurve_iff.mp c.1⟩

/-- The byte strings of a proof are made up of those of its points. -/
structure WrittenAs (proof : Proof) (a b c : Bytes) : Prop where
  first : proof.a.WrittenAs a
  second : proof.b.WrittenAs b
  third : proof.c.WrittenAs c

private theorem writtenAs_toBytes (proof : Proof) :
    proof.WrittenAs proof.a.toBytes proof.b.toBytes proof.c.toBytes :=
  ⟨proof.a.writtenAs_toBytes, proof.b.writtenAs_toBytes, proof.c.writtenAs_toBytes⟩

theorem WrittenAs.length_eq {proof : Proof} {a b c : Bytes} (written : proof.WrittenAs a b c) :
    (a ++ b ++ c).length = 128 := by
  rw [List.length_append, List.length_append, written.first.length_first,
    written.second.length_second, written.third.length_first]

private theorem takes_read : read.Takes fun bytes proof =>
    ∃ a b c, bytes = a ++ b ++ c ∧ proof.WrittenAs a b c := by
  refine (Reader.Takes.bind Point.takes_read fun first =>
    .bind Point.takes_read fun second =>
      .bind Point.takes_read fun third => .pure (⟨first, second, third⟩ : Proof)).weaken ?_
  rintro _ _ ⟨first, a, _, rfl, written, second, b, _, rfl, written', third, c, _, rfl, written'',
    rfl, rfl⟩
  exact ⟨a, b, c, by simp, written, written', written''⟩

private theorem yields_read : read.Yields Admissible :=
  .bind Point.yields_read fun _ a => .bind Point.yields_read fun _ b =>
    .bind Point.yields_read fun _ c => .pure ⟨a, b, c⟩

/-- A proof in the groups is read from each of its byte strings. -/
theorem read_writtenAs {proof : Proof} {a b c : Bytes} (admissible : proof.Admissible)
    (written : proof.WrittenAs a b c) : read.Reads (a ++ b ++ c) proof := by
  rw [List.append_assoc]
  exact .bind (Point.read_writtenAs written.first admissible.a)
    (.bind (Point.read_writtenAs written.second admissible.b)
      (.map (Point.read_writtenAs written.third admissible.c) (.pure proof)))

/-- What proofs are read from. -/
theorem ofBytes_eq_ok_iff {bytes : Bytes} {proof : Proof} :
    ofBytes bytes = .ok proof ↔
      proof.InGroups ∧ ∃ a b c, bytes = a ++ b ++ c ∧ proof.WrittenAs a b c := by
  constructor
  · intro reads
    have whole : read bytes = .ok (proof, []) := by
      rw [ofBytes] at reads
      split at reads
      · cases reads
      · cases reads
        assumption
      · cases reads
    obtain ⟨taken, split, a, b, c, rfl, written⟩ := takes_read bytes proof [] whole
    rw [List.append_nil] at split
    exact ⟨inGroups_iff.mpr (yields_read bytes proof [] whole), a, b, c, split, written⟩
  · rintro ⟨members, a, b, c, rfl, written⟩
    have whole := read_writtenAs (inGroups_iff.mp members) written []
    rw [List.append_nil] at whole
    rw [ofBytes, whole]

theorem admissible_of_ofBytes {bytes : Bytes} {proof : Proof} (reads : ofBytes bytes = .ok proof) :
    proof.Admissible :=
  inGroups_iff.mp (ofBytes_eq_ok_iff.mp reads).1

theorem length_of_ofBytes {bytes : Bytes} {proof : Proof} (reads : ofBytes bytes = .ok proof) :
    bytes.length = 128 := by
  obtain ⟨_, a, b, c, rfl, written⟩ := ofBytes_eq_ok_iff.mp reads
  exact written.length_eq

/-- Where the points of a proof stand in its bytes. -/
theorem writtenAs_of_ofBytes {bytes : Bytes} {proof : Proof} (reads : ofBytes bytes = .ok proof) :
    proof.WrittenAs (bytes.take 32) ((bytes.drop 32).take 64) (bytes.drop 96) := by
  obtain ⟨_, a, b, c, rfl, written⟩ := ofBytes_eq_ok_iff.mp reads
  have size := written.first.length_first
  have size' := written.second.length_second
  have front : (a ++ b ++ c).take 32 = a := by
    rw [List.append_assoc, ← size, List.take_left]
  have middle : ((a ++ b ++ c).drop 32).take 64 = b := by
    rw [List.append_assoc, ← size, List.drop_left, ← size', List.take_left]
  have back : (a ++ b ++ c).drop 96 = c := by
    refine List.drop_left' ?_
    rw [List.length_append, size, size']
  rwa [front, middle, back]

/-- Bytes of another length are no proof. -/
theorem ofBytes_of_length_ne {bytes : Bytes} (other : bytes.length ≠ 128) :
    ∃ cause, ofBytes bytes = .error cause := by
  cases reads : ofBytes bytes with
  | error cause => exact ⟨cause, rfl⟩
  | ok proof => exact absurd (length_of_ofBytes reads) other

/-- Bytes after those of a proof are counted. -/
theorem ofBytes_append {proof : Proof} (admissible : proof.Admissible) {rest : Bytes}
    (more : rest ≠ []) : ofBytes (proof.toBytes ++ rest) = .error (.trailing rest.length) := by
  rw [ofBytes, read_toBytes admissible rest]
  cases rest with
  | nil => exact absurd rfl more
  | cons byte rest => rfl

end Proof

/-- Proofs in the groups are written as 128 bytes from which they are read back, while neither a
part of these bytes nor more than these bytes is a proof. In the other direction, whatever is read
as a proof has 128 bytes and points in the groups, and each point has its compressed form there,
except that a point at infinity may stand under any coordinate. -/
theorem proof_bytes_framed :
    (∀ proof : Proof, proof.InGroups →
      proof.toBytes.length = 128 ∧ Proof.ofBytes proof.toBytes = .ok proof ∧
        (∀ front back, front ++ back = proof.toBytes → back ≠ [] →
          ∃ cause, Proof.ofBytes front = .error cause) ∧
        ∀ rest, rest ≠ [] →
          Proof.ofBytes (proof.toBytes ++ rest) = .error (.trailing rest.length)) ∧
    ∀ bytes proof, Proof.ofBytes bytes = .ok proof →
      bytes.length = 128 ∧ proof.InGroups ∧
        ∃ a b c, bytes = a ++ b ++ c ∧ proof.WrittenAs a b c := by
  constructor
  · intro proof members
    have admissible := Proof.inGroups_iff.mp members
    have size : proof.toBytes.length = 128 := proof.writtenAs_toBytes.length_eq
    refine ⟨size, Proof.ofBytes_toBytes admissible, fun front back split more => ?_,
      fun rest more => Proof.ofBytes_append admissible more⟩
    have positive := List.length_pos_of_ne_nil more
    have total := congrArg List.length split
    rw [List.length_append, size] at total
    exact Proof.ofBytes_of_length_ne (by omega)
  · intro bytes proof reads
    obtain ⟨members, parts⟩ := Proof.ofBytes_eq_ok_iff.mp reads
    exact ⟨Proof.length_of_ofBytes reads, members, parts⟩

end MailProof
