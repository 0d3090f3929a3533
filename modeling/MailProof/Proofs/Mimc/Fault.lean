import MailProof.Proofs.Mimc.Hasher

/-! The block that a hashing fault names. Good blocks in front of the faulty one are counted twice if
they come in the same call, so the number is that of the block in the stream only if the call begins
with it. -/

namespace MailProof.Mimc

/-- The first block of the stream that is not canonical has this index. -/
def FirstFault (stream : Bytes) (index : Nat) : Prop :=
  ∃ good, BreaksAfter stream good ∧ good.length = index

namespace Hasher

variable (hasher : Hasher)

theorem reported_iff (stream : Bytes) (reported : Nat) :
    (hasher.update stream).2 = .error (.nonCanonicalBlock reported) ↔
      ∃ index, FirstFault stream index ∧ reported = hasher.blocks.size + 2 * index := by
  constructor
  · intro fails
    by_cases aligned : Aligned stream
    · rcases aligned.cases with ⟨good, canonical, rfl⟩ | ⟨good, breaks⟩
      · rw [hasher.update_of_good canonical] at fails
        cases fails
      · rw [hasher.update_of_breaks breaks] at fails
        cases fails
        exact ⟨good.length, ⟨good, breaks, rfl⟩, rfl⟩
    · rw [hasher.update_of_misaligned aligned] at fails
      cases fails
  · rintro ⟨_, ⟨good, breaks, rfl⟩, rfl⟩
    rw [hasher.update_of_breaks breaks]

/-- Pieces that are absorbed are made up of canonical blocks. -/
theorem good_of_updateAll {pieces : List Bytes} (aligned : ∀ piece ∈ pieces, Aligned piece)
    (accepts : (hasher.updateAll pieces).2 = .ok ()) : ∃ good, Good good ∧
      pieces.flatten = good.flatten ∧
      hasher.updateAll pieces = (hasher.absorbAll (good.map blockElement), .ok ()) := by
  obtain ⟨same, accepted⟩ := hasher.updateAll_flatten aligned
  rw [accepted] at accepts
  rcases (aligned_flatten aligned).cases with ⟨good, canonical, split⟩ | ⟨good, breaks⟩
  · rw [split, hasher.update_of_good canonical] at same accepted
    exact ⟨good, canonical, split, Prod.ext same (accepted.mpr rfl)⟩
  · rw [hasher.update_of_breaks breaks] at accepts
    cases accepts

theorem updateAll_append {front : List Bytes} {later : Hasher}
    (accepts : hasher.updateAll front = (later, .ok ())) (back : List Bytes) :
    hasher.updateAll (front ++ back) = later.updateAll back := by
  induction front generalizing hasher with
  | nil =>
    cases accepts
    rfl
  | cons piece front ih =>
    rw [List.cons_append]
    rw [updateAll] at accepts ⊢
    cases updated : hasher.update piece with
    | mk next answer =>
      rw [updated] at accepts
      cases answer with
      | ok done => exact ih next accepts
      | error cause => cases accepts

private theorem updateAll_of_breaks {piece : Bytes} {good : List Bytes}
    (breaks : BreaksAfter piece good)
    (back : List Bytes) : hasher.updateAll (piece :: back) =
      (hasher.absorbAll (good.map blockElement),
        .error (.nonCanonicalBlock (hasher.blocks.size + 2 * good.length))) := by
  rw [updateAll, hasher.update_of_breaks breaks]

end Hasher

/-- An update reports a block exactly if there is one that is not canonical, and the number that it
reports is made up of the blocks that were absorbed before the call and twice the index of the first
such block in the call. In a stream that comes in pieces, this is the position of the block in the
stream, counted from the state before it, and once more its index in its own piece. -/
theorem reported_fault (hasher : Hasher) :
    (∀ stream reported, (hasher.update stream).2 = .error (.nonCanonicalBlock reported) ↔
      ∃ index, FirstFault stream index ∧ reported = hasher.blocks.size + 2 * index) ∧
    ∀ front piece back index, (∀ part ∈ front, Aligned part) →
      (hasher.updateAll front).2 = .ok () → FirstFault piece index →
      ∃ position, FirstFault (front.flatten ++ piece) position ∧
        position = front.flatten.length / blockSize + index ∧
        (hasher.updateAll (front ++ piece :: back)).2 =
          .error (.nonCanonicalBlock (hasher.blocks.size + position + index)) := by
  refine ⟨hasher.reported_iff, ?_⟩
  rintro front piece back _ aligned accepts ⟨good, breaks, rfl⟩
  obtain ⟨before, canonical, split, absorbed⟩ := hasher.good_of_updateAll aligned accepts
  have count : front.flatten.length / blockSize = before.length := by
    rw [split, canonical.flatten_length, Nat.mul_div_cancel _ (by decide)]
  have total : (hasher.absorbAll (before.map blockElement)).blocks.size + 2 * good.length =
      hasher.blocks.size + (before ++ good).length + good.length := by
    rw [Hasher.absorbAll_size, List.length_map, List.length_append]
    omega
  refine ⟨(before ++ good).length, ?_, ?_, ?_⟩
  · rw [split]
    exact ⟨_, breaks.behind canonical, rfl⟩
  · rw [count, List.length_append]
  · rw [hasher.updateAll_append absorbed, Hasher.updateAll_of_breaks _ breaks, total]

/-- A block of zeros is good and a block of ones is not: in one call the fault of the second block is
reported as that of a third, and in two calls it is not. -/
theorem fault_moves_with_cut :
    (¬∀ (hasher : Hasher) stream index, FirstFault stream index →
      (hasher.update stream).2 = .error (.nonCanonicalBlock (hasher.blocks.size + index))) ∧
    ¬∀ (hasher : Hasher) pieces pieces', (∀ piece ∈ pieces ++ pieces', Aligned piece) →
      pieces.flatten = pieces'.flatten → (hasher.updateAll pieces).2 = (hasher.updateAll pieces').2 := by
  let zeros : Bytes := .replicate 32 0
  let ones : Bytes := .replicate 32 255
  have breaks : BreaksAfter (zeros ++ ones) [zeros] :=
    ⟨by decide, ones, [], by decide, by decide, by decide⟩
  have together : (Hasher.updateAll {} [zeros ++ ones]).2 = .error (.nonCanonicalBlock 2) := by
    rw [Hasher.updateAll_of_breaks {} breaks]
    rfl
  have apart : (Hasher.updateAll {} [zeros, ones]).2 = .error (.nonCanonicalBlock 1) := by decide +kernel
  constructor
  · intro promised
    have told := promised {} (zeros ++ ones) 1 ⟨_, breaks, rfl⟩
    rw [Hasher.update_of_breaks {} breaks] at told
    cases told
  · intro promised
    have told := promised {} [zeros ++ ones] [zeros, ones] (by decide) rfl
    rw [together, apart] at told
    cases told

end MailProof.Mimc
