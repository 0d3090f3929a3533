import MailProof.Mimc.Hasher
import MailProof.Proofs.Bytes
import MailProof.Proofs.Scalar

/-! Hashing a stream. An aligned stream is made up of blocks, and those in front of the first that is
not canonical are absorbed, each as the element that it stands for. What is absorbed depends on the
stream alone and not on how it is cut into pieces. -/

namespace MailProof

theorem Scalar.toBytes_length (x : Scalar) : x.toBytes.length = Mimc.blockSize :=
  Bytes.bigEndian_length 32 x.val

namespace Mimc

/-- The number of a block is below the field order. -/
def IsCanonical (block : Bytes) : Prop := block.toNatBE < scalarOrder

instance (block : Bytes) : Decidable (IsCanonical block) :=
  inferInstanceAs (Decidable (block.toNatBE < scalarOrder))

/-- The element that a block stands for. -/
def blockElement (block : Bytes) : Scalar := Scalar.ofNat block.toNatBE

private theorem toNatBE_toBytes (x : Scalar) : x.toBytes.toNatBE = x.val :=
  Bytes.toNatBE_bigEndian (Nat.lt_trans x.isLt (by decide))

private theorem isCanonical_toBytes (x : Scalar) : IsCanonical x.toBytes := by
  rw [IsCanonical, toNatBE_toBytes]
  exact x.isLt

private theorem blockElement_toBytes (x : Scalar) : blockElement x.toBytes = x := by
  rw [blockElement, toNatBE_toBytes, Scalar.ofNat_val]

/-- Reducing the number of a block and writing it again gives back the canonical blocks and no
other. -/
theorem isCanonical_iff {block : Bytes} (size : block.length = blockSize) :
    IsCanonical block ↔ (blockElement block).toBytes = block := by
  constructor
  · intro canonical
    have written := Bytes.bigEndian_toNatBE block
    rw [size] at written
    rw [Scalar.toBytes, blockElement, Scalar.val_ofNat, Nat.mod_eq_of_lt canonical]
    exact written
  · intro written
    rw [← written]
    exact isCanonical_toBytes _

/-- Canonical blocks. -/
def Good (blocks : List Bytes) : Prop :=
  ∀ block ∈ blocks, block.length = blockSize ∧ IsCanonical block

instance (blocks : List Bytes) : Decidable (Good blocks) :=
  inferInstanceAs (Decidable (∀ block ∈ blocks, block.length = blockSize ∧ IsCanonical block))

theorem Good.append {front back : List Bytes} (good : Good front) (good' : Good back) :
    Good (front ++ back) := fun block member =>
  (List.mem_append.mp member).elim (good block) (good' block)

private theorem good_toBytes (elements : List Scalar) : Good (elements.map Scalar.toBytes) := by
  intro block member
  obtain ⟨element, _, rfl⟩ := List.mem_map.mp member
  exact ⟨element.toBytes_length, isCanonical_toBytes element⟩

theorem Good.flatten_length {blocks : List Bytes} (good : Good blocks) :
    blocks.flatten.length = blocks.length * blockSize :=
  Bytes.flatten_length fun block member => (good block member).1

/-- A stream of whole blocks. -/
def Aligned (stream : Bytes) : Prop := stream.length % blockSize = 0

instance (stream : Bytes) : Decidable (Aligned stream) :=
  inferInstanceAs (Decidable (stream.length % blockSize = 0))

theorem Aligned.append {front back : Bytes} (aligned : Aligned front) (aligned' : Aligned back) :
    Aligned (front ++ back) := by
  rw [Aligned] at *
  rw [List.length_append, Nat.add_mod, aligned, aligned']
  rfl

theorem aligned_flatten {pieces : List Bytes} (aligned : ∀ piece ∈ pieces, Aligned piece) :
    Aligned pieces.flatten := by
  induction pieces with
  | nil => rfl
  | cons piece pieces ih =>
    obtain ⟨first, others⟩ := List.forall_mem_cons.mp aligned
    exact first.append (ih others)

theorem Aligned.blocks {stream : Bytes} (aligned : Aligned stream) :
    ∃ blocks : List Bytes, (∀ block ∈ blocks, block.length = blockSize) ∧ stream = blocks.flatten := by
  obtain ⟨whole, split⟩ :=
    Bytes.flatten_blocks (Nat.div_mul_cancel (Nat.dvd_of_mod_eq_zero aligned)).symm
  exact ⟨_, whole, split.symm⟩

/-- The stream has a block that is not canonical, and these are the blocks in front of the first. -/
structure BreaksAfter (stream : Bytes) (good : List Bytes) : Prop where
  canonical : Good good
  fault : ∃ bad rest, stream = (good ++ bad :: rest).flatten ∧
    (∀ block ∈ good ++ bad :: rest, block.length = blockSize) ∧ ¬IsCanonical bad

namespace BreaksAfter

variable {stream : Bytes} {good : List Bytes} (breaks : BreaksAfter stream good)

include breaks

private theorem flatten_ne : good.flatten ≠ stream := by
  obtain ⟨bad, rest, rfl, whole, -⟩ := breaks.fault
  intro same
  have total := congrArg List.length same
  have size := whole bad (by simp)
  rw [List.flatten_append, List.flatten_cons, List.length_append, List.length_append, size,
    blockSize] at total
  omega

theorem append {more : Bytes} (aligned : Aligned more) : BreaksAfter (stream ++ more) good := by
  obtain ⟨bad, rest, rfl, whole, fault⟩ := breaks.fault
  obtain ⟨blocks, whole', rfl⟩ := aligned.blocks
  have listed : good ++ bad :: (rest ++ blocks) = good ++ bad :: rest ++ blocks := by simp
  refine ⟨breaks.canonical, bad, rest ++ blocks, ?_, ?_, fault⟩
  · rw [listed, ← List.flatten_append]
  · rw [listed]
    exact List.forall_mem_append.mpr ⟨whole, whole'⟩

theorem behind {front : List Bytes} (before : Good front) :
    BreaksAfter (front.flatten ++ stream) (front ++ good) := by
  obtain ⟨bad, rest, rfl, whole, fault⟩ := breaks.fault
  refine ⟨before.append breaks.canonical, bad, rest, ?_, ?_, fault⟩
  · rw [List.append_assoc, ← List.flatten_append]
  · rw [List.append_assoc]
    exact List.forall_mem_append.mpr ⟨fun block member => (before block member).1, whole⟩

end BreaksAfter

/-- Blocks are canonical up to the end of the stream or up to the first that is not. -/
theorem Aligned.cases {stream : Bytes} (aligned : Aligned stream) :
    (∃ good, Good good ∧ stream = good.flatten) ∨ ∃ good, BreaksAfter stream good := by
  obtain ⟨blocks, whole, rfl⟩ := aligned.blocks
  clear aligned
  induction blocks with
  | nil => exact .inl ⟨[], nofun, rfl⟩
  | cons block blocks ih =>
    obtain ⟨size, others⟩ := List.forall_mem_cons.mp whole
    by_cases canonical : IsCanonical block
    · have first : Good [block] := by simpa [Good] using And.intro size canonical
      rcases ih others with ⟨good, all, split⟩ | ⟨good, breaks⟩
      · exact .inl ⟨block :: good, first.append all, by rw [List.flatten_cons, List.flatten_cons, split]⟩
      · have later := breaks.behind first
        rw [List.flatten_singleton] at later
        exact .inr ⟨block :: good, later⟩
    · exact .inr ⟨[], nofun, block, blocks, rfl, whole, canonical⟩

/-- The longest front part of a stream that is made up of canonical blocks. -/
structure LongestFront (stream : Bytes) (good : List Bytes) : Prop where
  front : good.flatten <+: stream
  canonical : Good good
  longest : ∀ other : List Bytes, other.flatten <+: stream → Good other → other <+: good

namespace Hasher

variable (hasher : Hasher)

/-- Absorb elements one after the other. -/
def absorbAll (elements : List Scalar) : Hasher := elements.foldl absorb hasher

theorem absorbAll_append (front back : List Scalar) :
    hasher.absorbAll (front ++ back) = (hasher.absorbAll front).absorbAll back := List.foldl_append

private theorem absorbAll_blocks (elements : List Scalar) :
    (hasher.absorbAll elements).blocks = hasher.blocks ++ elements.toArray := by
  induction elements generalizing hasher with
  | nil => simp [absorbAll]
  | cons element elements ih =>
    rw [absorbAll, List.foldl_cons, ← absorbAll, ih]
    simp [absorb]

theorem absorbAll_size (elements : List Scalar) :
    (hasher.absorbAll elements).blocks.size = hasher.blocks.size + elements.length := by
  simp [absorbAll_blocks]

theorem digest_absorbAll (elements : List Scalar) :
    (absorbAll {} elements).digest = hash elements := by
  rw [digest, absorbAll_blocks]
  simp

private theorem element?_of_canonical {block : Bytes} (canonical : IsCanonical block) :
    element? block = some (blockElement block) := by
  have value : (⟨block.toNatBE, canonical⟩ : Scalar) = blockElement block :=
    Fin.ext (Nat.mod_eq_of_lt canonical).symm
  exact (dif_pos canonical).trans (congrArg some value)

private theorem element?_of_not_canonical {block : Bytes} (fault : ¬IsCanonical block) :
    element? block = none := dif_neg fault

/-- Canonical blocks are absorbed, and the rest follows. -/
theorem absorbBlocks_append {good : List Bytes} (canonical : Good good) (index : Nat)
    (rest : List Bytes) : hasher.absorbBlocks index (good ++ rest) =
      (hasher.absorbAll (good.map blockElement)).absorbBlocks (index + good.length) rest := by
  induction good generalizing hasher index with
  | nil => rfl
  | cons block good ih =>
    obtain ⟨first, others⟩ := List.forall_mem_cons.mp canonical
    rw [List.cons_append, absorbBlocks, element?_of_canonical first.2]
    dsimp only
    rw [ih _ others, List.length_cons, Nat.add_comm good.length, ← Nat.add_assoc]
    rfl

theorem update_of_misaligned {stream : Bytes} (misaligned : ¬Aligned stream) :
    hasher.update stream = (hasher, .error (.misalignedInput stream.length)) := if_pos misaligned

private theorem update_of_blocks {blocks : List Bytes}
    (whole : ∀ block ∈ blocks, block.length = blockSize) :
    hasher.update blocks.flatten = hasher.absorbBlocks 0 blocks := by
  have size := Bytes.flatten_length whole
  have count : blocks.length * blockSize / blockSize = blocks.length :=
    Nat.mul_div_cancel _ (by decide)
  rw [update, size, Nat.mul_mod_left, if_neg (by simp), count, Bytes.blocks_flatten whole]

theorem update_of_good {good : List Bytes} (canonical : Good good) :
    hasher.update good.flatten = (hasher.absorbAll (good.map blockElement), .ok ()) := by
  have absorbed := hasher.absorbBlocks_append canonical 0 []
  rw [List.append_nil] at absorbed
  rw [update_of_blocks hasher fun block member => (canonical block member).1, absorbed, absorbBlocks]

/-- The block that is reported at a fault: the good blocks in front of it are counted in the hasher,
where they are by then, and once more in the call. -/
theorem update_of_breaks {stream : Bytes} {good : List Bytes} (breaks : BreaksAfter stream good) :
    hasher.update stream = (hasher.absorbAll (good.map blockElement),
      .error (.nonCanonicalBlock (hasher.blocks.size + 2 * good.length))) := by
  obtain ⟨bad, rest, rfl, whole, fault⟩ := breaks.fault
  have total : (hasher.absorbAll (good.map blockElement)).blocks.size + (0 + good.length) =
      hasher.blocks.size + 2 * good.length := by
    rw [absorbAll_size, List.length_map]
    omega
  rw [update_of_blocks hasher whole, absorbBlocks_append hasher breaks.canonical, absorbBlocks,
    element?_of_not_canonical fault]
  dsimp only
  rw [total]

/-- Elements are absorbed from their bytes. -/
theorem update_toBytes (elements : List Scalar) :
    hasher.update (elements.map Scalar.toBytes).flatten = (hasher.absorbAll elements, .ok ()) := by
  have back : blockElement ∘ Scalar.toBytes = id := funext blockElement_toBytes
  rw [update_of_good hasher (good_toBytes elements), List.map_map, back, List.map_id]

section Pieces

variable {hasher}

/-- After a piece that was absorbed, the stream goes on where the piece ends. -/
theorem update_append_of_ok {later : Hasher} {front back : Bytes}
    (accepts : hasher.update front = (later, .ok ())) (aligned : Aligned front)
    (aligned' : Aligned back) :
    (hasher.update (front ++ back)).1 = (later.update back).1 ∧
      ((hasher.update (front ++ back)).2 = .ok () ↔ (later.update back).2 = .ok ()) := by
  rcases aligned.cases with ⟨good, canonical, rfl⟩ | ⟨good, breaks⟩
  · rw [update_of_good hasher canonical] at accepts
    cases accepts
    rcases aligned'.cases with ⟨good', canonical', rfl⟩ | ⟨good', breaks'⟩
    · rw [← List.flatten_append, update_of_good _ (canonical.append canonical'),
        update_of_good _ canonical', List.map_append, absorbAll_append]
      exact ⟨rfl, Iff.rfl⟩
    · rw [update_of_breaks _ (breaks'.behind canonical), update_of_breaks _ breaks', List.map_append,
        absorbAll_append]
      exact ⟨rfl, nofun, nofun⟩
  · rw [update_of_breaks hasher breaks] at accepts
    cases accepts

/-- After a fault, nothing more of the stream matters. -/
theorem update_append_of_error {later : Hasher} {cause : HashError} {front back : Bytes}
    (fails : hasher.update front = (later, .error cause)) (aligned : Aligned front)
    (aligned' : Aligned back) : hasher.update (front ++ back) = (later, .error cause) := by
  rcases aligned.cases with ⟨good, canonical, rfl⟩ | ⟨good, breaks⟩
  · rw [update_of_good hasher canonical] at fails
    cases fails
  · rw [← fails, update_of_breaks hasher breaks, update_of_breaks hasher (breaks.append aligned')]

end Pieces

/-- Update by one piece after the other, up to the first that fails. -/
def updateAll (hasher : Hasher) : List Bytes → Hasher × Except HashError Unit
  | [] => (hasher, .ok ())
  | piece :: pieces =>
    match hasher.update piece with
    | (later, .ok ()) => later.updateAll pieces
    | (later, .error cause) => (later, .error cause)

/-- A stream in pieces is absorbed as it is in one. -/
theorem updateAll_flatten {pieces : List Bytes} (aligned : ∀ piece ∈ pieces, Aligned piece) :
    (hasher.updateAll pieces).1 = (hasher.update pieces.flatten).1 ∧
      ((hasher.updateAll pieces).2 = .ok () ↔ (hasher.update pieces.flatten).2 = .ok ()) := by
  induction pieces generalizing hasher with
  | nil => exact ⟨rfl, Iff.rfl⟩
  | cons piece pieces ih =>
    obtain ⟨first, others⟩ := List.forall_mem_cons.mp aligned
    rw [updateAll, List.flatten_cons]
    cases updated : hasher.update piece with
    | mk later answer =>
      cases answer with
      | ok done =>
        obtain ⟨same, accepted⟩ := ih later others
        obtain ⟨same', accepted'⟩ := update_append_of_ok updated first (aligned_flatten others)
        exact ⟨same.trans same'.symm, accepted.trans accepted'.symm⟩
      | error cause =>
        rw [update_append_of_error updated first (aligned_flatten others)]
        exact ⟨rfl, Iff.rfl⟩

end Hasher

/-! The longest canonical part. -/

theorem Good.prefix_of_flatten {front blocks : List Bytes} (good : Good front)
    (whole : ∀ block ∈ blocks, block.length = blockSize) (begins : front.flatten <+: blocks.flatten) :
    front <+: blocks := by
  induction front generalizing blocks with
  | nil => exact List.nil_prefix
  | cons block front ih =>
    obtain ⟨first, others⟩ := List.forall_mem_cons.mp good
    obtain ⟨tail, split⟩ := begins
    cases blocks with
    | nil =>
      have empty := congrArg List.length split
      simp [first.1, blockSize] at empty
    | cons block' blocks =>
      obtain ⟨first', others'⟩ := List.forall_mem_cons.mp whole
      rw [List.flatten_cons, List.flatten_cons, List.append_assoc] at split
      obtain ⟨rfl, rest⟩ := List.append_inj split (first.1.trans first'.symm)
      exact (List.prefix_cons_inj block).mpr (ih others others' ⟨tail, rest⟩)

theorem Good.longestFront {good : List Bytes} (canonical : Good good) :
    LongestFront good.flatten good where
  front := List.prefix_rfl
  canonical := canonical
  longest _ begins other := other.prefix_of_flatten (fun block member => (canonical block member).1) begins

theorem BreaksAfter.longestFront {stream : Bytes} {good : List Bytes} (breaks : BreaksAfter stream good) :
    LongestFront stream good := by
  obtain ⟨bad, rest, rfl, whole, fault⟩ := breaks.fault
  refine ⟨⟨_, List.flatten_append.symm⟩, breaks.canonical, fun other begins canonical => ?_⟩
  have front := canonical.prefix_of_flatten whole begins
  rcases List.prefix_or_prefix_of_prefix front (List.prefix_append good _) with short | ⟨extra, rfl⟩
  · exact short
  · cases extra with
    | nil => rw [List.append_nil]
    | cons block extra =>
      obtain ⟨tail, split⟩ := (List.prefix_append_right_inj good).mp front
      obtain ⟨rfl, -⟩ := List.cons.inj split
      exact absurd (canonical block (by simp)).2 fault

/-- An update takes whole blocks only. It absorbs the elements of the longest front part that is made
up of canonical blocks, which are the blocks that reduction and writing give back, and it succeeds
exactly if this is all of the stream. So elements are absorbed from their bytes, and a stream in
pieces of whole blocks is absorbed, and hashed, as it is in one. -/
theorem stream_absorbed (hasher : Hasher) :
    (∀ stream, ¬Aligned stream →
      hasher.update stream = (hasher, .error (.misalignedInput stream.length))) ∧
    (∀ stream, Aligned stream → ∃ good, LongestFront stream good ∧
      (hasher.update stream).1 = hasher.absorbAll (good.map blockElement) ∧
      ((hasher.update stream).2 = .ok () ↔ good.flatten = stream)) ∧
    (∀ block, block.length = blockSize →
      (IsCanonical block ↔ (blockElement block).toBytes = block)) ∧
    (∀ elements : List Scalar, hasher.update (elements.map Scalar.toBytes).flatten =
      (hasher.absorbAll elements, .ok ())) ∧
    ∀ pieces : List Bytes, (∀ piece ∈ pieces, Aligned piece) →
      (hasher.updateAll pieces).1 = (hasher.update pieces.flatten).1 ∧
      (hasher.updateAll pieces).1.digest = (hasher.update pieces.flatten).1.digest ∧
      ((hasher.updateAll pieces).2 = .ok () ↔ (hasher.update pieces.flatten).2 = .ok ()) := by
  refine ⟨fun stream => hasher.update_of_misaligned, fun stream aligned => ?_,
    fun block => isCanonical_iff, hasher.update_toBytes, fun pieces aligned => ?_⟩
  · rcases aligned.cases with ⟨good, canonical, rfl⟩ | ⟨good, breaks⟩
    · refine ⟨good, canonical.longestFront, ?_⟩
      rw [hasher.update_of_good canonical]
      exact ⟨rfl, fun _ => rfl, fun _ => rfl⟩
    · refine ⟨good, breaks.longestFront, ?_⟩
      rw [hasher.update_of_breaks breaks]
      exact ⟨rfl, nofun, fun whole => absurd whole breaks.flatten_ne⟩
  · obtain ⟨same, accepted⟩ := hasher.updateAll_flatten aligned
    exact ⟨same, congrArg Hasher.digest same, accepted⟩

end Mimc

end MailProof
