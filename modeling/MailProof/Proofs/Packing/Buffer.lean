import MailProof.Proofs.Packing

/-! Packing through buffers. A text is cut into chunks, each chunk overwrites the first slots of a
buffer of zeros, and the numbers of the buffers overwrite the first of the zero elements. What comes
out are the packed elements: a chunk that is cut short and elements without a chunk are filled up
with zeros. -/

namespace MailProof

/-- Parts of a size, the last of which may be shorter. -/
def chunks (size : Nat) : List α → List (List α)
  | [] => []
  | first :: rest => (first :: rest.take size.pred) :: chunks size (rest.drop size.pred)
termination_by list => list.length

/-- Write values over the first of some cells. Values that find no cell are left out. -/
def overwrite : (cells values : List α) → List α
  | _ :: cells, value :: values => value :: overwrite cells values
  | cells, _ => cells

/-- Bytes of a buffer of zeros, once the little-endian code points of a chunk are written to its
slots of four bytes. -/
def chunkBuffer (chunk : List Char) : Bytes :=
  (overwrite (Bytes.blocks 4 8 (List.replicate 32 0))
    (chunk.map fun point => Bytes.littleEndian 4 point.toNat)).flatten

/-- Slots without a code point count as nothing. -/
private theorem toNatLE_zeros (count : Nat) :
    Bytes.toNatLE (List.replicate count (List.replicate 4 0)).flatten = 0 := by
  induction count with
  | zero => rfl
  | succ count ih =>
    rw [List.replicate_succ, List.flatten_cons, Bytes.toNatLE_append, ih]
    rfl

private theorem toNatLE_slots {chunk : List Char} {count : Nat} (fits : chunk.length ≤ count) :
    Bytes.toNatLE (overwrite (List.replicate count (List.replicate 4 0))
      (chunk.map fun point => Bytes.littleEndian 4 point.toNat)).flatten = packPoints chunk := by
  induction chunk generalizing count with
  | nil =>
    have kept : overwrite (List.replicate count (List.replicate 4 (0 : UInt8))) [] =
        List.replicate count (List.replicate 4 0) := by
      cases count <;> rfl
    rw [List.map_nil, kept, toNatLE_zeros]
    rfl
  | cons point chunk ih =>
    obtain ⟨count, rfl⟩ := Nat.exists_eq_add_one_of_ne_zero (Nat.ne_zero_of_lt fits)
    have low : point.toNat < 256 ^ 4 := point.val.toNat_lt
    rw [List.replicate_succ, List.map_cons, overwrite, List.flatten_cons, Bytes.toNatLE_append,
      ih (Nat.le_of_succ_le_succ fits), Bytes.toNatLE_littleEndian, Nat.mod_eq_of_lt low,
      Bytes.littleEndian_length]
    rfl

/-- The number of a buffer is that of the code points in it. -/
theorem toNatLE_chunkBuffer {chunk : List Char} (fits : chunk.length ≤ charsPerElement) :
    (chunkBuffer chunk).toNatLE = packPoints chunk := by
  have slots : Bytes.blocks 4 8 (List.replicate 32 0) =
      List.replicate 8 (List.replicate 4 0) := rfl
  rw [chunkBuffer, slots]
  exact toNatLE_slots (Nat.le_succ_of_le fits)

private theorem length_of_mem_chunks {size : Nat} (positive : 0 < size) {list chunk : List α}
    (member : chunk ∈ chunks size list) : chunk.length ≤ size := by
  fun_induction chunks size list with
  | case1 => cases member
  | case2 first rest ih =>
    rcases List.mem_cons.mp member with rfl | later
    · have shorter : (rest.take size.pred).length ≤ size.pred := List.length_take_le ..
      rw [List.length_cons, ← Nat.succ_pred_eq_of_pos positive]
      exact Nat.succ_le_succ shorter
    · exact ih later

/-- The chunk that is written to a cell is the part of the list at its place. -/
private theorem overwrite_chunks {size : Nat} (positive : 0 < size) (f : List α → β) (count : Nat)
    (list : List α) : overwrite (List.replicate count (f [])) ((chunks size list).map f) =
      (List.range count).map fun i => f ((list.drop (size * i)).take size) := by
  obtain ⟨size, rfl⟩ := Nat.exists_eq_add_one_of_ne_zero positive.ne'
  induction count generalizing list with
  | zero => cases list <;> simp [overwrite]
  | succ count ih =>
    rw [List.replicate_succ, List.range_succ_eq_map, List.map_cons, List.map_map]
    cases list with
    | nil => simp [chunks, overwrite, Function.comp_def, List.map_const']
    | cons first rest =>
      have later (i : Nat) : (first :: rest).drop ((size + 1) * i.succ) =
          (rest.drop size).drop ((size + 1) * i) := by
        rw [List.drop_drop, Nat.mul_succ, Nat.add_comm, Nat.add_right_comm, List.drop_succ_cons]
      rw [chunks, List.map_cons, overwrite, ih]
      simp [later]

/-- A text is packed into the numbers of the buffers of its chunks, one after another. -/
theorem pack_eq_overwrite {text : String} {packed : PackedText} (packs : pack text = .ok packed) :
    packed.toList = overwrite (List.replicate packedSize 0)
      ((chunks charsPerElement text.toList).map fun chunk =>
        Scalar.ofNat (chunkBuffer chunk).toNatLE) := by
  have positive : 0 < charsPerElement := by decide
  have buffers : (chunks charsPerElement text.toList).map (fun chunk =>
      Scalar.ofNat (chunkBuffer chunk).toNatLE) =
      (chunks charsPerElement text.toList).map fun chunk => Scalar.ofNat (packPoints chunk) :=
    List.map_congr_left fun chunk member => by
      rw [toNatLE_chunkBuffer (length_of_mem_chunks positive member)]
  have filled := overwrite_chunks positive (fun chunk => Scalar.ofNat (packPoints chunk))
    packedSize text.toList
  rw [pack] at packs
  split at packs
  · cases packs
  · rw [← Except.ok.inj packs, buffers]
    refine (List.ext_getElem ?_ fun i _ _ => ?_).trans filled.symm
    · simp
    · simp

end MailProof
