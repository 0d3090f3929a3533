import MailProof.Proofs.Packing
import Mathlib.Algebra.BigOperators.Intervals
import Mathlib.Data.List.DropRight

/-! Packed texts read back. The elements of a text hold its code points in 32-bit groups, so the
text is recovered from them up to the null characters at its end, which are packed as nothing. -/

namespace MailProof

/-- Code point at a place; zero behind the end. -/
def pointAt (points : List Char) (place : Nat) : Nat := points[place]?.elim 0 Char.toNat

@[simp] theorem pointAt_nil (place : Nat) : pointAt [] place = 0 := rfl

@[simp] theorem pointAt_cons_zero (point : Char) (points : List Char) :
    pointAt (point :: points) 0 = point.toNat := rfl

@[simp] theorem pointAt_cons_succ (point : Char) (points : List Char) (place : Nat) :
    pointAt (point :: points) (place + 1) = pointAt points place := rfl

/-- A place of an element is a place of the text. -/
theorem pointAt_chunk (points : List Char) (start : Nat) {width place : Nat}
    (inside : place < width) :
    pointAt ((points.drop start).take width) place = pointAt points (start + place) := by
  rw [pointAt, List.getElem?_take_of_lt inside, List.getElem?_drop, pointAt]

theorem packPoints_cons (point : Char) (points : List Char) :
    packPoints (point :: points) = point.toNat + UInt32.size * packPoints points := rfl

private theorem packPoints_eq_sum {points : List Char} {count : Nat}
    (short : points.length ≤ count) :
    packPoints points = ∑ k ∈ Finset.range count, pointAt points k * 2 ^ (32 * k) := by
  induction points generalizing count with
  | nil => simp [packPoints]
  | cons point points ih =>
    obtain ⟨count, rfl⟩ : ∃ less, count = less + 1 := ⟨count - 1, by simp at short; omega⟩
    have width (k : Nat) : 2 ^ (32 * (k + 1)) = UInt32.size * 2 ^ (32 * k) := by
      rw [Nat.mul_succ, Nat.pow_add, Nat.mul_comm]
    rw [packPoints_cons, ih (Nat.le_of_succ_le_succ short), Finset.sum_range_succ',
      Finset.mul_sum, Nat.add_comm]
    simp only [pointAt_cons_succ, pointAt_cons_zero, width, Nat.mul_zero, Nat.pow_zero, Nat.mul_one,
      Nat.mul_left_comm]

/-- A 32-bit group of packed code points is one of them. -/
theorem packPoints_group (points : List Char) (k : Nat) :
    packPoints points >>> (32 * k) % UInt32.size = pointAt points k := by
  induction points generalizing k with
  | nil => simp [packPoints]
  | cons point points ih =>
    have low : point.toNat < UInt32.size := point.val.toNat_lt
    rw [packPoints_cons]
    cases k with
    | zero =>
      rw [Nat.mul_zero, Nat.shiftRight_zero, Nat.add_mul_mod_self_left, Nat.mod_eq_of_lt low,
        pointAt_cons_zero]
    | succ k =>
      have rest : (point.toNat + UInt32.size * packPoints points) >>> 32 = packPoints points := by
        rw [Nat.shiftRight_eq_div_pow, Nat.add_mul_div_left _ _ (by decide), Nat.div_eq_of_lt low,
          Nat.zero_add]
      rw [Nat.mul_succ, Nat.add_comm (32 * k), Nat.shiftRight_add, rest, ih, pointAt_cons_succ]

/-- The places of a text that can be packed, element by element. -/
theorem range_elements (f : Nat → α) (count width : Nat) :
    ((List.range count).flatMap fun i => (List.range width).map fun k => f (width * i + k)) =
      (List.range (width * count)).map f := by
  induction count with
  | zero => simp
  | succ count ih =>
    rw [List.range_succ, List.flatMap_append, ih, Nat.mul_succ, List.range_add, List.map_append,
      List.map_map, List.flatMap_singleton]
    rfl

private theorem map_pointAt {points : List Char} {count : Nat} (short : points.length ≤ count) :
    (List.range count).map (pointAt points) =
      points.map Char.toNat ++ List.replicate (count - points.length) 0 := by
  induction points generalizing count with
  | nil =>
    refine List.eq_replicate_iff.mpr ⟨by simp, fun point member => ?_⟩
    obtain ⟨place, _, rfl⟩ := List.mem_map.mp member
    rfl
  | cons point points ih =>
    obtain ⟨count, rfl⟩ : ∃ less, count = less + 1 := ⟨count - 1, by simp at short; omega⟩
    have rest := ih (Nat.le_of_succ_le_succ short)
    rw [List.range_succ_eq_map, List.map_cons, List.map_map, List.map_cons, List.cons_append,
      List.length_cons, Nat.add_sub_add_right, ← rest]
    rfl

/-- The number packed from a part of a text. -/
theorem packPoints_chunk (points : List Char) (start : Nat) :
    packPoints ((points.drop start).take charsPerElement) =
      ∑ k ∈ Finset.range charsPerElement, pointAt points (start + k) * 2 ^ (32 * k) := by
  rw [packPoints_eq_sum (List.length_take_le ..)]
  refine Finset.sum_congr rfl fun k member => ?_
  rw [pointAt_chunk _ _ (Finset.mem_range.mp member)]

/-- A text is packed if it is short enough, and each element is the number of its code points, with
nothing reduced. -/
theorem pack_eq_ok_iff (text : String) (packed : PackedText) :
    pack text = .ok packed ↔ text.length ≤ textCapacity ∧
      ∀ (i : Nat) (_ : i < packedSize), packed[i].val = ∑ k ∈ Finset.range charsPerElement,
        pointAt text.toList (charsPerElement * i + k) * 2 ^ (32 * k) := by
  have element (i : Nat) : (Scalar.ofNat (packPoints
      ((text.toList.drop (charsPerElement * i)).take charsPerElement))).val =
      ∑ k ∈ Finset.range charsPerElement,
        pointAt text.toList (charsPerElement * i + k) * 2 ^ (32 * k) := by
    have short : ((text.toList.drop (charsPerElement * i)).take charsPerElement).length ≤
        charsPerElement := List.length_take_le ..
    have bounded := Nat.lt_of_lt_of_le (packPoints_lt _)
      (Nat.pow_le_pow_right (by decide : 0 < 2) (Nat.mul_le_mul_left 32 short))
    rw [Scalar.val_ofNat, Nat.mod_eq_of_lt (Nat.lt_trans bounded packedBits_lt_scalarOrder),
      packPoints_chunk]
  rw [pack, String.length_toList]
  by_cases long : text.length > textCapacity
  · rw [if_pos long]
    constructor
    · intro packs
      cases packs
    · intro fits
      exact absurd fits.1 (Nat.not_le_of_lt long)
  · rw [if_neg long, Except.ok.injEq, Vector.ext_iff, and_iff_right (Nat.le_of_not_lt long)]
    refine forall₂_congr fun i inRange => ?_
    rw [Vector.getElem_ofFn, ← element, eq_comm, Fin.ext_iff]

/-- The 32-bit groups of an element that hold code points, lowest first. -/
def Scalar.points (element : Scalar) : List Nat :=
  (List.range charsPerElement).map fun k => element.val >>> (32 * k) % UInt32.size

/-- The text without the null characters that it ends in. -/
def trimNulls (text : String) : String :=
  String.ofList (text.toList.rdropWhile (· = '\x00'))

namespace PackedText

/-- The 32-bit groups of all elements. -/
def points (packed : PackedText) : List Nat := packed.toList.flatMap Scalar.points

/-- The text that is read from the groups. -/
def text (packed : PackedText) : String :=
  trimNulls (String.ofList (packed.points.map Char.ofNat))

end PackedText

section Reading

variable {text other : String} {packed : PackedText}

private theorem points_of_pack (packs : pack text = .ok packed) : packed.points =
    text.toList.map Char.toNat ++ List.replicate (textCapacity - text.length) 0 := by
  obtain ⟨short, values⟩ := (pack_eq_ok_iff text packed).mp packs
  rw [← String.length_toList] at short ⊢
  have group (i k : Nat) (inRange : i < packedSize) (inside : k < charsPerElement) :
      packed[i].val >>> (32 * k) % UInt32.size = pointAt text.toList (charsPerElement * i + k) := by
    rw [values i inRange, ← packPoints_chunk, packPoints_group, pointAt_chunk _ _ inside]
  rw [← map_pointAt short, textCapacity, Nat.mul_comm, ← range_elements, PackedText.points,
    List.flatMap_def, List.flatMap_def]
  congr 1
  apply List.ext_getElem
  · simp
  · intro i inRange _
    have bounded : i < packedSize := by simpa using inRange
    rw [List.getElem_map, List.getElem_map, List.getElem_range, Vector.getElem_toList, Scalar.points]
    exact List.map_congr_left fun k member => group i k bounded (List.mem_range.mp member)

private theorem rdropWhile_append_replicate {p : α → Bool} {x : α} (dropped : p x = true)
    (front : List α)
    (count : Nat) : (front ++ List.replicate count x).rdropWhile p = front.rdropWhile p := by
  induction count with
  | zero => simp
  | succ count ih =>
    rw [List.replicate_succ', ← List.append_assoc, List.rdropWhile_concat_pos _ _ _ dropped, ih]

/-- A text is recovered up to the null characters at its end. -/
theorem text_of_pack (packs : pack text = .ok packed) : packed.text = trimNulls text := by
  have chars : packed.points.map Char.ofNat =
      text.toList ++ List.replicate (textCapacity - text.length) '\x00' := by
    have back : Char.ofNat ∘ Char.toNat = id := funext Char.ofNat_toNat
    rw [points_of_pack packs, List.map_append, List.map_map, back, List.map_id, List.map_replicate]
  rw [PackedText.text, trimNulls, chars, String.toList_ofList,
    rdropWhile_append_replicate (by rfl)]
  rfl

/-- Null characters at the end of a text add nothing to its elements. -/
theorem pointAt_trimNulls (text : String) (place : Nat) :
    pointAt (trimNulls text).toList place = pointAt text.toList place := by
  have nulls : text.toList.rtakeWhile (· = '\x00') =
      List.replicate (text.toList.rtakeWhile (· = '\x00')).length '\x00' :=
    List.eq_replicate_iff.mpr ⟨rfl, fun char member => by simpa using List.mem_rtakeWhile_imp member⟩
  have whole : text.toList = (trimNulls text).toList ++
      List.replicate (text.toList.rtakeWhile (· = '\x00')).length '\x00' := by
    rw [trimNulls, String.toList_ofList, ← nulls, List.rdropWhile_append_rtakeWhile]
  rw [whole, pointAt, pointAt, List.getElem?_append]
  split
  · rfl
  · next behind =>
    rw [List.getElem?_eq_none (Nat.le_of_not_lt behind), List.getElem?_replicate]
    split <;> rfl

/-- Elements do not tell how many null characters a text ends in. -/
theorem pack_congr (fits : text.length ≤ textCapacity) (fits' : other.length ≤ textCapacity)
    (same : trimNulls text = trimNulls other) : pack text = pack other := by
  obtain ⟨packed, packs⟩ := pack_of_fits fits
  have values := ((pack_eq_ok_iff text packed).mp packs).2
  rw [packs, eq_comm, pack_eq_ok_iff]
  refine ⟨fits', fun i inRange => ?_⟩
  simp only [values i inRange, ← pointAt_trimNulls text, same, pointAt_trimNulls other]

end Reading

/-- How a text lies in its elements. -/
structure PackedText.Lays (packed : PackedText) (text : String) : Prop where
  value : ∀ (i : Nat) (_ : i < packedSize), packed[i].val =
    ∑ k ∈ Finset.range charsPerElement,
      pointAt text.toList (charsPerElement * i + k) * 2 ^ (32 * k)
  bounded : ∀ (i : Nat) (_ : i < packedSize), packed[i].val < 2 ^ 224
  points : packed.points =
    text.toList.map Char.toNat ++ List.replicate (textCapacity - text.length) 0
  text : packed.text = trimNulls text

/-- A text is packed exactly if it has no more characters than the elements have room for. The
elements hold seven code points each, in 32-bit groups and with nothing reduced, and the groups read
back are the code points with zeros behind them. -/
theorem packing_exact (text : String) : 2 ^ 224 < scalarOrder ∧
    if text.length > textCapacity then
      pack text = .error (.inputTooLong text.length textCapacity)
    else ∃ packed, pack text = .ok packed ∧ packed.Lays text := by
  refine ⟨packedBits_lt_scalarOrder, ?_⟩
  split
  · next long => exact pack_of_long long
  · next short =>
    obtain ⟨packed, packs⟩ := pack_of_fits (Nat.le_of_not_lt short)
    exact ⟨packed, packs, {
      value := ((pack_eq_ok_iff text packed).mp packs).2
      bounded := pack_bounded packs
      points := points_of_pack packs
      text := text_of_pack packs }⟩

/-- Two texts become the same elements exactly if both can be packed and they differ at most in the
null characters at their ends. -/
theorem packs_alike_iff (first second : String) :
    (∃ packed, pack first = .ok packed ∧ pack second = .ok packed) ↔
      first.length ≤ textCapacity ∧ second.length ≤ textCapacity ∧
        trimNulls first = trimNulls second := by
  constructor
  · rintro ⟨packed, packs, packs'⟩
    refine ⟨((pack_eq_ok_iff _ _).mp packs).1, ((pack_eq_ok_iff _ _).mp packs').1, ?_⟩
    rw [← text_of_pack packs, text_of_pack packs']
  · rintro ⟨fits, fits', same⟩
    obtain ⟨packed, packs⟩ := pack_of_fits fits
    exact ⟨packed, packs, pack_congr fits fits' same ▸ packs⟩

/-- A null character is packed as the zero that stands for no character. -/
theorem null_packs_as_nothing : ∃ first second : String, first ≠ second ∧
    ∃ packed, pack first = .ok packed ∧ pack second = .ok packed := by
  have short : "\x00".length ≤ textCapacity := by decide
  obtain ⟨packed, packs⟩ := pack_of_fits short
  have same : pack "" = pack "\x00" := pack_congr (by decide) short (by decide)
  exact ⟨"", "\x00", by decide, packed, same.trans packs, packs⟩

end MailProof
