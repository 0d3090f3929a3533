import MailProof.Gadget.Bits
import MailProof.Proofs.Circuit.Hash

/-! Binary digits inside a circuit. Under either reading, the wires of a decomposition carry
the digits of the canonical value, and no other digits. -/

namespace MailProof

open Synthesis Fin.CommRing

variable {reading : Reading} {layout : Layout}

namespace Reading

/-- The truth value on a wire that carries zero or one. -/
def bit (reading : Reading) (wire : Wire) : Bool := reading.value wire = 1

/-- An allocated wire that carries zero or one. -/
def IsBit (reading : Reading) (layout : Layout) (wire : Wire) : Prop :=
  layout.Has wire ∧ reading.value wire = Scalar.ofBool (reading.bit wire)

theorem IsBit.mono {wire : Wire} {later : Layout} (isBit : reading.IsBit layout wire)
    (grows : layout.Grows later) : reading.IsBit later wire :=
  ⟨isBit.1.mono grows, isBit.2⟩

private theorem bit_of_value {wire : Wire} {truth : Bool}
    (value : reading.value wire = Scalar.ofBool truth) :
    reading.bit wire = truth := by
  simp [bit, value, Scalar.ofBool_eq_one_iff]

private theorem isBit_of_value {wire : Wire} (truth : Bool) (has : layout.Has wire)
    (value : reading.value wire = Scalar.ofBool truth) : reading.IsBit layout wire :=
  ⟨has, by rw [bit_of_value value, value]⟩

/-- Wires that carry the truth values of the members of a list, once something holds. -/
theorem bits_of_related {once : Prop} {truth : α → Bool} {items : List α} {wires : List Wire}
    (related : List.Forall₂ (fun item wire =>
      reading.IsBit layout wire ∧ (once → reading.bit wire = truth item)) items wires) :
    (∀ wire ∈ wires, reading.IsBit layout wire) ∧
      (once → wires.map reading.bit = items.map truth) := by
  induction related with
  | nil => simp
  | cons known _ ih =>
    refine ⟨List.forall_mem_cons.mpr ⟨known.1, ih.1⟩, fun holds => ?_⟩
    rw [List.map_cons, List.map_cons, known.2 holds, ih.2 holds]

end Reading

namespace Gadget

instance (hint : Hint) : Internal (bit hint) := by unfold bit; infer_instance

instance (x y : Wire) : Internal (conjunction x y) := by unfold conjunction; infer_instance

instance (x y : Wire) : Internal (exclusiveOr x y) := by unfold exclusiveOr; infer_instance

instance (x : Wire) : Internal (enforceZero x) := by unfold enforceZero; infer_instance

instance (preceding : Option Wire) (run : List Wire) : Internal (conjoin preceding run) := by
  cases run with
  | nil => unfold conjoin; infer_instance
  | cons first rest =>
    cases preceding <;> unfold conjoin <;> infer_instance

/-- Require that a digit is zero if all digits before it agreed. -/
def forbid (equal : Option Wire) (digit : Wire) : Synthesis Unit :=
  match equal with
  | none => enforceZero digit
  | some wire => conjunction wire digit >>= enforceZero

theorem enforceAtMost_false (equal : Option Wire) (run : List Wire) (digit : Wire)
    (rest : List (Bool × Wire)) :
    enforceAtMost equal run ((false, digit) :: rest) = (do
      let equal ← conjoin equal run
      forbid equal digit
      enforceAtMost equal [] rest) := by
  rw [enforceAtMost]
  congr 1
  funext wire
  cases wire <;> simp [forbid]

instance (equal : Option Wire) (digit : Wire) : Internal (forbid equal digit) := by
  cases equal <;> unfold forbid <;> infer_instance

instance (equal : Option Wire) (run : List Wire) (pairs : List (Bool × Wire)) :
    Internal (enforceAtMost equal run pairs) := by
  induction pairs generalizing equal run with
  | nil => unfold enforceAtMost; infer_instance
  | cons pair pairs ih =>
    obtain ⟨one, digit⟩ := pair
    cases one with
    | true => unfold enforceAtMost; infer_instance
    | false => rw [enforceAtMost_false]; infer_instance

instance (source : LinearCombination) : Internal (bits source) := by unfold bits; infer_instance

instance (x y : LinearCombination) : Internal (mix x y) := by unfold mix; infer_instance

private theorem bit_meets {hint : Hint} {truth : Bool} (within : hint.Within layout)
    (rule : reading.basis = .computed → hint.eval reading.value = Scalar.ofBool truth) :
    Meets reading layout (bit hint) fun wire later => reading.IsBit later wire ∧
      (reading.basis = .computed → reading.bit wire = truth) := by
  refine .bind (.derived within) fun wire later _ result => ?_
  have computed (basis : reading.basis = .computed) : reading.value wire = Scalar.ofBool truth :=
    (result.2 basis).trans (rule basis)
  refine .bind (.enforce fun basis => ?_) fun _ last grows holds => .pure ⟨?_, fun basis => ?_⟩
  · cases truth <;> simp [computed basis, reading.one]
  · simp only [LinearCombination.eval_sub, LinearCombination.eval_ofConstant,
      LinearCombination.eval_ofWire, reading.one, LinearCombination.eval_nil, one_mul] at holds
    rcases Scalar.eq_zero_or_eq_zero_of_mul holds with one | zero
    · exact Reading.isBit_of_value true (result.1.mono grows) (sub_eq_zero.mp one).symm
    · exact Reading.isBit_of_value false (result.1.mono grows) zero
  · exact Reading.bit_of_value (computed basis)

private theorem conjunction_meets {x y : Wire} (first : reading.IsBit layout x)
    (second : reading.IsBit layout y) :
    Meets reading layout (conjunction x y) fun both later =>
      reading.IsBit later both ∧ reading.bit both = (reading.bit x && reading.bit y) := by
  have known := LinearCombination.within_ofWire first.1
  have known' := LinearCombination.within_ofWire second.1
  refine .bind (.derived ⟨known, known'⟩) fun both later _ result => ?_
  refine .bind (.enforce fun basis => ?_) fun _ last grows holds => .pure ?_
  · simp [result.2 basis, Hint.eval]
  · have value : reading.value both = Scalar.ofBool (reading.bit x && reading.bit y) := by
      simp only [LinearCombination.eval_ofWire, first.2, second.2] at holds
      rw [← holds]
      cases reading.bit x <;> cases reading.bit y <;> simp
    exact ⟨Reading.isBit_of_value _ (result.1.mono grows) value, Reading.bit_of_value value⟩

private theorem exclusiveOr_meets {x y : Wire} (first : reading.IsBit layout x)
    (second : reading.IsBit layout y) :
    Meets reading layout (exclusiveOr x y) fun differ later =>
      reading.IsBit later differ ∧ reading.bit differ = (reading.bit x ^^ reading.bit y) := by
  have known := LinearCombination.within_ofWire first.1
  have known' := LinearCombination.within_ofWire second.1
  refine .bind (.derived ⟨known, known'⟩) fun differ later _ result => ?_
  refine .bind (.enforce fun basis => ?_) fun _ last grows holds => .pure ?_
  · simp only [result.2 basis, Hint.eval, LinearCombination.eval_cons,
      LinearCombination.eval_ofWire, LinearCombination.eval_nil]
    ring
  · have value : reading.value differ = Scalar.ofBool (reading.bit x ^^ reading.bit y) := by
      simp only [LinearCombination.eval_cons, LinearCombination.eval_ofWire,
        LinearCombination.eval_nil, one_mul, add_zero, add_mul] at holds
      have solved : reading.value differ = reading.value x + reading.value y -
          (reading.value x * reading.value y + reading.value x * reading.value y) := by
        rw [holds]
        ring
      rw [solved, first.2, second.2]
      cases reading.bit x <;> cases reading.bit y <;> rfl
    exact ⟨Reading.isBit_of_value _ (result.1.mono grows) value, Reading.bit_of_value value⟩

private theorem enforceZero_meets {x : Wire} (isBit : reading.IsBit layout x)
    (follows : reading.basis = .computed → reading.bit x = false) :
    Meets reading layout (enforceZero x) fun _ _ => reading.bit x = false := by
  refine Meets.weaken (.enforce fun basis => ?_) fun _ _ holds => ?_
  · simp [isBit.2, follows basis, reading.one]
  · apply Reading.bit_of_value
    simpa [reading.one] using holds

private theorem foldl_and (truth : Bool) (run : List Wire) :
    run.foldl (fun truth wire => truth && reading.bit wire) truth =
      (truth && run.all reading.bit) := by
  induction run generalizing truth with
  | nil => simp
  | cons wire run ih => simp [ih, Bool.and_assoc]

private theorem conjoin_meets {preceding : Option Wire} {run : List Wire}
    (isBit : ∀ wire ∈ preceding, reading.IsBit layout wire)
    (areBits : ∀ wire ∈ run, reading.IsBit layout wire) :
    Meets reading layout (conjoin preceding run) fun equal later =>
      (∀ wire ∈ equal, reading.IsBit later wire) ∧
      equal.all reading.bit = (preceding.all reading.bit && run.all reading.bit) := by
  cases run with
  | nil => exact .pure ⟨isBit, by simp⟩
  | cons first rest =>
    have chained : Meets reading layout (chain conjunction first rest) _ :=
      .chain (fun all truth later => reading.IsBit later all ∧ reading.bit all = truth)
        (fun truth wire => truth && reading.bit wire) rest
        (fun later grows wire member all truth known => Meets.weaken
          (conjunction_meets known.1
            ((areBits wire (List.mem_cons_of_mem first member)).mono grows))
          fun _ _ both => ⟨both.1, by rw [both.2, known.2]⟩)
        ⟨areBits first (List.mem_cons_self ..), rfl⟩
    refine .bind chained fun all later grows known => ?_
    rw [foldl_and] at known
    cases preceding with
    | none => exact .pure ⟨by simpa using known.1, by simpa using known.2⟩
    | some wire =>
      refine .bind (conjunction_meets known.1 ((isBit wire rfl).mono grows))
        fun both last _ result => .pure ⟨by simpa using result.1, ?_⟩
      simp [result.2, known.2, Bool.and_comm]

private theorem forbid_meets {equal : Option Wire} {digit : Wire}
    (isBit : ∀ wire ∈ equal, reading.IsBit layout wire) (digitIsBit : reading.IsBit layout digit)
    (follows : reading.basis = .computed → (equal.all reading.bit && reading.bit digit) = false) :
    Meets reading layout (forbid equal digit) fun _ _ =>
      (equal.all reading.bit && reading.bit digit) = false := by
  cases equal with
  | none => exact Meets.weaken (enforceZero_meets digitIsBit follows) fun _ _ zero => zero
  | some wire =>
    refine .bind (conjunction_meets (isBit wire rfl) digitIsBit) fun both later _ result => ?_
    refine Meets.weaken (enforceZero_meets result.1 fun basis => ?_) fun _ _ zero => ?_
    · rw [result.2]
      exact follows basis
    · rw [result.2] at zero
      exact zero

private theorem enforceAtMost_meets {equal : Option Wire} {run : List Wire}
    {pairs : List (Bool × Wire)}
    (isBit : ∀ wire ∈ equal, reading.IsBit layout wire)
    (areBits : ∀ wire ∈ run, reading.IsBit layout wire)
    (pairBits : ∀ pair ∈ pairs, reading.IsBit layout pair.2)
    (follows : reading.basis = .computed →
      atMost (equal.all reading.bit && run.all reading.bit)
        (pairs.map fun pair => (pair.1, reading.bit pair.2)) = true) :
    Meets reading layout (enforceAtMost equal run pairs) fun _ _ =>
      atMost (equal.all reading.bit && run.all reading.bit)
        (pairs.map fun pair => (pair.1, reading.bit pair.2)) = true := by
  induction pairs generalizing layout equal run with
  | nil => exact .pure rfl
  | cons pair rest ih =>
    obtain ⟨bound, digit⟩ := pair
    have digitIsBit := pairBits (bound, digit) (List.mem_cons_self ..)
    have restBits : ∀ pair ∈ rest, reading.IsBit layout pair.2 :=
      fun pair member => pairBits pair (List.mem_cons_of_mem _ member)
    cases bound with
    | true =>
      -- A digit under a one of the bound is always allowed; it only joins the run.
      have longer : ∀ wire ∈ run ++ [digit], reading.IsBit layout wire := by
        intro wire member
        rcases List.mem_append.mp member with old | new
        · exact areBits wire old
        · rwa [List.mem_singleton.mp new]
      simp only [List.map_cons, atMost, Bool.and_assoc] at follows ⊢
      simpa [enforceAtMost, Bool.and_assoc] using
        ih isBit longer restBits (by simpa [Bool.and_assoc] using follows)
    | false =>
      -- Once the run is conjoined, the run is empty again and its conjunction is what agrees.
      simp only [List.map_cons, atMost, Bool.and_eq_true, Bool.not_eq_true'] at follows ⊢
      rw [enforceAtMost_false]
      refine .bind (conjoin_meets isBit areBits) fun all later grows known => ?_
      refine .bind (forbid_meets known.1 (digitIsBit.mono grows) fun basis => ?_)
        fun _ last grows' zero => ?_
      · rw [known.2]
        exact (follows basis).1
      · refine Meets.weaken (ih (fun wire member => (known.1 wire member).mono grows')
          (by simp) (fun pair member => ((restBits pair member).mono grows).mono grows')
          fun basis => ?_) fun _ _ below => ?_
        · simpa [known.2] using (follows basis).2
        · rw [known.2] at zero
          simpa [known.2, zero] using below

/-- The weights shift with the place of the first digit. -/
private theorem weigh_zipIdx (wires : List Wire) (start : Nat)
    (areBits : ∀ wire ∈ wires, reading.IsBit layout wire) :
    LinearCombination.eval
        ((wires.zipIdx start).map fun pair => (Scalar.ofNat (1 <<< pair.2), pair.1))
        reading.value =
      2 ^ start * ((binaryValue (wires.map reading.bit) : Nat) : Scalar) := by
  induction wires generalizing start with
  | nil => simp
  | cons wire wires ih =>
    have rest := ih (start + 1) fun other member => areBits other (List.mem_cons_of_mem wire member)
    have value := (areBits wire (List.mem_cons_self ..)).2
    rw [List.zipIdx_cons, List.map_cons, LinearCombination.eval_cons, rest, value,
      Scalar.ofBool_eq_cast, Scalar.ofNat_eq_cast, Nat.one_shiftLeft, List.map_cons,
      binaryValue_cons]
    push_cast
    ring

theorem weigh_eval {wires : List Wire} (areBits : ∀ wire ∈ wires, reading.IsBit layout wire) :
    (weigh wires).eval reading.value = Scalar.ofNat (binaryValue (wires.map reading.bit)) := by
  have unshifted := weigh_zipIdx wires 0 areBits
  rw [pow_zero, one_mul] at unshifted
  exact unshifted

private theorem weigh_within {wires : List Wire}
    (areBits : ∀ wire ∈ wires, reading.IsBit layout wire) :
    (weigh wires).Within layout := by
  intro term member
  obtain ⟨pair, present, same⟩ := List.mem_map.mp member
  rw [← same]
  exact (areBits pair.1 (List.fst_mem_of_mem_zipIdx present)).1

private theorem scalarOrder_lt : scalarOrder < 2 ^ scalarBits := by decide

private theorem binaryValue_canonical (x : Scalar) :
    binaryValue (lowBits scalarBits x.val) = x.val := by
  rw [binaryValue_lowBits, Nat.mod_eq_of_lt (Nat.lt_trans x.isLt scalarOrder_lt)]

/-- Digits of a number below the field order are determined by its residue. -/
theorem lowBits_of_residue {digits : List Bool} {x : Scalar} (size : digits.length = scalarBits)
    (residue : Scalar.ofNat (binaryValue digits) = x)
    (bounded : binaryValue digits ≤ scalarOrder - 1) : digits = lowBits scalarBits x.val := by
  have below : binaryValue digits < scalarOrder := Nat.lt_of_le_sub_one (by decide) bounded
  have value : binaryValue digits = x.val := by
    rw [← residue, Scalar.val_ofNat, Nat.mod_eq_of_lt below]
  rw [← value, ← size, lowBits_binaryValue]

/-- One wire for each digit, not yet tied to the source. -/
theorem digits_meets {source : LinearCombination} (known : source.Within layout) :
    Meets reading layout (each (fun index => bit (.bit source index)) (List.range scalarBits))
      fun digits later => digits.length = scalarBits ∧
        (∀ wire ∈ digits, reading.IsBit later wire) ∧
        (reading.basis = .computed →
          digits.map reading.bit = lowBits scalarBits (source.eval reading.value).val) := by
  have allocated : Meets reading layout
      (each (fun index => bit (.bit source index)) (List.range scalarBits)) _ :=
    .each (fun index wire later => reading.IsBit later wire ∧ (reading.basis = .computed →
        reading.bit wire = (source.eval reading.value).val.testBit index))
      (List.range scalarBits)
      (fun index wire early late known grows => ⟨known.1.mono grows, known.2⟩)
      (fun later grows index _ => bit_meets (known.mono grows) fun _ => rfl)
  refine allocated.weaken fun digits later related => ⟨?_, ?_⟩
  · simpa using related.length_eq.symm
  · exact Reading.bits_of_related related

/-- The digits do not exceed the largest canonical value. -/
theorem canonical_meets {digits : List Wire} (size : digits.length = scalarBits)
    (areBits : ∀ wire ∈ digits, reading.IsBit layout wire)
    (follows : reading.basis = .computed →
      binaryValue (digits.map reading.bit) ≤ scalarOrder - 1) :
    Meets reading layout
      (enforceAtMost none [] ((binaryDigits (scalarOrder - 1)).zip digits.reverse)) fun _ _ =>
        binaryValue (digits.map reading.bit) ≤ scalarOrder - 1 := by
  have shown : ((binaryDigits (scalarOrder - 1)).zip digits.reverse).map
      (fun pair => (pair.1, reading.bit pair.2)) =
      (binaryDigits (scalarOrder - 1)).zip (digits.map reading.bit).reverse := by
    rw [← List.map_reverse, List.zip_map_right]
    rfl
  have decided := atMost_binaryDigits (scalarOrder - 1) (digits.map reading.bit)
    (by rw [List.length_map, size]; decide)
  have zipped : ∀ pair ∈ (binaryDigits (scalarOrder - 1)).zip digits.reverse,
      reading.IsBit layout pair.2 :=
    fun pair member => areBits pair.2 (List.mem_reverse.mp (List.of_mem_zip member).2)
  refine Meets.weaken (enforceAtMost_meets (by simp) (by simp) zipped fun basis => ?_)
    fun _ _ bounded => ?_
  · rw [shown]
    exact decided.mpr (follows basis)
  · rw [shown] at bounded
    exact decided.mp bounded

/-- The wires of a decomposition carry the digits of the canonical value. -/
theorem bits_meets {source : LinearCombination} (known : source.Within layout) :
    Meets reading layout (bits source) fun digits later =>
      (∀ wire ∈ digits, reading.IsBit later wire) ∧
      digits.map reading.bit = lowBits scalarBits (source.eval reading.value).val := by
  refine .bind (digits_meets known) fun digits later grows ⟨size, areBits, computed⟩ => ?_
  refine .bind (.enforce fun basis => ?_) fun _ second grows' sum => ?_
  · rw [LinearCombination.eval_sub, weigh_eval areBits, computed basis, binaryValue_canonical,
      Scalar.ofNat_val]
    simp
  have areBits' : ∀ wire ∈ digits, reading.IsBit second wire :=
    fun wire member => (areBits wire member).mono grows'
  refine .bind (canonical_meets size areBits' fun basis => ?_)
    fun _ last grows'' bounded => .pure ⟨?_, ?_⟩
  · rw [computed basis, binaryValue_canonical]
    exact Nat.le_sub_one_of_lt (source.eval reading.value).isLt
  · exact fun wire member => (areBits' wire member).mono grows''
  · rw [LinearCombination.eval_sub, weigh_eval areBits] at sum
    simp only [LinearCombination.eval_nil, zero_mul] at sum
    exact lowBits_of_residue (by simpa using size) (sub_eq_zero.mp sum.symm) bounded

/-- Wires for the digits that differ. -/
theorem differences_meets {xs ys : List Wire} (areBits : ∀ wire ∈ xs, reading.IsBit layout wire)
    (areBits' : ∀ wire ∈ ys, reading.IsBit layout wire) :
    Meets reading layout (each (fun pair : Wire × Wire => exclusiveOr pair.1 pair.2) (xs.zip ys))
      fun differences later => (∀ wire ∈ differences, reading.IsBit later wire) ∧
        differences.map reading.bit =
          List.zipWith Bool.xor (xs.map reading.bit) (ys.map reading.bit) := by
  have allocated : Meets reading layout
      (each (fun pair : Wire × Wire => exclusiveOr pair.1 pair.2) (xs.zip ys)) _ :=
    .each (fun (pair : Wire × Wire) wire later => reading.IsBit later wire ∧
        (True → reading.bit wire = (reading.bit pair.1 ^^ reading.bit pair.2)))
      (xs.zip ys)
      (fun pair wire early late known grows => ⟨known.1.mono grows, known.2⟩)
      (fun later grows pair member => Meets.weaken
        (exclusiveOr_meets ((areBits pair.1 (List.of_mem_zip member).1).mono grows)
          ((areBits' pair.2 (List.of_mem_zip member).2).mono grows))
        fun _ _ known => ⟨known.1, fun _ => known.2⟩)
  refine allocated.weaken fun differences later related => ?_
  obtain ⟨differenceBits, digits⟩ := Reading.bits_of_related related
  have paired : (xs.zip ys).map (fun pair => reading.bit pair.1 ^^ reading.bit pair.2) =
      List.zipWith Bool.xor (xs.map reading.bit) (ys.map reading.bit) := by
    rw [List.zipWith_map, List.zip, List.map_zipWith]
  exact ⟨differenceBits, (digits trivial).trans paired⟩

/-- The mixed block carries the residue of the exclusive or of two canonical values. -/
theorem mix_meets {x y : LinearCombination} (known : x.Within layout) (known' : y.Within layout) :
    Meets reading layout (mix x y) fun mixed later => mixed.Within later ∧
      mixed.eval reading.value =
        Scalar.ofNat ((x.eval reading.value).val ^^^ (y.eval reading.value).val) := by
  refine .bind (bits_meets known) fun xs second grows ⟨areBits, digits⟩ => ?_
  refine .bind (bits_meets (known'.mono grows)) fun ys third grows' ⟨areBits', digits'⟩ => ?_
  refine .bind (differences_meets (fun wire member => (areBits wire member).mono grows') areBits')
    fun differences last _ ⟨differenceBits, differenceDigits⟩ => .pure ⟨?_, ?_⟩
  · exact weigh_within differenceBits
  · have bounded : (x.eval reading.value).val ^^^ (y.eval reading.value).val < 2 ^ scalarBits :=
      Nat.xor_lt_two_pow (Nat.lt_trans (x.eval reading.value).isLt scalarOrder_lt)
        (Nat.lt_trans (y.eval reading.value).isLt scalarOrder_lt)
    rw [weigh_eval differenceBits, differenceDigits, digits, digits', ← lowBits_xor,
      binaryValue_lowBits, Nat.mod_eq_of_lt bounded]

end Gadget

end MailProof
