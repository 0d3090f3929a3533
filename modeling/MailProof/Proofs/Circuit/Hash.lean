import MailProof.Gadget.Mimc
import MailProof.Proofs.Circuit.Reading
import MailProof.Proofs.Scalar

/-! The hash inside a circuit. Under either reading, the quantity that the gadget returns
carries the hash of what its blocks carry. -/

namespace MailProof

open Synthesis Fin.CommRing

variable {reading : Reading} {layout : Layout}

namespace Quantity

/-- All wires of a quantity are allocated, and it has a given value. -/
def Carries (reading : Reading) (layout : Layout) (quantity : Quantity) (x : Scalar) : Prop :=
  quantity.terms.Within layout ∧ quantity.eval reading.value = x

theorem Carries.mono {quantity : Quantity} {later : Layout} (carries : quantity.Carries reading layout x)
    (grows : layout.Grows later) : quantity.Carries reading later x :=
  ⟨carries.1.mono grows, carries.2⟩

@[simp] theorem eval_terms (quantity : Quantity) :
    quantity.terms.eval reading.value = quantity.eval reading.value := by
  cases quantity <;> simp [terms, eval, reading.one]

theorem carries_constant (x : Scalar) : (constant x).Carries reading layout x :=
  ⟨LinearCombination.within_ofConstant layout x, rfl⟩

theorem carries_ofWire {wire : Wire} (has : layout.Has wire) :
    (ofWire wire).Carries reading layout (reading.value wire) :=
  ⟨LinearCombination.within_ofWire has, LinearCombination.eval_ofWire reading.value wire⟩

theorem Carries.add {left right : Quantity} (first : left.Carries reading layout x)
    (second : right.Carries reading layout y) : (left.add right).Carries reading layout (x + y) := by
  have value : (left.add right).eval reading.value =
      left.eval reading.value + right.eval reading.value := by
    cases left <;> cases right <;> simp [Quantity.add, eval, terms, reading.one]
  refine ⟨?_, by rw [value, first.2, second.2]⟩
  cases left <;> cases right <;>
    first
    | exact LinearCombination.within_ofConstant layout _
    | exact first.1.append second.1

theorem Carries.mul {left right : Quantity} (first : left.Carries reading layout x)
    (second : right.Carries reading layout y) :
    Meets reading layout (left.mul right) fun product later =>
      product.Carries reading later (x * y) := by
  obtain ⟨known, rfl⟩ := first
  obtain ⟨known', rfl⟩ := second
  cases left with
  | constant a =>
    cases right with
    | constant b => exact .pure (carries_constant (a * b))
    | combination b => exact .pure ⟨known'.scale a, LinearCombination.eval_scale ..⟩
  | combination a =>
    cases right with
    | constant b =>
      refine .pure ⟨known.scale b, ?_⟩
      exact (LinearCombination.eval_scale ..).trans (mul_comm ..)
    | combination b =>
      refine .bind (.derived ⟨known, known'⟩) fun wire later _ result => ?_
      refine .bind (.enforce fun basis => ?_) fun _ last grows holds => ?_
      · rw [LinearCombination.eval_ofWire, result.2 basis, Hint.eval]
      · rw [LinearCombination.eval_ofWire] at holds
        exact .pure ⟨LinearCombination.within_ofWire (result.1.mono grows),
          (LinearCombination.eval_ofWire ..).trans holds.symm⟩

theorem enforceEqual_meets {left right : Quantity}
    (sum : (left.isConstant && right.isConstant) = false)
    (follows : reading.basis = .computed → left.eval reading.value = right.eval reading.value) :
    Meets reading layout (enforceEqual left right) fun _ _ =>
      left.eval reading.value = right.eval reading.value := by
  rw [enforceEqual_of_sum sum]
  refine Meets.weaken (.enforce fun basis => ?_) fun _ _ holds => ?_
  · simp [follows basis, reading.one]
  · simpa [reading.one, sub_eq_zero] using holds

end Quantity

namespace Gadget

instance (left right : Quantity) : Internal (left.mul right) := by
  cases left <;> cases right <;> unfold Quantity.mul <;> infer_instance

instance (left right : Quantity) : Internal (left.enforceEqual right) := by
  unfold Quantity.enforceEqual; split <;> infer_instance

instance (quantity : Quantity) : Internal (pin quantity) := by
  cases quantity <;> unfold pin <;> infer_instance

instance (key message : Quantity) (constant : Scalar) : Internal (round key message constant) := by
  unfold round; infer_instance

instance (message key : Quantity) : Internal (encrypt message key) := by
  unfold encrypt; infer_instance

instance (digest block : Quantity) : Internal (absorb digest block) := by
  unfold absorb; infer_instance

private theorem round_meets {key message : Quantity} (keyed : key.Carries reading layout k)
    (carried : message.Carries reading layout m) (constant : Scalar) :
    Meets reading layout (round key message constant) fun output later =>
      output.Carries reading later (Mimc.fifthPower (m + k + constant)) := by
  have base := (carried.add keyed).add (Quantity.carries_constant constant)
  refine .bind (base.mul base) fun square second grows squared => ?_
  refine .bind (squared.mul squared) fun fourth third grows' result => ?_
  exact result.mul ((base.mono grows).mono grows')

private theorem encrypt_meets {message key : Quantity} (carried : message.Carries reading layout m)
    (keyed : key.Carries reading layout k) :
    Meets reading layout (encrypt message key) fun output later =>
      output.Carries reading later (Mimc.encrypt Mimc.roundConstants m k) := by
  have rounds : Meets reading layout (chain (round key) message Mimc.roundConstants) _ :=
    .chain (fun output x later => output.Carries reading later x)
      (fun x constant => Mimc.fifthPower (x + k + constant)) Mimc.roundConstants
      (fun later grows constant _ _ _ known => round_meets (keyed.mono grows) known constant) carried
  exact .bind rounds fun output later grows known => .pure (known.add (keyed.mono grows))

/-- A pinned quantity carries what it carried before. -/
theorem pin_meets {quantity : Quantity} (carries : quantity.Carries reading layout x) :
    Meets reading layout (pin quantity) fun output later => output.Carries reading later x := by
  obtain ⟨known, rfl⟩ := carries
  cases quantity with
  | constant a => exact .pure (Quantity.carries_constant a)
  | combination terms =>
    refine .bind (.derived known) fun wire later _ result => ?_
    refine .bind (Quantity.enforceEqual_meets rfl fun basis => ?_) fun _ last grows equal => ?_
    · rw [(Quantity.carries_ofWire result.1).2, result.2 basis]
      rfl
    · rw [(Quantity.carries_ofWire result.1).2] at equal
      rw [← equal]
      exact .pure (Quantity.carries_ofWire (result.1.mono grows))

theorem absorb_meets {digest block : Quantity} (carried : digest.Carries reading layout d)
    (given : block.Carries reading layout b) :
    Meets reading layout (absorb digest block) fun output later =>
      output.Carries reading later (Mimc.chain d b) := by
  refine .bind (encrypt_meets given carried) fun encrypted later grows known => ?_
  exact pin_meets (((carried.mono grows).add known).add (given.mono grows))

end Gadget

end MailProof
