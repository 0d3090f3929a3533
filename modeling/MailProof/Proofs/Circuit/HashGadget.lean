import MailProof.Proofs.Circuit.Assignment
import MailProof.Proofs.Circuit.Size

/-! The hash over any blocks. Whatever sums of allocated wires the blocks are, an honest prover
meets the constraints of the gadget, and no values meet them with another digest than the hash. -/

namespace MailProof

open Synthesis

variable {reading : Reading} {layout : Layout}

namespace Quantity

/-- All wires of a quantity have been allocated. -/
def Within (layout : Layout) (quantity : Quantity) : Prop := quantity.terms.Within layout

theorem Within.mono {quantity : Quantity} {later : Layout} (within : quantity.Within layout)
    (grows : layout.Grows later) : quantity.Within later :=
  LinearCombination.Within.mono within grows

theorem Within.add {left right : Quantity} (first : left.Within layout)
    (second : right.Within layout) : (left.add right).Within layout := by
  cases left <;> cases right <;>
    first
    | exact LinearCombination.within_ofConstant layout _
    | exact LinearCombination.Within.append first second

theorem Within.eval_congr {quantity : Quantity} (within : quantity.Within layout)
    {first second : Wire → Scalar} (same : ∀ wire, layout.Has wire → first wire = second wire) :
    quantity.eval first = quantity.eval second := by
  cases quantity with
  | constant value => rfl
  | combination terms =>
    exact LinearCombination.eval_congr fun term member => same term.2 (within term member)

end Quantity

namespace Gadget

instance (blocks : List Quantity) : Internal (hash blocks) := by unfold hash; infer_instance

/-- The digest of allocated blocks carries their hash. -/
theorem hash_meets {blocks : List Quantity}
    (allocated : ∀ block ∈ blocks, block.Within layout) :
    Meets reading layout (hash blocks) fun output later =>
      output.Carries reading later (Mimc.hash (blocks.map (·.eval reading.value))) := by
  have chained : Meets reading layout (chain absorb (.constant 0) blocks) _ :=
    .chain (fun output d later => output.Carries reading later d)
      (fun d block => Mimc.chain d (block.eval reading.value)) blocks
      (fun later grows block member _ _ carried =>
        absorb_meets carried ⟨(allocated block member).mono grows, rfl⟩)
      (Quantity.carries_constant 0)
  refine chained.weaken fun output later carried => ?_
  rwa [Mimc.hash, List.foldl_map]

/-- Constants are hashed while the circuit is built. -/
theorem encrypt_constant (m k : Scalar) :
    encrypt (.constant m) (.constant k) =
      pure (.constant (Mimc.encrypt Mimc.roundConstants m k)) := by
  have rounds (constants : List Scalar) : chain (round (.constant k)) (.constant m) constants =
      pure (.constant (constants.foldl (fun m c => Mimc.fifthPower (m + k + c)) m)) := by
    induction constants generalizing m with
    | nil => rfl
    | cons c constants ih => exact ih (Mimc.fifthPower (m + k + c))
  rw [encrypt, rounds]
  rfl

private theorem absorb_constant (d b : Scalar) :
    absorb (.constant d) (.constant b) = pure (.constant (Mimc.chain d b)) := by
  rw [absorb, encrypt_constant]
  rfl

/-- Sizes after one more block: nothing is added for constants. -/
def absorbed (digest block : Quantity) (layout : Layout) : Layout :=
  if digest.isConstant && block.isConstant then layout
  else { layout with
    witnesses := layout.witnesses + 331
    constraints := layout.constraints + 331 }

theorem absorb_size (digest block : Quantity) (layout : Layout) :
    (absorb digest block layout).layout = absorbed digest block layout ∧
      (absorb digest block layout).output.isConstant =
        (digest.isConstant && block.isConstant) := by
  cases constants : digest.isConstant && block.isConstant with
  | false =>
    have costs := absorb_costs constants
    simp only [absorbed, constants, Bool.false_eq_true, if_false]
    exact ⟨costs.layout layout, costs.output layout⟩
  | true =>
    obtain ⟨first, second⟩ := Bool.and_eq_true_iff.mp constants
    cases digest with
    | combination terms => cases first
    | constant d =>
      cases block with
      | combination terms => cases second
      | constant b =>
        rw [absorb_constant]
        exact ⟨rfl, rfl⟩

private theorem chain_absorb_isConstant (digest : Quantity) (blocks : List Quantity)
    (layout : Layout) :
    (chain absorb digest blocks layout).output.isConstant =
      (digest.isConstant && blocks.all Quantity.isConstant) := by
  induction blocks generalizing digest layout with
  | nil => exact (Bool.and_true _).symm
  | cons block blocks ih =>
    rw [chain, bind_apply, ih, (absorb_size digest block layout).2, List.all_cons, Bool.and_assoc]

private theorem hash_isConstant (blocks : List Quantity) (layout : Layout) :
    (hash blocks layout).output.isConstant = blocks.all Quantity.isConstant :=
  chain_absorb_isConstant (.constant 0) blocks layout

/-- Hash blocks and require an expected digest. -/
def hashesTo (blocks : List Quantity) (expected : Quantity) : Synthesis Unit := do
  Quantity.enforceEqual (← hash blocks) expected

instance (blocks : List Quantity) (expected : Quantity) : Internal (hashesTo blocks expected) := by
  unfold hashesTo; infer_instance

private theorem hashesTo_meets {blocks : List Quantity} {expected : Quantity}
    (allocated : ∀ block ∈ blocks, block.Within layout)
    (sum : (blocks.all Quantity.isConstant && expected.isConstant) = false)
    (follows : reading.basis = .computed →
      expected.eval reading.value = Mimc.hash (blocks.map (·.eval reading.value))) :
    Meets reading layout (hashesTo blocks expected) fun _ _ =>
      expected.eval reading.value = Mimc.hash (blocks.map (·.eval reading.value)) := by
  rw [← hash_isConstant blocks layout] at sum
  refine .bind (hash_meets allocated).exactly fun digest later _ known => ?_
  obtain ⟨rfl, _, carried⟩ := known
  refine Meets.weaken (Quantity.enforceEqual_meets sum fun basis => ?_) fun _ _ equal => ?_
  · rw [carried.2, follows basis]
  · rw [← equal, carried.2]

private theorem chain_absorb_constant {blocks : List Quantity}
    (constants : blocks.all Quantity.isConstant)
    (d : Scalar) : ∃ digest, chain absorb (.constant d) blocks = pure (.constant digest) := by
  induction blocks generalizing d with
  | nil => exact ⟨d, rfl⟩
  | cons block blocks ih =>
    rw [List.all_cons, Bool.and_eq_true] at constants
    cases block with
    | combination terms => cases constants.1
    | constant b =>
      rw [chain, absorb_constant, pure_bind]
      exact ih constants.2 (Mimc.chain d b)

/-- Over the wires of a layout the gadget computes the hash of blocks. -/
structure Hashes (layout : Layout) (blocks : List Quantity) : Prop where
  /-- An honest prover finds values for all wires. They meet the constraints. -/
  complete : ∀ (supply : Supply) (given : Assignment), given.Fits layout →
    ∃ honest, assign supply given (hash blocks layout).steps = .ok honest ∧
      (∀ wire, layout.Has wire → honest.value wire = given.value wire) ∧
      (∀ constraint ∈ (hash blocks layout).constraints, constraint.Holds honest.value) ∧
      (hash blocks layout).output.eval honest.value =
        Mimc.hash (blocks.map (·.eval given.value))
  sound : ∀ value : Wire → Scalar, value .one = 1 →
    (∀ constraint ∈ (hash blocks layout).constraints, constraint.Holds value) →
    (hash blocks layout).output.eval value = Mimc.hash (blocks.map (·.eval value))
  /-- An expected digest can be met by some values if it is the hash. -/
  expected : ∀ (expected : Quantity) (given : Assignment), expected.Within layout →
    given.Fits layout → (blocks.all Quantity.isConstant && expected.isConstant) = false →
    ((∃ value : Wire → Scalar, value .one = 1 ∧
        (∀ wire, layout.Has wire → value wire = given.value wire) ∧
        ∀ constraint ∈ (hashesTo blocks expected layout).constraints, constraint.Holds value) ↔
      expected.eval given.value = Mimc.hash (blocks.map (·.eval given.value)))
  /-- Constants are not compared. -/
  folded : ∀ expected : Quantity, blocks.all Quantity.isConstant → expected.isConstant →
    (hashesTo blocks expected layout).steps = []
  constant : (hash blocks layout).output.isConstant = blocks.all Quantity.isConstant

private theorem map_eval_congr {blocks : List Quantity}
    (allocated : ∀ block ∈ blocks, block.Within layout) {first second : Wire → Scalar}
    (same : ∀ wire, layout.Has wire → first wire = second wire) :
    blocks.map (·.eval first) = blocks.map (·.eval second) :=
  List.map_congr_left fun block member => (allocated block member).eval_congr same

/-- Values of allocated wires extend to values of all wires that follow the rules. -/
theorem exists_computed (part : Synthesis α) [Internal part] (supply : Supply) {given : Assignment}
    (fits : given.Fits layout) :
    ∃ honest, assign supply given (part layout).steps = .ok honest ∧
      (∀ wire, layout.Has wire → honest.value wire = given.value wire) ∧
      Computed honest.value layout (part layout).steps :=
  assign_internal supply fits _ (Internal.derived_only layout)

theorem hashes {blocks : List Quantity} (allocated : ∀ block ∈ blocks, block.Within layout) :
    Hashes layout blocks where
  complete supply given fits := by
    obtain ⟨honest, run, kept, computed⟩ := exists_computed (hash blocks) supply fits
    let reading : Reading := ⟨.computed, honest.value, rfl⟩
    have meets : Meets reading layout (hash blocks) _ := hash_meets allocated
    obtain ⟨holds, _, value⟩ := meets computed
    exact ⟨honest, run, kept, holds, value.trans (congrArg _ (map_eval_congr allocated kept))⟩
  sound value one holds := by
    let reading : Reading := ⟨.constrained, value, one⟩
    have meets : Meets reading layout (hash blocks) _ := hash_meets allocated
    exact (meets holds).2.2
  expected expected given within fits sum := by
    constructor
    · rintro ⟨value, one, kept, holds⟩
      let reading : Reading := ⟨.constrained, value, one⟩
      have meets : Meets reading layout (hashesTo blocks expected) _ :=
        hashesTo_meets allocated sum nofun
      rw [← within.eval_congr kept, ← map_eval_congr allocated kept]
      exact (meets holds).2
    · intro right
      obtain ⟨honest, _, kept, computed⟩ := exists_computed (hashesTo blocks expected) {} fits
      let reading : Reading := ⟨.computed, honest.value, rfl⟩
      have meets : Meets reading layout (hashesTo blocks expected) _ :=
        hashesTo_meets allocated sum fun _ => by
          change expected.eval honest.value = Mimc.hash (blocks.map (·.eval honest.value))
          rw [within.eval_congr kept, map_eval_congr allocated kept, right]
      exact ⟨honest.value, rfl, kept, (meets computed).1⟩
  folded expected constants constant := by
    obtain ⟨digest, hashed⟩ := chain_absorb_constant constants 0
    cases expected with
    | combination terms => cases constant
    | constant e =>
      rw [hashesTo, hash, hashed, pure_bind]
      rfl
  constant := hash_isConstant blocks layout

end Gadget

end MailProof
