import MailProof.Gadget.HashCircuit
import MailProof.Proofs.Circuit.HashGadget
import MailProof.Proofs.Circuit.Supply

/-! Circuits that hash blocks, whose wires are allocated just before each block is absorbed. The
supply has a value for every wire, and the digest is the hash of the values of the blocks. -/

namespace MailProof

open Synthesis

variable {reading : Reading} {layout : Layout} {given : Assignment}

theorem Quantity.Carries.keep {quantity : Quantity} {later : Layout} {after : Assignment}
    (carries : quantity.Carries given.reading layout x) (grows : layout.Grows later)
    (kept : given.Keeps layout after) : quantity.Carries after.reading later x :=
  ⟨carries.1.mono grows, (Quantity.Within.eval_congr carries.1 kept).trans carries.2⟩

theorem Quantity.valueIn_eq (quantity : Quantity) (constraints : List Constraint) (shape : Shape)
    (assignment : Assignment) :
    quantity.valueIn ⟨constraints, shape, some assignment⟩ = .ok (quantity.eval assignment.value) := by
  cases quantity <;> rfl

namespace Operand

def isConstant : Operand → Bool
  | .constant _ => true
  | _ => false

instance (operand : Operand) : Counted operand.allocate := by
  cases operand <;> unfold allocate <;> infer_instance

private theorem allocate_meets (operand : Operand) :
    Meets reading layout operand.allocate fun term later => term.Within later := by
  cases operand with
  | constant x => exact .pure (LinearCombination.within_ofConstant layout x)
  | input x => exact .bind .input fun wire later _ has => .pure (LinearCombination.within_ofWire has)
  | witness x => exact .bind .secret fun wire later _ has => .pure (LinearCombination.within_ofWire has)

private theorem allocate_draws (operand : Operand) (fits : given.Fits layout) :
    Draws given layout operand.allocate operand.inputValue?.toList operand.witnessValue?.toList
      fun term later after => term.Carries after.reading later operand.value := by
  cases operand with
  | constant x => exact .pure (Quantity.carries_constant x)
  | input x =>
    refine .bind (.input x fits) fits fun wire later between _ _ _ ⟨has, _, carried⟩ => ?_
    refine .pure ?_
    rw [← carried]
    exact Quantity.carries_ofWire has
  | witness x =>
    refine .bind (.secret x fits) fits fun wire later between _ _ _ ⟨has, carried⟩ => ?_
    refine .pure ?_
    rw [← carried]
    exact Quantity.carries_ofWire has

end Operand

namespace Block

/-- One more term of a block. -/
def addOperand (sum : Quantity) (operand : Operand) : Synthesis Quantity :=
  return sum.add (← operand.allocate)

instance (sum : Quantity) (operand : Operand) : Counted (addOperand sum operand) := by
  unfold addOperand; infer_instance

private theorem allocate_eq (block : Block) :
    block.allocate = chain addOperand (.constant 0) block := rfl

instance (block : Block) : Counted block.allocate := by
  rw [allocate_eq]; infer_instance

private theorem allocate_meets (block : Block) :
    Meets reading layout block.allocate fun sum later => sum.Within later := by
  refine @Meets.chain reading layout _ _ Unit addOperand _ (fun sum _ later => sum.Within later)
    (fun _ _ => ()) block (fun later _ operand _ sum _ within => ?_) (.constant 0) ()
    (LinearCombination.within_ofConstant layout 0)
  exact .bind operand.allocate_meets fun term last grows within' =>
    .pure ((Quantity.Within.mono within grows).add within')

private theorem addOperand_draws {sum : Quantity} (carried : sum.Carries given.reading layout x)
    (operand : Operand) (fits : given.Fits layout) :
    Draws given layout (addOperand sum operand) operand.inputValue?.toList
      operand.witnessValue?.toList
      fun sum later after => sum.Carries after.reading later (x + operand.value) := by
  rw [← List.append_nil operand.inputValue?.toList, ← List.append_nil operand.witnessValue?.toList]
  exact .bind (operand.allocate_draws fits) fits fun term later between grows _ kept known =>
    .pure ((carried.keep grows kept).add known)

/-- An honest prover gives the sum of a block its value. -/
theorem allocate_draws (block : Block) (fits : given.Fits layout) :
    Draws given layout block.allocate (block.filterMap Operand.inputValue?)
      (block.filterMap Operand.witnessValue?)
      fun sum later after => sum.Carries after.reading later block.value := by
  rw [List.filterMap_eq_flatMap_toList, List.filterMap_eq_flatMap_toList]
  exact Draws.chain _ _ (fun sum x later after => Quantity.Carries after.reading later sum x)
    (fun x operand => x + operand.value)
    (fun _ _ fits' operand _ _ carried => addOperand_draws carried operand fits')
    block fits (Quantity.carries_constant 0)

private theorem allocate_isConstant (block : Block) (layout : Layout) :
    (block.allocate layout).output.isConstant = block.all Operand.isConstant := by
  have chained (sum : Quantity) :
      (chain addOperand sum block layout).output.isConstant =
        (sum.isConstant && block.all Operand.isConstant) := by
    induction block generalizing sum layout with
    | nil => exact (Bool.and_true _).symm
    | cons operand block ih =>
      have term : (operand.allocate layout).output.isConstant = operand.isConstant := by
        cases operand <;> rfl
      have added : (addOperand sum operand layout).output.isConstant =
          (sum.isConstant && operand.isConstant) := by
        rw [← term]
        exact Gadget.add_isConstant ..
      rw [chain, bind_apply, ih, added, List.all_cons, Bool.and_assoc]
  exact chained (.constant 0)

end Block

namespace HashCircuit

instance (state : Quantity × List Shape) (block : Block) : Counted (absorb state block) := by
  unfold absorb; infer_instance

/-- The sums that blocks are allocated as, each behind the wires of those before it. -/
def sums (state : Quantity × List Shape) (layout : Layout) : List Block → List Quantity
  | [] => []
  | block :: blocks =>
    (block.allocate layout).output ::
      sums (absorb state block layout).output (absorb state block layout).layout blocks

private theorem absorb_meets {state : Quantity × List Shape}
    (carried : state.1.Carries reading layout d)
    (block : Block) :
    Meets reading layout (absorb state block) fun output later =>
      output.1.Carries reading later
        (Mimc.chain d ((block.allocate layout).output.eval reading.value)) := by
  refine .bind block.allocate_meets.exactly fun sum second grows known => ?_
  obtain ⟨rfl, rfl, within⟩ := known
  have absorbed := Gadget.absorb_meets (carried.mono grows) ⟨within, rfl⟩
  refine .bind absorbed fun digest third _ known => ?_
  exact .bind .measure fun _ _ grows' _ => .pure (known.mono grows')

/-- The digest after some blocks is the hash chain over what their sums carry. -/
theorem chain_meets {state : Quantity × List Shape} (carried : state.1.Carries reading layout d)
    (blocks : List Block) :
    Meets reading layout (chain absorb state blocks) fun output later =>
      output.1.Carries reading later
        (((sums state layout blocks).map (·.eval reading.value)).foldl Mimc.chain d) := by
  induction blocks generalizing layout state d with
  | nil => exact .pure carried
  | cons block blocks ih =>
    refine .bind (absorb_meets carried block).exactly fun output later _ known => ?_
    obtain ⟨rfl, rfl, carried'⟩ := known
    rw [sums, List.map_cons, List.foldl_cons]
    exact ih carried'

private theorem absorb_draws (state : Quantity × List Shape) (block : Block)
    (fits : given.Fits layout) :
    Draws given layout (absorb state block) (block.filterMap Operand.inputValue?)
      (block.filterMap Operand.witnessValue?)
      fun _ later after => (block.allocate layout).output.Carries after.reading later block.value := by
  rw [← List.append_nil (block.filterMap Operand.inputValue?),
    ← List.append_nil (block.filterMap Operand.witnessValue?)]
  refine .bind (block.allocate_draws fits).exactly fits fun sum second between _ fits' _ known => ?_
  obtain ⟨rfl, _, carried⟩ := known
  have rest : Draws between second (Gadget.absorb state.1 (block.allocate layout).output >>=
      fun digest => measure >>= fun sizes => pure (digest, state.2 ++ [sizes.shape])) [] [] _ :=
    (Draws.internal _).keeping fits'
  exact rest.weaken fun _ _ _ ⟨grows, _, kept, _⟩ => carried.keep grows kept

/-- Along the blocks, an honest prover takes the values of their wires from the supply, and gives
every sum the value of its block. -/
theorem chain_draws (state : Quantity × List Shape) (blocks : List Block)
    (fits : given.Fits layout) :
    Draws given layout (chain absorb state blocks) (blocks.flatten.filterMap Operand.inputValue?)
      (blocks.flatten.filterMap Operand.witnessValue?)
      fun _ later after => List.Forall₂
        (fun sum block => sum.Carries after.reading later block.value)
        (sums state layout blocks) blocks := by
  induction blocks generalizing layout given state with
  | nil => exact .pure .nil
  | cons block blocks ih =>
    rw [List.flatten_cons, List.filterMap_append, List.filterMap_append]
    refine .bind (absorb_draws state block fits).exactly fits
      fun output second between _ fits' _ known => ?_
    obtain ⟨rfl, rfl, carried⟩ := known
    refine ((ih _ fits').keeping fits').weaken fun _ _ _ ⟨grows, _, kept, rest⟩ => ?_
    exact .cons (carried.keep grows kept) rest

/-- The expected digest is compared on a public input of its own. -/
def compare (expected : Option Scalar) (state : Quantity × List Shape) :
    Synthesis (Quantity × List Shape) :=
  match expected with
  | none => pure state
  | some _ => do
    let wire ← input
    Quantity.enforceEqual state.1 (.ofWire wire)
    return state

instance (expected : Option Scalar) (state : Quantity × List Shape) :
    Counted (compare expected state) := by
  cases expected <;> unfold compare <;> infer_instance

private theorem circuit_eq (circuit : HashCircuit) :
    circuit.circuit = chain absorb (.constant 0, []) circuit.blocks >>= compare circuit.expected := by
  cases circuit with
  | mk blocks expected => cases expected <;> rfl

private theorem compare_output (expected : Option Scalar) (state : Quantity × List Shape)
    (layout : Layout) :
    (compare expected state layout).output = state := by
  cases expected <;> rfl

private theorem compare_meets (expected : Option Scalar) {state : Quantity × List Shape} {d : Scalar}
    (carried : state.1.Carries reading layout d)
    (follows : reading.basis = .computed → expected.isSome →
      reading.value (.input layout.inputs) = d) :
    Meets reading layout (compare expected state) fun output later =>
      output.1.Carries reading later d ∧
        (expected.isSome → reading.value (.input layout.inputs) = d) := by
  cases expected with
  | none => exact .pure ⟨carried, nofun⟩
  | some e =>
    refine .bind Meets.input.exactly fun wire second grows known => ?_
    obtain ⟨rfl, _, has⟩ := known
    have compared : (Quantity.ofWire _).Carries reading _ _ := Quantity.carries_ofWire has
    refine .bind (Quantity.enforceEqual_meets (Bool.and_false _) fun basis => ?_) fun _ last grows' equal => ?_
    · exact carried.2.trans (compared.2.trans (follows basis rfl)).symm
    · refine .pure ⟨(carried.mono grows).mono grows', fun _ => ?_⟩
      exact compared.2.symm.trans (equal.symm.trans carried.2)

private theorem compare_draws (expected : Option Scalar) (state : Quantity × List Shape)
    (fits : given.Fits layout) :
    Draws given layout (compare expected state) expected.toList [] fun _ _ after =>
      ∀ e ∈ expected, after.value (.input layout.inputs) = e := by
  cases expected with
  | none => exact .pure nofun
  | some e =>
    have rest (wire : Wire) {between : Assignment} {second : Layout} (fits' : between.Fits second) :
        Draws between second (Quantity.enforceEqual state.1 (.ofWire wire) >>= fun _ => pure state)
          [] [] _ := (Draws.internal _).keeping fits'
    refine .bind (.input e fits) fits fun wire second between _ fits' _ known => ?_
    obtain ⟨has, rfl, carried⟩ := known
    refine (rest _ fits').weaken fun _ _ after ⟨_, _, kept, _⟩ e' member => ?_
    rw [kept _ has, carried, Option.mem_some_iff.mp member]

/-- The part of a circuit that hashes. -/
def hashed (circuit : HashCircuit) : Draft (Quantity × List Shape) :=
  chain absorb (.constant 0, []) circuit.blocks {}

/-- The sums that the blocks of a circuit are. -/
def allocated (circuit : HashCircuit) : List Quantity := sums (.constant 0, []) {} circuit.blocks

/-- The public input that carries the expected digest. -/
def expectedWire (circuit : HashCircuit) : Wire := .input circuit.hashed.layout.inputs

/-- The hash of what the sums of the blocks carry. -/
def hashUnder (circuit : HashCircuit) (value : Wire → Scalar) : Scalar :=
  Mimc.hash (circuit.allocated.map (·.eval value))

private theorem draft_output (circuit : HashCircuit) :
    circuit.draft.output = circuit.hashed.output := by
  rw [draft, circuit_eq, bind_apply, compare_output]
  rfl

private theorem circuit_meets (circuit : HashCircuit)
    (follows : reading.basis = .computed → circuit.expected.isSome →
      reading.value circuit.expectedWire = circuit.hashUnder reading.value) :
    Meets reading {} circuit.circuit fun output later =>
      output.1.Carries reading later (circuit.hashUnder reading.value) ∧
        (circuit.expected.isSome →
          reading.value circuit.expectedWire = circuit.hashUnder reading.value) := by
  rw [circuit_eq]
  refine .bind (chain_meets (Quantity.carries_constant 0) circuit.blocks).exactly
    fun output later _ known => ?_
  obtain ⟨rfl, rfl, carried⟩ := known
  exact compare_meets circuit.expected carried follows

private theorem circuit_draws (circuit : HashCircuit) :
    Draws {} {} circuit.circuit
      (circuit.blocks.flatten.filterMap Operand.inputValue? ++ circuit.expected.toList)
      (circuit.blocks.flatten.filterMap Operand.witnessValue?)
      fun _ later after =>
        List.Forall₂ (fun sum block => sum.Carries after.reading later (Block.value block))
          circuit.allocated circuit.blocks ∧
        ∀ e ∈ circuit.expected, after.value circuit.expectedWire = e := by
  have fits : ({} : Assignment).Fits {} := ⟨rfl, rfl⟩
  rw [circuit_eq, ← List.append_nil (circuit.blocks.flatten.filterMap Operand.witnessValue?)]
  refine .bind (chain_draws (.constant 0, []) circuit.blocks fits).exactly fits
    fun output later between _ fits' _ known => ?_
  obtain ⟨rfl, rfl, carried⟩ := known
  refine ((compare_draws circuit.expected _ fits').keeping fits').weaken
    fun _ _ _ ⟨grows, _, kept, compared⟩ => ⟨?_, compared⟩
  exact carried.imp fun sum block known => known.keep grows kept

/-- A circuit computes the hash of its blocks. -/
structure Computes (circuit : HashCircuit) : Prop where
  /-- An honest prover meets all constraints, unless another digest than the hash is expected. -/
  complete : ∃ system assignment, circuit.draft.system .proving circuit.supply = .ok system ∧
    system.assignment = some assignment ∧
    circuit.allocated.map (·.eval assignment.value) = circuit.blocks.map Block.value ∧
    circuit.draft.output.1.valueIn system = .ok (Mimc.hash (circuit.blocks.map Block.value)) ∧
    (system.firstUnsatisfied = .ok none ↔
      ∀ e ∈ circuit.expected, e = Mimc.hash (circuit.blocks.map Block.value))
  /-- Whatever the wires carry, the digest is the hash of what the sums of the blocks carry. -/
  sound : ∀ value : Wire → Scalar, value .one = 1 →
    (∀ constraint ∈ circuit.draft.constraints, constraint.Holds value) →
    circuit.draft.output.1.eval value = circuit.hashUnder value ∧
      (circuit.expected.isSome → value circuit.expectedWire = circuit.hashUnder value)
  constant : circuit.draft.output.1.isConstant =
    circuit.blocks.all fun block => block.all Operand.isConstant

private theorem absorb_isConstant (state : Quantity × List Shape) (block : Block) (layout : Layout) :
    (absorb state block layout).output.1.isConstant =
      (state.1.isConstant && block.all Operand.isConstant) := by
  rw [← block.allocate_isConstant layout]
  exact (Gadget.absorb_size ..).2

private theorem chain_isConstant (state : Quantity × List Shape) (blocks : List Block)
    (layout : Layout) :
    (chain absorb state blocks layout).output.1.isConstant =
      (state.1.isConstant && blocks.all fun block => block.all Operand.isConstant) := by
  induction blocks generalizing state layout with
  | nil => exact (Bool.and_true _).symm
  | cons block blocks ih =>
    rw [chain, bind_apply, ih, absorb_isConstant, List.all_cons, Bool.and_assoc]

private theorem sound (circuit : HashCircuit) {value : Wire → Scalar} (one : value .one = 1)
    (holds : ∀ constraint ∈ circuit.draft.constraints, constraint.Holds value) :
    circuit.draft.output.1.eval value = circuit.hashUnder value ∧
      (circuit.expected.isSome → value circuit.expectedWire = circuit.hashUnder value) := by
  let reading : Reading := ⟨.constrained, value, one⟩
  have meets : Meets reading {} circuit.circuit _ := circuit.circuit_meets nofun
  obtain ⟨_, carried, compared⟩ := meets holds
  exact ⟨carried.2, compared⟩

/-- An honest prover succeeds, with the values of the blocks on their sums. -/
theorem exists_assignment (circuit : HashCircuit) :
    ∃ assignment : Assignment,
      circuit.draft.system .proving circuit.supply =
        .ok ⟨circuit.draft.constraints, circuit.draft.shape, some assignment⟩ ∧
      Computed assignment.value {} circuit.draft.steps ∧
      circuit.allocated.map (·.eval assignment.value) = circuit.blocks.map Block.value ∧
      ∀ e ∈ circuit.expected, assignment.value circuit.expectedWire = e := by
  obtain ⟨assignment, passes, carried, compared⟩ := circuit.circuit_draws [] []
  have run : assign circuit.supply {} circuit.draft.steps = .ok assignment := by
    have supplied := passes.assign_eq
    rwa [List.append_nil, List.append_nil] at supplied
  have fits : ({} : Assignment).Fits {} := ⟨rfl, rfl⟩
  refine ⟨assignment, ?_, (computed_of_assign fits run).2, ?_, compared⟩
  · rw [Draft.system, run]
    rfl
  · refine List.forall₂_eq_eq_eq ▸ List.forall₂_map_left_iff.mpr (List.forall₂_map_right_iff.mpr ?_)
    exact carried.imp fun sum block known => known.2

/-- Values that follow the rules give the digest the hash, whatever digest is expected. -/
theorem digest_of_computed (circuit : HashCircuit) {assignment : Assignment}
    (computed : Computed assignment.value {} circuit.draft.steps) :
    circuit.draft.output.1.eval assignment.value = circuit.hashUnder assignment.value := by
  have meets : Meets assignment.reading {} (chain absorb (.constant 0, []) circuit.blocks) _ :=
    chain_meets (Quantity.carries_constant 0) circuit.blocks
  rw [draft, circuit_eq, bind_apply, computed_append] at computed
  rw [draft_output]
  exact (meets computed.1).2.2

/-- Values that follow the rules meet the constraints if they carry the expected digest. -/
theorem holds_iff (circuit : HashCircuit) {assignment : Assignment}
    (computed : Computed assignment.value {} circuit.draft.steps) :
    (∀ constraint ∈ circuit.draft.constraints, constraint.Holds assignment.value) ↔
      (circuit.expected.isSome →
        assignment.value circuit.expectedWire = circuit.hashUnder assignment.value) := by
  constructor
  · exact fun holds => (circuit.sound rfl holds).2
  · intro right
    have meets : Meets assignment.reading {} circuit.circuit _ :=
      circuit.circuit_meets fun _ => right
    exact (meets computed).1

private theorem computes (circuit : HashCircuit) : circuit.Computes where
  complete := by
    obtain ⟨assignment, run, computed, values, compared⟩ := circuit.exists_assignment
    have hashed : circuit.hashUnder assignment.value =
        Mimc.hash (circuit.blocks.map Block.value) := congrArg Mimc.hash values
    refine ⟨_, assignment, run, rfl, values, ?_, ?_⟩
    · rw [← hashed, ← circuit.digest_of_computed computed]
      exact Quantity.valueIn_eq ..
    · have expected : (circuit.expected.isSome →
          assignment.value circuit.expectedWire = circuit.hashUnder assignment.value) ↔
          ∀ e ∈ circuit.expected, e = Mimc.hash (circuit.blocks.map Block.value) := by
        rw [hashed]
        cases known : circuit.expected with
        | none => simp
        | some e => simp [compared e known]
      rw [← expected, ← circuit.holds_iff computed, ← firstUnsatisfied_eq_none_iff]
      exact ⟨Except.ok.inj, congrArg Except.ok⟩
  sound value one holds := circuit.sound one holds
  constant := by
    rw [draft_output]
    exact chain_isConstant (.constant 0, []) circuit.blocks {}

end HashCircuit

/-- What one more block adds to a circuit. -/
structure Gadget.Absorbs (digest block : Quantity) (layout : Layout) : Prop where
  sizes : (absorb digest block layout).layout = absorbed digest block layout
  constraints : (absorb digest block layout).constraints.length =
    if digest.isConstant && block.isConstant then 0 else 331
  constant : (absorb digest block layout).output.isConstant =
    (digest.isConstant && block.isConstant)

theorem Gadget.absorbs (digest block : Quantity) (layout : Layout) : Absorbs digest block layout := by
  obtain ⟨reached, constant⟩ := absorb_size digest block layout
  have counted := Layout.after_constraints layout (absorb digest block layout).steps
  rw [← Counted.layout_eq, reached] at counted
  refine ⟨reached, ?_, constant⟩
  change ((absorb digest block layout).steps.filterMap Step.constraint?).length = _
  cases known : digest.isConstant && block.isConstant with
  | true =>
    simp only [absorbed, known, if_true] at counted
    simpa using counted
  | false =>
    simp only [absorbed, known, Bool.false_eq_true, if_false] at counted
    exact (Nat.add_left_cancel counted).symm

/-- The gadget is the hash: over any sums of allocated wires, and in circuits that allocate the
wires of a block just before it. A block costs as many constraints as witnesses, unless it and all
blocks before it are constants, which cost nothing. An expected digest, which a circuit takes as an
input, can be met exactly if it is the hash; it goes without a constraint only where it is a constant
and all blocks are. -/
theorem hash_gadget_exact :
    (∀ (layout : Layout) (blocks : List Quantity),
      (∀ block ∈ blocks, block.Within layout) → Gadget.Hashes layout blocks) ∧
    (∀ circuit : HashCircuit, circuit.Computes) ∧
    ∀ (digest block : Quantity) (layout : Layout), Gadget.Absorbs digest block layout :=
  ⟨fun _ _ allocated => Gadget.hashes allocated, HashCircuit.computes, Gadget.absorbs⟩

end MailProof
