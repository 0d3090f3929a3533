import MailProof.Proofs.Circuit.Verification

/-! Sizes of circuits. A part adds as many witnesses and constraints wherever it is placed, so the
shape of the verification circuit is added up from its parts. -/

namespace MailProof

open Synthesis Gadget

/-- Wherever a part is placed, it adds as many witnesses and constraints, and its output is of some
kind. -/
structure Costs (part : Synthesis α) (witnesses constraints : Nat) (kind : α → Prop) : Prop where
  output : ∀ layout, kind (part layout).output
  layout : ∀ layout, (part layout).layout =
    { layout with
      witnesses := layout.witnesses + witnesses
      constraints := layout.constraints + constraints }

namespace Costs

variable {part : Synthesis α} {kind middle : α → Prop} {witnesses constraints : Nat}

theorem resize {moreWitnesses moreConstraints : Nat} (costs : Costs part witnesses constraints kind)
    (same : witnesses = moreWitnesses) (same' : constraints = moreConstraints) :
    Costs part moreWitnesses moreConstraints kind := same ▸ same' ▸ costs

theorem weaken (costs : Costs part witnesses constraints middle)
    (weaker : ∀ output, middle output → kind output) : Costs part witnesses constraints kind :=
  ⟨fun layout => weaker _ (costs.output layout), costs.layout⟩

theorem pure {output : α} (known : kind output) : Costs (pure output) 0 0 kind :=
  ⟨fun _ => known, fun _ => rfl⟩

theorem bind {continue_ : α → Synthesis β} {final : β → Prop} {moreWitnesses moreConstraints : Nat}
    (first : Costs part witnesses constraints kind)
    (rest : ∀ output, kind output → Costs (continue_ output) moreWitnesses moreConstraints final) :
    Costs (part >>= continue_) (witnesses + moreWitnesses) (constraints + moreConstraints) final where
  output layout := (rest _ (first.output layout)).output (part layout).layout
  layout layout := by
    rw [bind_apply, (rest _ (first.output layout)).layout, first.layout]
    simp only [Nat.add_assoc]

theorem derived (hint : Hint) : Costs (derived hint) 1 0 fun _ => True :=
  ⟨fun _ => trivial, fun _ => rfl⟩

theorem enforce (left right output : LinearCombination) :
    Costs (enforce left right output) 0 1 fun _ => True :=
  ⟨fun _ => trivial, fun _ => rfl⟩

theorem each {part : α → Synthesis β} {kind : β → Prop}
    (member : ∀ item, Costs (part item) witnesses constraints kind) (items : List α) :
    Costs (each part items) (items.length * witnesses) (items.length * constraints)
      fun outputs => outputs.length = items.length := by
  induction items with
  | nil => exact resize (pure rfl) (Nat.zero_mul _).symm (Nat.zero_mul _).symm
  | cons item items ih =>
    refine resize (bind (member item) fun output _ => bind ih fun outputs size => pure ?_) ?_ ?_
    · exact congrArg (· + 1) size
    · rw [List.length_cons]
      ring
    · rw [List.length_cons]
      ring

theorem chain {part : β → α → Synthesis β} {kind : β → Prop}
    (member : ∀ state item, kind state → Costs (part state item) witnesses constraints kind)
    (items : List α) {state : β} (known : kind state) :
    Costs (chain part state items) (items.length * witnesses) (items.length * constraints) kind := by
  induction items generalizing state with
  | nil => exact resize (pure known) (Nat.zero_mul _).symm (Nat.zero_mul _).symm
  | cons item items ih =>
    refine resize (bind (member state item known) fun next known => ih known) ?_ ?_
    · rw [List.length_cons]
      ring
    · rw [List.length_cons]
      ring

end Costs

namespace Gadget

private theorem bit_costs (hint : Hint) : Costs (bit hint) 1 1 fun _ => True :=
  .bind (.derived hint) fun _ _ => .bind (.enforce ..) fun _ _ => .pure trivial

private theorem conjunction_costs (x y : Wire) : Costs (conjunction x y) 1 1 fun _ => True :=
  .bind (.derived _) fun _ _ => .bind (.enforce ..) fun _ _ => .pure trivial

private theorem exclusiveOr_costs (x y : Wire) : Costs (exclusiveOr x y) 1 1 fun _ => True :=
  .bind (.derived _) fun _ _ => .bind (.enforce ..) fun _ _ => .pure trivial

private theorem forbid_costs (equal : Option Wire) (digit : Wire) :
    Costs (forbid equal digit) equal.isSome.toNat (equal.isSome.toNat + 1) fun _ => True := by
  cases equal with
  | none => exact .enforce ..
  | some wire => exact .bind (conjunction_costs wire digit) fun _ _ => .enforce ..

/-- Conjunctions that join a run of bits to what preceded it. -/
def joins (preceding : Bool) : (run : Nat) → Nat
  | 0 => 0
  | run + 1 => run + preceding.toNat

private theorem conjoin_costs (preceding : Option Wire) (run : List Wire) :
    Costs (conjoin preceding run) (joins preceding.isSome run.length)
      (joins preceding.isSome run.length)
      fun equal => equal.isSome = (preceding.isSome || !run.isEmpty) := by
  cases run with
  | nil => exact .pure (by simp)
  | cons first rest =>
    have all : Costs (chain conjunction first rest) (rest.length * 1) (rest.length * 1)
        fun _ => True :=
      .chain (fun x y _ => conjunction_costs x y) rest trivial
    cases preceding with
    | none =>
      refine .resize (.bind all fun _ _ => .pure ?_) ?_ ?_ <;> simp [joins]
    | some wire =>
      refine .resize (.bind all fun joined _ => .bind (conjunction_costs joined wire) fun _ _ =>
        .pure ?_) ?_ ?_ <;> simp [joins]

/-- Conjunctions in a comparison with a bound. They depend on the digits of the bound alone. -/
def comparisons (equal : Bool) (run : Nat) : List Bool → Nat
  | [] => 0
  | true :: rest => comparisons equal (run + 1) rest
  | false :: rest =>
    let further := equal || run != 0
    joins equal run + further.toNat + comparisons further 0 rest

private theorem enforceAtMost_costs (equal : Option Wire) (run : List Wire)
    (pairs : List (Bool × Wire)) :
    Costs (enforceAtMost equal run pairs)
      (comparisons equal.isSome run.length (pairs.map Prod.fst))
      (comparisons equal.isSome run.length (pairs.map Prod.fst) +
        (pairs.map Prod.fst).count false) fun _ => True := by
  induction pairs generalizing equal run with
  | nil => exact .pure trivial
  | cons pair pairs ih =>
    obtain ⟨one, digit⟩ := pair
    cases one with
    | true =>
      refine (ih equal (run ++ [digit])).resize ?_ ?_ <;> simp [comparisons]
    | false =>
      have nonempty : (run.length != 0) = !run.isEmpty := by cases run <;> rfl
      have rest (joined : Option Wire) (known : joined.isSome = (equal.isSome || !run.isEmpty)) :
          Costs (forbid joined digit >>= fun _ => enforceAtMost joined [] pairs)
            ((equal.isSome || !run.isEmpty).toNat +
              comparisons (equal.isSome || !run.isEmpty) 0 (pairs.map Prod.fst))
            ((equal.isSome || !run.isEmpty).toNat + 1 +
              (comparisons (equal.isSome || !run.isEmpty) 0 (pairs.map Prod.fst) +
                (pairs.map Prod.fst).count false)) fun _ => True := by
        rw [← known]
        exact .bind (forbid_costs joined digit) fun _ _ => ih joined []
      rw [enforceAtMost_false]
      refine .resize (.bind (conjoin_costs equal run) rest) ?_ ?_
      · simp only [comparisons, List.map_cons, nonempty, Nat.add_assoc]
      · simp only [comparisons, List.map_cons, nonempty, List.count_cons_self]
        omega

/-- Binary digits of the greatest canonical value. -/
theorem comparisons_order :
    comparisons false 0 (binaryDigits (scalarOrder - 1)) = 253 ∧
      (binaryDigits (scalarOrder - 1)).count false = 154 := by
  decide +kernel

private theorem bits_costs (source : LinearCombination) :
    Costs (bits source) 507 662 fun digits => digits.length = scalarBits := by
  have compared (digits : List Wire) (size : digits.length = scalarBits) :
      Costs (enforceAtMost none [] ((binaryDigits (scalarOrder - 1)).zip digits.reverse)) 253 407
        fun _ => True := by
    have firsts : ((binaryDigits (scalarOrder - 1)).zip digits.reverse).map Prod.fst =
        binaryDigits (scalarOrder - 1) := by
      have long : (binaryDigits (scalarOrder - 1)).length = scalarBits := by decide +kernel
      exact List.map_fst_zip (by rw [long, List.length_reverse, size])
    have costs := enforceAtMost_costs none [] ((binaryDigits (scalarOrder - 1)).zip digits.reverse)
    rw [firsts] at costs
    exact costs.resize comparisons_order.1 (by
      rw [comparisons_order.2]
      exact congrArg (· + 154) comparisons_order.1)
  refine .resize (.bind (.each (fun _ => bit_costs _) _) fun digits size => .bind (.enforce _ _ _)
    fun _ _ => .bind (compared digits (size.trans List.length_range)) fun _ _ => .pure ?_) ?_ ?_
  · exact size.trans List.length_range
  · rw [List.length_range, scalarBits]
  · rw [List.length_range, scalarBits]

private theorem mix_costs (x y : LinearCombination) : Costs (mix x y) 1268 1578 fun _ => True := by
  have differences (xs ys : List Wire) (size : xs.length = scalarBits)
      (size' : ys.length = scalarBits) :
      Costs (each (fun pair : Wire × Wire => exclusiveOr pair.1 pair.2) (xs.zip ys)) 254 254
        fun _ => True := by
    refine .resize (.weaken (.each (fun _ => exclusiveOr_costs _ _) _) fun _ _ => trivial) ?_ ?_ <;>
      simp [List.length_zip, size, size', scalarBits]
  exact .bind (bits_costs x) fun xs size => .bind (bits_costs y) fun ys size' =>
    .bind (differences xs ys size size') fun _ _ => .pure trivial

/-- A product of sums costs a constraint. -/
theorem mul_costs {x y : Quantity} (sum : x.isConstant = false) (sum' : y.isConstant = false) :
    Costs (x.mul y) 1 1 fun product => product.isConstant = false := by
  cases x with
  | constant a => cases sum
  | combination a =>
    cases y with
    | constant b => cases sum'
    | combination b =>
      refine .bind (.derived _) fun _ _ => .bind (.enforce _ _ _) fun _ _ => .pure ?_
      rfl

theorem add_isConstant (x y : Quantity) : (x.add y).isConstant = (x.isConstant && y.isConstant) := by
  cases x <;> cases y <;> rfl

/-- A round multiplies sums unless message and key are both constants. -/
theorem round_costs {key message : Quantity}
    (sum : (message.isConstant && key.isConstant) = false) (constant : Scalar) :
    Costs (round key message constant) 3 3 fun output => output.isConstant = false := by
  have base : ((message.add key).add (.constant constant)).isConstant = false := by
    simp only [add_isConstant, sum, Bool.false_and]
  exact .bind (mul_costs base base) fun square known => .bind (mul_costs known known)
    fun fourth known' => mul_costs known' base

theorem roundConstants_length : Mimc.roundConstants.length = 110 := by
  have count (rounds : Nat) (previous : Bytes) :
      (Mimc.constantsAfter rounds previous).length = rounds := by
    induction rounds generalizing previous with
    | zero => rfl
    | succ rounds ih => simp [Mimc.constantsAfter, ih]
  exact count Mimc.rounds _

private theorem encrypt_costs {message key : Quantity}
    (sum : (message.isConstant && key.isConstant) = false) :
    Costs (encrypt message key) 330 330 fun output => output.isConstant = false := by
  have rounds : Costs (chain (round key) message Mimc.roundConstants) _ _
      fun state => (state.isConstant && key.isConstant) = false :=
    .chain (fun state constant known => (round_costs known constant).weaken
      fun output known => by rw [known, Bool.false_and]) _ sum
  refine .resize (.bind rounds fun output known => .pure ?_) ?_ ?_
  · rw [add_isConstant, known]
  · rw [roundConstants_length]
  · rw [roundConstants_length]

private theorem pin_costs {quantity : Quantity} (sum : quantity.isConstant = false) :
    Costs (pin quantity) 1 1 fun output => output.isConstant = false := by
  cases quantity with
  | constant a => cases sum
  | combination terms =>
    refine .bind (.derived _) fun _ _ => .bind (.enforce _ _ _) fun _ _ => .pure ?_
    rfl

theorem absorb_costs {digest block : Quantity}
    (sum : (digest.isConstant && block.isConstant) = false) :
    Costs (absorb digest block) 331 331 fun output => output.isConstant = false := by
  refine .bind (encrypt_costs (by rw [Bool.and_comm, sum])) fun encrypted known => pin_costs ?_
  simp only [add_isConstant, known, Bool.and_false, Bool.false_and]

end Gadget

private theorem absorbMixed_costs (digest : Quantity) (pair : Wire × Wire) :
    Costs (absorbMixed digest pair) 1599 1909 fun output => output.isConstant = false :=
  .bind (mix_costs _ _) fun _ _ => absorb_costs (Bool.and_false _)

namespace Verification

theorem digestBits_costs : Costs digestBits 61269 73204 fun _ => True := by
  have digested : Costs (chain absorbMixed (.constant 0) (emailWires.zip saltWires)) 60762 72542
      fun _ => True :=
    .resize (.chain (fun digest pair _ => absorbMixed_costs digest pair |>.weaken fun _ _ => trivial)
      _ trivial) (by decide) (by decide)
  exact .bind digested fun digest _ => (bits_costs digest.terms).weaken fun _ _ => trivial

private theorem body_costs : Costs body 61269 73210 fun _ => True := by
  have compared (digits : List Wire) :
      Costs (each (enforceDigit digits) codeWires.zipIdx) 0 6 fun _ => True :=
    .resize (.weaken (.each (fun _ => .enforce _ _ _) _) fun _ _ => trivial) (by decide) (by decide)
  rw [body_eq]
  exact .bind digestBits_costs fun digits _ => .bind (compared digits) fun _ _ => .pure trivial

private theorem layout_eq : verificationDraft.layout = (body supplied).layout := by
  rw [verificationDraft, verificationCircuit, bind_apply, replicate_input, bind_apply,
    replicate_input, bind_apply, replicate_secret]
  simp only [body, supplied, emailWires, saltWires, codeWires, List.range_eq_range', Nat.zero_add]

end Verification

theorem verificationShape_eq : verificationShape = ⟨73210, 45, 61307⟩ := by
  rw [verificationShape, Draft.shape, Verification.layout_eq, Verification.body_costs.layout]
  rfl

end MailProof
