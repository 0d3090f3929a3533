import MailProof.Proofs.Circuit.Verification

/-! What is built does not depend on the values at hand. Every part of the verification circuit
builds what is drafted for it without values, so the system of a claim is the draft of the circuit
with the values that the claim supplies. -/

namespace MailProof

open Synthesis

namespace Supply

/-- One supply behind another. -/
def append (first rest : Supply) : Supply :=
  ⟨first.inputs ++ rest.inputs, first.secrets ++ rest.secrets⟩

@[simp] theorem append_empty (supply : Supply) : supply.append {} = supply := by
  simp [append]

/-- Steps that ask for as many values as a supply has. -/
structure Suits (supply : Supply) (steps : List Step) : Prop where
  inputs : steps.count .input = supply.inputs.length
  secrets : steps.count .secret = supply.secrets.length

end Supply

/-- Steps leave the values behind theirs in the supply. -/
theorem assign_append {first : Supply} {steps : List Step} (suits : first.Suits steps)
    (rest : Supply) (assignment : Assignment) (more : List Step) :
    assign (first.append rest) assignment (steps ++ more) =
      (assign first assignment steps >>= fun later => assign rest later more) := by
  obtain ⟨inputs, secrets⟩ := first
  obtain ⟨counted, counted'⟩ := suits
  induction steps generalizing inputs secrets assignment with
  | nil =>
    obtain rfl : inputs = [] := List.eq_nil_of_length_eq_zero counted.symm
    obtain rfl : secrets = [] := List.eq_nil_of_length_eq_zero counted'.symm
    rfl
  | cons step steps ih =>
    cases step with
    | input =>
      cases inputs with
      | nil => simp at counted
      | cons value inputs =>
        -- A value that is missing ends both sides.
        cases value with
        | none => rfl
        | some value => exact ih _ inputs secrets (by simpa using counted) (by simpa using counted')
    | secret =>
      cases secrets with
      | nil => simp at counted'
      | cons value secrets =>
        cases value with
        | none => rfl
        | some value => exact ih _ inputs secrets (by simpa using counted) (by simpa using counted')
    | derived hint => exact ih _ inputs secrets (by simpa using counted) (by simpa using counted')
    | enforce constraint =>
      exact ih _ inputs secrets (by simpa using counted) (by simpa using counted')

namespace Building

/-- A part that asks for as many values as a supply has. -/
def Suited (supply : Supply) (part : Synthesis α) : Prop :=
  ∀ layout, supply.Suits (part layout).steps

private theorem suited_internal (part : Synthesis α) [Internal part] :
    Suited {} part := fun layout => by
  have silent : ∀ step ∈ (part layout).steps, step ≠ .input ∧ step ≠ .secret :=
    Internal.derived_only layout
  constructor
  · exact List.count_eq_zero.mpr fun member => (silent _ member).1 rfl
  · exact List.count_eq_zero.mpr fun member => (silent _ member).2 rfl

private theorem bind_constraints (part : Synthesis α) (continue_ : α → Synthesis β)
    (layout : Layout) (constraints : Array Constraint) :
    constraints ++ ((part >>= continue_) layout).constraints =
      constraints ++ (part layout).constraints ++
        (continue_ (part layout).output (part layout).layout).constraints := by
  rw [bind_apply, Draft.constraints, List.filterMap_append]
  apply Array.toList_inj.mp
  simp [Draft.constraints]

/-- A part is built one step after the other. -/
theorem supplied_bind {part : Synthesis α} {first : Supply} (suited : Suited first part)
    (continue_ : α → Synthesis β) (rest : Supply) :
    supplied (first.append rest) (part >>= continue_) =
      (supplied first part >>= fun output => supplied rest (continue_ output)) := by
  funext ⟨constraints, layout, values⟩
  change _ = supplied first part ⟨constraints, layout, values⟩ >>= fun built =>
    supplied rest (continue_ built.1) built.2
  cases values with
  | none =>
    simp only [supplied, bind_constraints]
    rfl
  | some values =>
    have split := assign_append (suited layout) rest values
      (continue_ (part layout).output (part layout).layout).steps
    simp only [supplied, bind_constraints]
    rw [bind_apply, split]
    cases assign first values (part layout).steps <;> rfl

/-- After a part that takes the whole supply, nothing else is asked for. -/
theorem supplied_bind_place {part : Synthesis α} {supply : Supply} (suited : Suited supply part)
    (continue_ : α → Synthesis β) :
    supplied supply (part >>= continue_) =
      (supplied supply part >>= fun output => place (continue_ output)) := by
  have split := supplied_bind suited continue_ {}
  rwa [Supply.append_empty] at split

private theorem place_bind (part : Synthesis α) [Internal part] (continue_ : α → Synthesis β) :
    place (part >>= continue_) = (place part >>= fun output => place (continue_ output)) :=
  supplied_bind_place (suited_internal part) continue_

private theorem place_pure (output : α) : place (pure output) = pure output := by
  funext ⟨constraints, layout, values⟩
  cases values <;> simp [place, supplied, pure_apply, Draft.constraints, assign] <;> rfl

/-- A part that is built from the start makes the system of its draft. -/
theorem supplied_system (supply : Supply) (part : Synthesis α) (mode : Mode) :
    (supplied supply part mode.start).map (fun built => built.2.system) =
      (part {}).system mode supply := by
  have listed : ((#[] : Array Constraint) ++ (part {}).constraints).toList =
      (part {}).constraints := by
    simp
  cases mode with
  | setup =>
    simp only [supplied, Mode.start, Except.map, Progress.system, Draft.system, listed]
    rfl
  | proving =>
    simp only [supplied, Mode.start, Draft.system]
    cases assign supply {} (part {}).steps with
    | error error => rfl
    | ok assignment =>
      simp only [bind, Except.bind, pure, Except.pure, Except.map, Progress.system, listed]
      rfl

section Loops

variable {part : α → Synthesis β} {fold : β → α → Synthesis β}

private theorem place_each [∀ item, Internal (part item)] (items : List α) :
    place (each part items) = items.mapM fun item => place (part item) := by
  induction items with
  | nil => exact place_pure []
  | cons item items ih =>
    simp only [each, place_bind, place_pure, ih, List.mapM_cons]

private theorem place_chain [∀ state item, Internal (fold state item)] (state : β) (items : List α) :
    place (chain fold state items) = items.foldlM (fun state item => place (fold state item)) state := by
  induction items generalizing state with
  | nil => exact place_pure state
  | cons item items ih => simp only [chain, place_bind, ih, List.foldlM_cons]

end Loops

section Allocation

private theorem input_eq (value : Option Scalar) :
    input value = supplied ⟨[value], []⟩ Synthesis.input := by
  funext ⟨constraints, layout, values⟩
  cases values <;> cases value <;> rfl

private theorem witness_eq (value : Option Scalar) :
    witness value = supplied ⟨[], [value]⟩ secret := by
  funext ⟨constraints, layout, values⟩
  cases values <;> cases value <;> rfl

/-- Allocations in a row take the values of a supply one by one. -/
private theorem supplied_replicate {part : Synthesis α} (supply : List (Option Scalar) → Supply)
    (none : supply [] = {})
    (split : ∀ value values, supply (value :: values) = (supply [value]).append (supply values))
    (one : ∀ value, Suited (supply [value]) part)
    (all : ∀ values, Suited (supply values) (replicate part values.length))
    (values : List (Option Scalar)) :
    supplied (supply values) (replicate part values.length) =
      values.mapM fun value => supplied (supply [value]) part := by
  induction values with
  | nil =>
    rw [none]
    exact place_pure []
  | cons value values ih =>
    rw [split, List.length_cons, replicate, supplied_bind (one value), List.mapM_cons]
    simp only [supplied_bind_place (all values), ih, place_pure]

variable {values : List (Option Scalar)} {count : Nat} (size : values.length = count)

include size

private theorem suited_inputs : Suited ⟨values, []⟩ (replicate Synthesis.input count) :=
  fun layout => by
    rw [replicate_input]
    constructor <;> simp [List.count_replicate, size]

private theorem suited_witnesses : Suited ⟨[], values⟩ (replicate secret count) := fun layout => by
  rw [replicate_secret]
  constructor <;> simp [List.count_replicate, size]

private theorem supplied_inputs :
    supplied ⟨values, []⟩ (replicate Synthesis.input count) = values.mapM input := by
  subst size
  rw [funext input_eq]
  exact supplied_replicate (fun values => ⟨values, []⟩) rfl (fun _ _ => rfl)
    (fun _ _ => ⟨rfl, rfl⟩) (fun _ => suited_inputs rfl) values

private theorem supplied_witnesses :
    supplied ⟨[], values⟩ (replicate secret count) = values.mapM witness := by
  subst size
  rw [funext witness_eq]
  exact supplied_replicate (fun values => ⟨[], values⟩) rfl (fun _ _ => rfl)
    (fun _ _ => ⟨rfl, rfl⟩) (fun _ => suited_witnesses rfl) values

end Allocation

section Gadgets

private theorem mix_eq (x y : Wire) : mix x y = place (Gadget.mix (.ofWire x) (.ofWire y)) := by
  simp only [mix, Gadget.mix, place_bind, place_each, place_pure]

private theorem round_eq (key message : Quantity) (constant : Scalar) :
    round key message constant = place (Gadget.round key message constant) := by
  simp only [round, Gadget.round, place_bind]

private theorem encrypt_eq (message key : Quantity) :
    encrypt message key = place (Gadget.encrypt message key) := by
  have rounds : round key = fun message constant => place (Gadget.round key message constant) := by
    funext message constant
    exact round_eq key message constant
  simp only [encrypt, Gadget.encrypt, place_bind, place_chain, place_pure, rounds]

/-- A witness with the value of a sum is one whose rule is the sum. -/
private theorem witness_valueOf (terms : LinearCombination) :
    (valueOf (.combination terms) >>= witness) = place (derived (.sum terms)) := by
  funext ⟨constraints, layout, values⟩
  cases values <;> rfl

private theorem pin_eq (sum : Quantity) : pin sum = place (Gadget.pin sum) := by
  cases sum with
  | constant value => exact (place_pure _).symm
  | combination terms =>
    simp only [pin, Gadget.pin, place_bind, place_pure, ← witness_valueOf, bind_assoc]
    rfl

private theorem absorb_eq (digest block : Quantity) :
    absorb digest block = place (Gadget.absorb digest block) := by
  simp only [absorb, Gadget.absorb, place_bind, encrypt_eq, pin_eq]

private theorem absorbMixed_eq (digest : Quantity) (pair : Wire × Wire) :
    absorbMixed digest pair = place (MailProof.absorbMixed digest pair) := by
  simp only [absorbMixed, MailProof.absorbMixed, place_bind, mix_eq, absorb_eq]

private theorem enforceDigits_eq (digits : List Wire) (code : List (Wire × Nat)) :
    code.forM (enforceDigit digits) =
      (place (each (MailProof.enforceDigit digits) code) >>= fun _ => pure ()) := by
  rw [place_each]
  induction code with
  | nil => rfl
  | cons digit code ih =>
    rw [List.mapM_cons]
    change (enforceDigit digits digit >>= fun _ => code.forM (enforceDigit digits)) = _
    simp only [ih, bind_assoc, pure_bind]
    rfl

end Gadgets

end Building

namespace CodeClaim

open Building

/-- Values of the members of a part, as far as they are known. -/
private def members (part : Option (Vector α n)) (value : α → Scalar) : List (Option Scalar) :=
  (List.finRange n).map fun i => part.map fun values => value (values.get i)

private theorem members_length (part : Option (Vector α n)) (value : α → Scalar) :
    (members part value).length = n := by
  simp [members]

private theorem known_eq_members (part : Option (Vector α n)) (value : α → Scalar) :
    known n (part.map fun values => values.toList.map value) = members part value := by
  cases part with
  | none => simp [known, members, List.map_const']
  | some values =>
    refine List.ext_getElem ?_ fun i _ _ => ?_
    · simp [known, members]
    · simp [known, members, Vector.get]

/-- The salt and the code come first, and then the email. -/
private theorem supply_eq (claim : CodeClaim) : claim.supply =
    .append ⟨members claim.salt id, []⟩ (.append
      ⟨members claim.code fun digit => Scalar.ofNat digit.toNat, []⟩ ⟨[], members claim.email id⟩) := by
  simp only [← known_eq_members, List.map_id, supply, Supply.append, List.nil_append,
    List.append_nil]
  rfl

/-- For a claim the drafted circuit is built, with the values of the claim. -/
theorem build_eq (claim : CodeClaim) : claim.build = supplied claim.supply verificationCircuit := by
  have salt := members_length claim.salt id
  have code := members_length claim.code fun digit => Scalar.ofNat digit.toNat
  have email := members_length claim.email id
  rw [supply_eq, verificationCircuit]
  simp only [supplied_bind (suited_inputs salt), supplied_bind (suited_inputs code),
    supplied_bind_place (suited_witnesses email), supplied_inputs salt, supplied_inputs code,
    supplied_witnesses email, place_bind, place_chain, place_pure]
  simp only [members, List.mapM_map, build, funext₂ absorbMixed_eq, enforceDigits_eq]
  rfl

/-- The system of a claim is that of the draft, with the values of the claim. -/
theorem synthesize_eq (claim : CodeClaim) (mode : Mode) :
    claim.synthesize mode = verificationDraft.system mode claim.supply := by
  rw [synthesize, build_eq]
  exact supplied_system claim.supply verificationCircuit mode

end CodeClaim

end MailProof
