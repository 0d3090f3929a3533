import MailProof.Proofs.Circuit.Uniformity

/-! Public inputs. The order of the public inputs is fixed twice: by the steps that allocate them
for the prover, and by the list that the verifier takes from a claim. Both give the salt and then
the digits of the code, whatever the email is and whether or not it is known, and the list tells
the packed salt and the code apart from all others. -/

namespace MailProof

/-- Values given to wires along steps, up to the first one that is not known. -/
def allotted (supply : Supply) (assignment : Assignment) : List Step → Assignment
  | [] => assignment
  | .input :: steps =>
    match Supply.next supply.inputs with
    | .error _ => assignment
    | .ok (value, inputs) =>
      allotted { supply with inputs }
        { assignment with inputs := assignment.inputs.push value } steps
  | .secret :: steps =>
    match Supply.next supply.secrets with
    | .error _ => assignment
    | .ok (value, secrets) =>
      allotted { supply with secrets }
        { assignment with witnesses := assignment.witnesses.push value } steps
  | .derived hint :: steps =>
    let value := hint.eval assignment.value
    allotted supply { assignment with witnesses := assignment.witnesses.push value } steps
  | .enforce _ :: steps => allotted supply assignment steps

/-- If all values are known, they are the values of the synthesized system. -/
theorem allotted_of_assign {supply : Supply} {assignment result : Assignment} {steps : List Step}
    (run : assign supply assignment steps = .ok result) :
    allotted supply assignment steps = result := by
  induction steps generalizing supply assignment with
  | nil => exact Except.ok.inj run
  | cons step steps ih =>
    cases step with
    | input =>
      rw [assign] at run
      rw [allotted]
      cases known : Supply.next supply.inputs with
      | error cause =>
        rw [known] at run
        cases run
      | ok next =>
        rw [known] at run
        exact ih run
    | secret =>
      rw [assign] at run
      rw [allotted]
      cases known : Supply.next supply.secrets with
      | error cause =>
        rw [known] at run
        cases run
      | ok next =>
        rw [known] at run
        exact ih run
    | derived hint => exact ih run
    | enforce constraint => exact ih run

/-- Public inputs take the next values of the supply. -/
theorem allotted_inputs {values : List Scalar} {count : Nat} (size : values.length = count)
    (inputs secrets : List (Option Scalar)) (assignment : Assignment) (steps : List Step) :
    allotted ⟨values.map some ++ inputs, secrets⟩ assignment
        (List.replicate count .input ++ steps) =
      allotted ⟨inputs, secrets⟩
        { assignment with inputs := assignment.inputs ++ values.toArray } steps := by
  subst size
  induction values generalizing assignment with
  | nil => simp
  | cons value values ih =>
    simp only [List.map_cons, List.cons_append, List.length_cons, List.replicate_succ, allotted,
      Supply.next, ih]
    simp

/-- Steps that allocate witnesses only leave the public inputs as they are. -/
theorem allotted_witnesses (supply : Supply) (assignment : Assignment) {steps : List Step}
    (silent : ∀ step ∈ steps, step ≠ .input) :
    (allotted supply assignment steps).inputs = assignment.inputs := by
  induction steps generalizing supply assignment with
  | nil => rfl
  | cons step steps ih =>
    have later := fun other member => silent other (List.mem_cons_of_mem step member)
    cases step with
    | input => exact absurd rfl (silent .input (List.mem_cons_self ..))
    | secret =>
      rw [allotted]
      cases Supply.next supply.secrets with
      | error cause => rfl
      | ok next => exact ih _ _ later
    | derived hint => exact ih _ _ later
    | enforce constraint => exact ih _ _ later

/-- Values of the instance variables in the order of allocation; the constant comes first. -/
def Assignment.instanceValues (assignment : Assignment) : List Scalar :=
  assignment.value .one ::
    (List.range assignment.inputs.size).map fun index => assignment.value (.input index)

theorem Assignment.instanceValues_eq (assignment : Assignment) :
    assignment.instanceValues = 1 :: assignment.inputs.toList := by
  refine congrArg (List.cons 1) (List.ext_getElem (by simp) fun index bounded _ => ?_)
  have inside : index < assignment.inputs.size := by simpa using bounded
  simp [Assignment.value, inside]

/-- A code is known from its digits. -/
theorem CodeDigits.ofText_injective {first second : String} {digits : CodeDigits}
    (reads : ofText first = .ok digits) (reads' : ofText second = .ok digits) : first = second :=
  ((ofText_eq_ok_iff first digits).mp reads).2.trans
    ((ofText_eq_ok_iff second digits).mp reads').2.symm

namespace CodeClaim

/-- Digits are known from their elements, whether or not they are nibbles. -/
theorem digitElements_injective {first second : CodeDigits}
    (same : digitElements first = digitElements second) : first = second := by
  have fits (digit : UInt8) : digit.toNat < scalarOrder :=
    Nat.lt_trans digit.toNat_lt (by decide)
  have injective : Function.Injective fun digit : UInt8 => Scalar.ofNat digit.toNat :=
    fun digit other equal =>
      UInt8.toNat_inj.mp (Scalar.ofNat_injective_of_lt equal (fits digit) (fits other))
  exact Vector.toList_inj.mp (List.map_injective_iff.mpr injective same)

/-- The public inputs of a salt and a code: the salt first, and the digits as they are written. -/
def publicList (salt : PackedText) (code : CodeDigits) : List Scalar :=
  salt.toList ++ digitElements code

theorem publicList_length (salt : PackedText) (code : CodeDigits) :
    (publicList salt code).length = packedSize + codeLength := by
  rw [publicList, List.length_append, salt.length_toList, digitElements_length]

theorem publicList_injective {salt salt' : PackedText} {code code' : CodeDigits}
    (same : publicList salt code = publicList salt' code') : salt = salt' ∧ code = code' := by
  obtain ⟨salts, codes⟩ := List.append_inj same (by rw [salt.length_toList, salt'.length_toList])
  exact ⟨Vector.toList_inj.mp salts, digitElements_injective codes⟩

/-- The public inputs are allocated before the email is asked for, so a claim without an email
has them too. -/
theorem allotted_instanceValues (email : Option PackedText) (salt : PackedText)
    (code : CodeDigits) :
    (allotted (supply ⟨email, some salt, some code⟩) {} verificationDraft.steps).instanceValues =
      1 :: publicList salt code := by
  have known : supply ⟨email, some salt, some code⟩ =
      ⟨salt.toList.map some ++ ((digitElements code).map some ++ []),
        (supply ⟨email, some salt, some code⟩).secrets⟩ := by
    simp [supply, known]
  have silent : ∀ step ∈ List.replicate packedSize Step.secret ++
      (Verification.body Verification.supplied).steps, step ≠ .input := by
    intro step member
    rcases List.mem_append.mp member with email | body
    · rw [List.eq_of_mem_replicate email]
      rintro ⟨⟩
    · exact (Synthesis.Internal.derived_only Verification.supplied step body).1
  rw [Assignment.instanceValues_eq, known, Verification.steps_eq,
    allotted_inputs salt.length_toList, allotted_inputs (digitElements_length code),
    allotted_witnesses _ _ silent]
  simp [publicList]

variable {salt code : String}

theorem ofPublicText_eq {packed : PackedText} {digits : CodeDigits} (packs : pack salt = .ok packed)
    (reads : CodeDigits.ofText code = .ok digits) :
    ofPublicText salt code =
      .ok ⟨some (Vector.replicate packedSize 0), some packed, some digits⟩ := by
  rw [ofPublicText, packs, reads]
  rfl

theorem encodes_of_ofPublicText {claim : CodeClaim} (made : ofPublicText salt code = .ok claim) :
    ∃ packed digits, pack salt = .ok packed ∧ CodeDigits.ofText code = .ok digits ∧
      claim.publicInputs? = some (publicList packed digits) := by
  rw [ofPublicText] at made
  cases packs : pack salt with
  | error cause =>
    rw [packs] at made
    cases made
  | ok packed =>
    cases reads : CodeDigits.ofText code with
    | error cause =>
      rw [packs, reads] at made
      cases made
    | ok digits =>
      rw [packs, reads] at made
      cases made
      exact ⟨packed, digits, rfl, rfl, rfl⟩

/-- Prover and verifier have the same public inputs for three texts. -/
structure SharesInputs (email salt code : String) (inputs : List Scalar) : Prop where
  /-- The claim that is proved lists them, and the synthesized system carries them behind the
  constant. -/
  prover : ∃ claim system assignment, ofText email salt code = .ok claim ∧
    claim.publicInputs? = some inputs ∧ claim.synthesize .proving = .ok system ∧
    system.assignment = some assignment ∧ assignment.instanceValues = 1 :: inputs
  /-- The claim that is verified, which has no email, lists them. -/
  verifier : ∃ claim, ofPublicText salt code = .ok claim ∧ claim.publicInputs? = some inputs
  counted : inputs.length = 44

end CodeClaim

open CodeClaim in
/-- Prover and verifier use the same public inputs: the thirty-eight elements of the salt and then
the six digits of the code. Equal public inputs come of the same code and of salts that pack
alike. Circuits of any elements and bytes have the inputs that their claim lists, and if the email
is known as well these are part of the synthesized system. -/
theorem public_inputs_shared :
    (∀ (email salt code : String) (packedEmail packedSalt : PackedText) (digits : CodeDigits),
      pack email = .ok packedEmail → pack salt = .ok packedSalt →
      CodeDigits.ofText code = .ok digits →
      SharesInputs email salt code (publicList packedSalt digits)) ∧
    (∀ (salt code salt' code' : String) (claim claim' : CodeClaim),
      ofPublicText salt code = .ok claim → ofPublicText salt' code' = .ok claim' →
      claim.publicInputs? = claim'.publicInputs? → code = code' ∧ pack salt = pack salt') ∧
    ∀ (email : Option PackedText) (salt : PackedText) (code : CodeDigits),
      let claim : CodeClaim := ⟨email, some salt, some code⟩
      let assignment := allotted claim.supply {} verificationDraft.steps
      (∃ inputs, claim.publicInputs? = some inputs ∧ assignment.instanceValues = 1 :: inputs) ∧
      (email.isSome → ∃ system, claim.synthesize .proving = .ok system ∧
        system.assignment = some assignment) := by
  have complete (email salt : PackedText) (code : CodeDigits) :
      synthesize ⟨some email, some salt, some code⟩ .proving =
        .ok ⟨verificationDraft.constraints, verificationDraft.shape,
          some (allotted (supply ⟨some email, some salt, some code⟩) {} verificationDraft.steps)⟩ := by
    rw [synthesize_eq, Draft.system]
    cases run : assign (supply ⟨some email, some salt, some code⟩) {} verificationDraft.steps with
    | error cause =>
      obtain ⟨assignment, synthesized, _⟩ := synthesize_proving email salt code
      rw [synthesize_eq, Draft.system, run] at synthesized
      cases synthesized
    | ok result =>
      rw [allotted_of_assign run]
      rfl
  refine ⟨?_, ?_, ?_⟩
  · intro email salt code packedEmail packedSalt digits packs packs' reads
    refine ⟨⟨_, _, _, ofText_eq packs packs' reads, rfl, complete packedEmail packedSalt digits, rfl,
      allotted_instanceValues _ packedSalt digits⟩, ⟨_, ofPublicText_eq packs' reads, rfl⟩, ?_⟩
    exact publicList_length packedSalt digits
  · intro salt code salt' code' claim claim' made made' same
    obtain ⟨packed, digits, packs, reads, listed⟩ := encodes_of_ofPublicText made
    obtain ⟨packed', digits', packs', reads', listed'⟩ := encodes_of_ofPublicText made'
    rw [listed, listed', Option.some.injEq] at same
    obtain ⟨rfl, rfl⟩ := publicList_injective same
    exact ⟨CodeDigits.ofText_injective reads reads', packs.trans packs'.symm⟩
  · intro email salt code
    refine ⟨⟨_, rfl, allotted_instanceValues email salt code⟩, fun known => ?_⟩
    obtain ⟨packed, rfl⟩ := Option.isSome_iff_exists.mp known
    exact ⟨_, complete packed salt code, rfl⟩

end MailProof
