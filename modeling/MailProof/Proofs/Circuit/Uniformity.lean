import MailProof.Proofs.Agreement
import MailProof.Proofs.Circuit.Size

/-! Systems of the verification circuit are alike. Whatever values are at hand when the circuit is
built, its constraints and sizes are the same, so keys for the compiled circuit fit every system
that is proved. -/

namespace MailProof

open Synthesis

namespace Layout

/-- A layout counts the constraints that steps state. -/
theorem after_constraints (layout : Layout) (steps : List Step) :
    (layout.after steps).constraints =
      layout.constraints + (steps.filterMap Step.constraint?).length := by
  induction steps generalizing layout with
  | nil => rfl
  | cons step steps ih =>
    rw [after_cons, ih]
    cases step <;> simp [List.filterMap_cons, next, Step.constraint?, Nat.add_comm, Nat.add_left_comm]

end Layout

/-- Values are given to exactly the wires that steps allocate. -/
theorem assign_fits {supply : Supply} {assignment result : Assignment} {layout : Layout}
    {steps : List Step} (fits : assignment.Fits layout)
    (run : assign supply assignment steps = .ok result) : result.Fits (layout.after steps) := by
  induction steps generalizing supply assignment layout with
  | nil =>
    cases run
    exact fits
  | cons step steps ih =>
    have input (value : Scalar) : Assignment.Fits
        { assignment with inputs := assignment.inputs.push value } (layout.next .input) :=
      ⟨by simpa [Layout.next] using fits.1, fits.2⟩
    have witness (value : Scalar) : Assignment.Fits
        { assignment with witnesses := assignment.witnesses.push value } (layout.next .secret) :=
      ⟨fits.1, by simpa [Layout.next] using fits.2⟩
    cases step with
    | input =>
      rw [assign] at run
      split at run
      · cases run
      · exact ih (input _) run
    | secret =>
      rw [assign] at run
      split at run
      · cases run
      · exact ih (witness _) run
    | derived hint => exact ih (witness _) run
    | enforce constraint => exact ih fits run

namespace Synthesis

instance (part : Synthesis α) [Counted part] (count : Nat) : Counted (replicate part count) := by
  induction count with
  | zero => exact inferInstanceAs (Counted (pure []))
  | succ count ih => unfold replicate; infer_instance

instance : Counted verificationCircuit := by unfold verificationCircuit; infer_instance

end Synthesis

namespace System

/-- The same constraints in the same order over as many variables. -/
structure Alike (first second : System) : Prop where
  constraints : first.constraints = second.constraints
  shape : first.shape = second.shape

/-- There is a value for each variable, and for no other. -/
def Filled (system : System) : Prop :=
  ∃ assignment, system.assignment = some assignment ∧
    assignment.inputs.size + 1 = system.shape.instanceVariables ∧
    assignment.witnesses.size = system.shape.witnessVariables

end System

namespace Draft

variable {draft : Draft α} {mode : Mode} {supply : Supply} {system : System}

/-- The mode and the supply have no part in constraints and sizes. -/
theorem system_alike (run : draft.system mode supply = .ok system) :
    system.constraints = draft.constraints ∧ system.shape = draft.shape := by
  cases mode with
  | setup =>
    cases run
    exact ⟨rfl, rfl⟩
  | proving =>
    rw [Draft.system] at run
    cases assigned : assign supply {} draft.steps with
    | error error =>
      rw [assigned] at run
      cases run
    | ok assignment =>
      rw [assigned] at run
      cases run
      exact ⟨rfl, rfl⟩

theorem system_filled (counted : draft.layout = ({} : Layout).after draft.steps)
    (run : draft.system .proving supply = .ok system) : system.Filled := by
  rw [Draft.system] at run
  cases assigned : assign supply {} draft.steps with
  | error error =>
    rw [assigned] at run
    cases run
  | ok assignment =>
    rw [assigned] at run
    cases run
    have empty : ({} : Assignment).Fits {} := ⟨rfl, rfl⟩
    have fits := assign_fits empty assigned
    rw [← counted] at fits
    exact ⟨assignment, rfl, congrArg (· + 1) fits.1, fits.2⟩

theorem fits_of_filled (sized : system.shape = draft.shape)
    (filled : system.Filled) :
    ∃ assignment, system.assignment = some assignment ∧ assignment.Fits draft.layout := by
  obtain ⟨assignment, carried, inputs, witnesses⟩ := filled
  rw [sized] at inputs witnesses
  exact ⟨assignment, carried, Nat.succ.inj inputs, witnesses⟩

private theorem layout_of_shape {constraints inputs witnesses : Nat}
    (sized : draft.shape = ⟨constraints, inputs + 1, witnesses⟩) :
    draft.layout = ⟨inputs, witnesses, constraints⟩ := by
  cases counted : draft.layout with
  | mk inputs' witnesses' constraints' =>
    rw [shape, counted] at sized
    cases sized
    rfl

theorem constraints_length (counted : draft.layout = ({} : Layout).after draft.steps) :
    draft.constraints.length = draft.shape.constraints := by
  rw [shape, Layout.shape, counted, Layout.after_constraints, constraints, Nat.zero_add]

end Draft

theorem verificationDraft_counted :
    verificationDraft.layout = ({} : Layout).after verificationDraft.steps := by
  have counted : Counted verificationCircuit := inferInstance
  exact counted.layout_eq {}

theorem verificationLayout_eq : verificationDraft.layout = ⟨44, 61307, 73210⟩ :=
  Draft.layout_of_shape verificationShape_eq

theorem verificationConstraints_length : verificationDraft.constraints.length = 73210 := by
  rw [Draft.constraints_length verificationDraft_counted]
  exact congrArg Shape.constraints verificationShape_eq

namespace CodeClaim

variable {email salt code : String} {claim : CodeClaim}

/-- A claim that is read from texts has all of its parts. -/
theorem ofText_complete (reads : ofText email salt code = .ok claim) :
    ∃ packedEmail packedSalt digits,
      claim = ⟨some packedEmail, some packedSalt, some digits⟩ := by
  rcases ofText_cases email salt code with
    ⟨packedEmail, packedSalt, digits, packs, packs', decodes⟩ | ⟨cause, fails, _⟩
  · rw [ofText_eq packs packs' decodes] at reads
    exact ⟨packedEmail, packedSalt, digits, (Except.ok.inj reads).symm⟩
  · rw [fails] at reads
    cases reads

theorem publicInputs_length {inputs : List Scalar} (known : claim.publicInputs? = some inputs) :
    inputs.length = packedSize + codeLength := by
  rcases claim with ⟨email, _ | salt, _ | code⟩
  · cases known
  · cases known
  · cases known
  · cases known
    rw [List.length_append, salt.length_toList, digitElements_length]

end CodeClaim

/-- Whatever values are at hand, the constraints and the sizes of the draft are built. -/
theorem CodeClaim.synthesize_draft {claim : CodeClaim} {mode : Mode} {system : System}
    (run : claim.synthesize mode = .ok system) :
    system.constraints = verificationDraft.constraints ∧ system.shape = verificationDraft.shape := by
  rw [CodeClaim.synthesize_eq] at run
  exact Draft.system_alike run

/-- The compiled system stands for every system that is synthesized. -/
structure System.Represents (compiled : System) : Prop where
  /-- No part of a claim, whether known or not, and no mode changes a constraint or a size. -/
  alike : ∀ (claim : CodeClaim) (mode : Mode) (system : System),
    claim.synthesize mode = .ok system → system.Alike compiled
  counted : compiled.constraints.length = compiled.shape.constraints
  filled : ∀ (claim : CodeClaim) (system : System),
    claim.synthesize .proving = .ok system → system.Filled
  setup : ∀ claim : CodeClaim, ∃ system, claim.synthesize .setup = .ok system
  proving : ∀ (email salt : PackedText) (code : CodeDigits),
    ∃ system, CodeClaim.synthesize ⟨some email, some salt, some code⟩ .proving = .ok system
  texts : ∀ (email salt code : String) (claim : CodeClaim),
    CodeClaim.ofText email salt code = .ok claim → ∃ system, claim.synthesize .proving = .ok system
  /-- Verification takes a value for each instance variable but the constant. -/
  inputs : ∀ (claim : CodeClaim) (inputs : List Scalar),
    claim.publicInputs? = some inputs → inputs.length + 1 = compiled.shape.instanceVariables

/-- The system of the verification circuit does not depend on values: any two claims, each in either
mode, have the same constraints in the same order over as many variables, if they have a system at
all. It is the one that is compiled from the all-zero claim, so keys of the compiled shape fit the
systems of all emails, salts and codes that are proved or verified. -/
theorem systems_alike :
    (∀ (claim claim' : CodeClaim) (mode mode' : Mode) (system system' : System),
      claim.synthesize mode = .ok system → claim'.synthesize mode' = .ok system' →
        system.Alike system') ∧
    ∃ compiled, CodeClaim.empty.synthesize .setup = .ok compiled ∧
      compiled.shape = verificationShape ∧ verificationShape = ⟨73210, 45, 61307⟩ ∧
      compiled.Represents := by
  have alike (claim claim' : CodeClaim) (mode mode' : Mode) (system system' : System)
      (run : claim.synthesize mode = .ok system) (run' : claim'.synthesize mode' = .ok system') :
      system.Alike system' := by
    obtain ⟨constraints, shape⟩ := CodeClaim.synthesize_draft run
    obtain ⟨constraints', shape'⟩ := CodeClaim.synthesize_draft run'
    exact ⟨constraints.trans constraints'.symm, shape.trans shape'.symm⟩
  have setup (claim : CodeClaim) : claim.synthesize .setup =
      .ok ⟨verificationDraft.constraints, verificationDraft.shape, none⟩ :=
    claim.synthesize_eq .setup
  have complete (email salt : PackedText) (code : CodeDigits) :
      ∃ system, CodeClaim.synthesize ⟨some email, some salt, some code⟩ .proving = .ok system := by
    obtain ⟨assignment, run, _⟩ := CodeClaim.synthesize_proving email salt code
    exact ⟨_, run⟩
  refine ⟨alike, _, setup .empty, rfl, verificationShape_eq, ?_⟩
  constructor
  case alike => exact fun claim mode system run => alike _ _ _ _ _ _ run (setup .empty)
  case counted => exact Draft.constraints_length verificationDraft_counted
  case filled =>
    intro claim system run
    rw [CodeClaim.synthesize_eq] at run
    exact Draft.system_filled verificationDraft_counted run
  case setup => exact fun claim => ⟨_, setup claim⟩
  case proving => exact complete
  case texts =>
    intro email salt code claim reads
    obtain ⟨packedEmail, packedSalt, digits, rfl⟩ := CodeClaim.ofText_complete reads
    exact complete packedEmail packedSalt digits
  case inputs =>
    intro claim inputs known
    have sizes : verificationDraft.shape.instanceVariables = 45 :=
      congrArg Shape.instanceVariables verificationShape_eq
    rw [CodeClaim.publicInputs_length known, sizes]
    rfl

end MailProof
