import MailProof.Proofs.Circuit.Reading

/-! Values given to wires along the steps of a circuit. Every wire keeps the value it is
given, and a derived witness is given the value of its rule. -/

namespace MailProof

open Synthesis

namespace Assignment

/-- As many values as a layout has wires. -/
def Fits (assignment : Assignment) (layout : Layout) : Prop :=
  assignment.inputs.size = layout.inputs ∧ assignment.witnesses.size = layout.witnesses

/-- A further witness leaves the allocated wires as they are. -/
theorem Fits.value_push {assignment : Assignment} {layout : Layout} (fits : assignment.Fits layout)
    (x : Scalar) {wire : Wire} (has : layout.Has wire) :
    Assignment.value { assignment with witnesses := assignment.witnesses.push x } wire =
      assignment.value wire := by
  cases wire with
  | one => rfl
  | input index => rfl
  | witness index =>
    have before : index < assignment.witnesses.size := fits.2 ▸ has
    have other : index ≠ assignment.witnesses.size := Nat.ne_of_lt before
    simp [Assignment.value, Array.getElem?_push, other]

/-- So does a further public input. -/
theorem Fits.value_push_input {assignment : Assignment} {layout : Layout}
    (fits : assignment.Fits layout) (x : Scalar) {wire : Wire} (has : layout.Has wire) :
    Assignment.value { assignment with inputs := assignment.inputs.push x } wire =
      assignment.value wire := by
  cases wire with
  | one => rfl
  | witness index => rfl
  | input index =>
    have before : index < assignment.inputs.size := fits.1 ▸ has
    have other : index ≠ assignment.inputs.size := Nat.ne_of_lt before
    simp [Assignment.value, Array.getElem?_push, other]

theorem Fits.value_pushed {assignment : Assignment} {layout : Layout}
    (fits : assignment.Fits layout) (x : Scalar) :
    Assignment.value { assignment with witnesses := assignment.witnesses.push x }
      (.witness layout.witnesses) = x := by
  simp [Assignment.value, ← fits.2]

end Assignment

/-- Whatever follows, steps lead from a supply and values to the rest of the supply and more values. -/
def Passes (supply : Supply) (assignment : Assignment) (steps : List Step) (rest : Supply)
    (later : Assignment) : Prop :=
  ∀ more, assign supply assignment (steps ++ more) = assign rest later more

theorem Passes.append {supply middle rest : Supply} {assignment between later : Assignment}
    {first second : List Step} (passes : Passes supply assignment first middle between)
    (passes' : Passes middle between second rest later) :
    Passes supply assignment (first ++ second) rest later := fun more => by
  rw [List.append_assoc, passes, passes']

theorem Passes.assign_eq {supply rest : Supply} {assignment later : Assignment} {steps : List Step}
    (passes : Passes supply assignment steps rest later) :
    assign supply assignment steps = .ok later := by
  rw [← List.append_nil steps, passes, assign]

/-- Steps that ask for no supplied value always pass. -/
theorem passes_internal (supply : Supply) (assignment : Assignment) (steps : List Step)
    (internal : ∀ step ∈ steps, step ≠ .input ∧ step ≠ .secret) :
    ∃ later, Passes supply assignment steps supply later := by
  induction steps generalizing assignment with
  | nil => exact ⟨assignment, fun _ => rfl⟩
  | cons step steps ih =>
    obtain ⟨first, others⟩ := List.forall_mem_cons.mp internal
    cases step with
    | input => exact absurd rfl first.1
    | secret => exact absurd rfl first.2
    | enforce constraint => exact ih assignment others
    | derived hint => exact ih _ others

/-- Wires keep the values that they are given, and derived witnesses have those of their rules. -/
theorem computed_of_assign {supply : Supply} {assignment result : Assignment} {layout : Layout}
    {steps : List Step} (fits : assignment.Fits layout)
    (run : assign supply assignment steps = .ok result) :
    (∀ wire, layout.Has wire → result.value wire = assignment.value wire) ∧
      Computed result.value layout steps := by
  induction steps generalizing supply assignment layout with
  | nil =>
    cases run
    exact ⟨fun _ _ => rfl, trivial⟩
  | cons step steps ih =>
    have witness (x : Scalar) : Assignment.Fits
        { assignment with witnesses := assignment.witnesses.push x } (layout.next .secret) :=
      ⟨fits.1, by simpa [Layout.next] using fits.2⟩
    cases step with
    | input =>
      rw [assign] at run
      split at run
      · cases run
      · next value inputs _ =>
        have longer : Assignment.Fits { assignment with inputs := assignment.inputs.push value }
            (layout.next .input) := ⟨by simpa [Layout.next] using fits.1, fits.2⟩
        obtain ⟨kept, computed⟩ := ih longer run
        refine ⟨fun wire has => ?_, trivial, computed⟩
        rw [kept wire (has.mono (layout.grows_next _)), fits.value_push_input _ has]
    | secret =>
      rw [assign] at run
      split at run
      · cases run
      · obtain ⟨kept, computed⟩ := ih (witness _) run
        refine ⟨fun wire has => ?_, trivial, computed⟩
        rw [kept wire (has.mono (layout.grows_next .secret)), fits.value_push _ has]
    | enforce constraint =>
      have same : assignment.Fits (layout.next (.enforce constraint)) := fits
      obtain ⟨kept, computed⟩ := ih same run
      exact ⟨fun wire has => kept wire (has.mono (layout.grows_next _)), trivial, computed⟩
    | derived hint =>
      obtain ⟨kept, computed⟩ := ih (witness _) run
      have unchanged : ∀ wire, layout.Has wire → result.value wire = assignment.value wire := by
        intro wire has
        rw [kept wire (has.mono (layout.grows_next .secret)), fits.value_push _ has]
      -- The rule saw the assignment so far, which the later steps leave as it is.
      refine ⟨unchanged, ⟨assignment.value, ?_, ?_⟩, computed⟩
      · exact fun wire has => (unchanged wire has).symm
      · rw [kept _ (Nat.lt_succ_self _), fits.value_pushed]

/-- Steps that ask for no supplied value always get their values, by their rules. -/
theorem assign_internal (supply : Supply) {assignment : Assignment} {layout : Layout}
    (fits : assignment.Fits layout) (steps : List Step)
    (internal : ∀ step ∈ steps, step ≠ .input ∧ step ≠ .secret) :
    ∃ result, assign supply assignment steps = .ok result ∧
      (∀ wire, layout.Has wire → result.value wire = assignment.value wire) ∧
      Computed result.value layout steps := by
  obtain ⟨result, passes⟩ := passes_internal supply assignment steps internal
  exact ⟨result, passes.assign_eq, computed_of_assign fits passes.assign_eq⟩

/-- Public inputs take the next values of the supply. -/
theorem assign_inputs {values : List Scalar} {count : Nat} (size : values.length = count)
    (inputs secrets : List (Option Scalar)) (assignment : Assignment) (steps : List Step) :
    assign ⟨values.map some ++ inputs, secrets⟩ assignment
        (List.replicate count .input ++ steps) =
      assign ⟨inputs, secrets⟩
        { assignment with inputs := assignment.inputs ++ values.toArray } steps := by
  subst size
  induction values generalizing assignment with
  | nil => simp
  | cons value values ih =>
    simp only [List.map_cons, List.cons_append, List.length_cons, List.replicate_succ, assign,
      Supply.next, ih]
    simp

theorem assign_secrets {values : List Scalar} {count : Nat} (size : values.length = count)
    (inputs secrets : List (Option Scalar)) (assignment : Assignment) (steps : List Step) :
    assign ⟨inputs, values.map some ++ secrets⟩ assignment
        (List.replicate count .secret ++ steps) =
      assign ⟨inputs, secrets⟩
        { assignment with witnesses := assignment.witnesses ++ values.toArray } steps := by
  subst size
  induction values generalizing assignment with
  | nil => simp
  | cons value values ih =>
    simp only [List.map_cons, List.cons_append, List.length_cons, List.replicate_succ, assign,
      Supply.next, ih]
    simp

end MailProof
