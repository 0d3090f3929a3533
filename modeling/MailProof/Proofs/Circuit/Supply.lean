import MailProof.Proofs.Circuit.Uniformity

/-! Values that a part of a circuit takes from the supply. An honest prover passes every part whose
values stand at the front of the supply, and all wires before it keep their values. -/

namespace MailProof

open Synthesis

/-- The reading under the values of an honest prover. -/
def Assignment.reading (assignment : Assignment) : Reading := ⟨.computed, assignment.value, rfl⟩

variable {layout : Layout} {given : Assignment}

/-- Allocated wires carry what they carried before. -/
def Assignment.Keeps (given : Assignment) (layout : Layout) (later : Assignment) : Prop :=
  ∀ wire, layout.Has wire → later.value wire = given.value wire

/-- A part finds its values at the front of the supply, and takes no others. -/
def Draws (given : Assignment) (layout : Layout) (part : Synthesis α) (inputs secrets : List Scalar)
    (post : α → Layout → Assignment → Prop) : Prop :=
  ∀ moreInputs moreSecrets : List (Option Scalar), ∃ later,
    Passes ⟨inputs.map some ++ moreInputs, secrets.map some ++ moreSecrets⟩ given
      (part layout).steps ⟨moreInputs, moreSecrets⟩ later ∧
    post (part layout).output (part layout).layout later

namespace Draws

variable {part : Synthesis α} {inputs secrets : List Scalar} {post : α → Layout → Assignment → Prop}

theorem pure {output : α} (known : post output layout given) :
    Draws given layout (pure output) [] [] post :=
  fun _ _ => ⟨given, fun _ => rfl, known⟩

theorem input (x : Scalar) (fits : given.Fits layout) :
    Draws given layout input [x] [] fun wire later after =>
      later.Has wire ∧ wire = .input layout.inputs ∧ after.value wire = x := by
  refine fun _ _ => ⟨{ given with inputs := given.inputs.push x }, fun _ => rfl,
    Nat.lt_succ_self _, rfl, ?_⟩
  simp [Synthesis.input, Assignment.value, ← fits.1]

theorem secret (x : Scalar) (fits : given.Fits layout) :
    Draws given layout secret [] [x] fun wire later after =>
      later.Has wire ∧ after.value wire = x :=
  fun _ _ => ⟨{ given with witnesses := given.witnesses.push x }, fun _ => rfl,
    Nat.lt_succ_self _, fits.value_pushed x⟩

/-- A part that asks for no value takes none. -/
theorem internal (part : Synthesis α) [Internal part] :
    Draws given layout part [] [] fun _ _ _ => True := fun moreInputs moreSecrets =>
  have ⟨later, passes⟩ := passes_internal ⟨moreInputs, moreSecrets⟩ given _
    (Internal.derived_only layout)
  ⟨later, passes, trivial⟩

theorem weaken {strong : α → Layout → Assignment → Prop}
    (draws : Draws given layout part inputs secrets strong)
    (weaker : ∀ output later after, strong output later after → post output later after) :
    Draws given layout part inputs secrets post := fun moreInputs moreSecrets =>
  have ⟨after, passes, known⟩ := draws moreInputs moreSecrets
  ⟨after, passes, weaker _ _ _ known⟩

theorem exactly (draws : Draws given layout part inputs secrets post) :
    Draws given layout part inputs secrets fun output later after =>
      output = (part layout).output ∧ later = (part layout).layout ∧ post output later after :=
  fun moreInputs moreSecrets =>
    have ⟨after, passes, known⟩ := draws moreInputs moreSecrets
    ⟨after, passes, rfl, rfl, known⟩

/-- Every allocated wire has a value, and keeps the one that it had. -/
theorem keeping [Counted part] (draws : Draws given layout part inputs secrets post)
    (fits : given.Fits layout) :
    Draws given layout part inputs secrets fun output later after =>
      layout.Grows later ∧ after.Fits later ∧ given.Keeps layout after ∧ post output later after := by
  intro moreInputs moreSecrets
  obtain ⟨after, passes, known⟩ := draws moreInputs moreSecrets
  have fits' : after.Fits (part layout).layout := by
    rw [Counted.layout_eq]
    exact assign_fits fits passes.assign_eq
  exact ⟨after, passes, Counted.grows part layout, fits',
    (computed_of_assign fits passes.assign_eq).1, known⟩

theorem bind {continue_ : α → Synthesis β} [Counted part] {final : β → Layout → Assignment → Prop}
    {inputs' secrets' : List Scalar} (first : Draws given layout part inputs secrets post)
    (fits : given.Fits layout)
    (rest : ∀ output later between, layout.Grows later → between.Fits later →
      given.Keeps layout between → post output later between →
        Draws between later (continue_ output) inputs' secrets' final) :
    Draws given layout (part >>= continue_) (inputs ++ inputs') (secrets ++ secrets') final := by
  intro moreInputs moreSecrets
  obtain ⟨between, passes, grows, fits', kept, known⟩ :=
    first.keeping fits (inputs'.map some ++ moreInputs) (secrets'.map some ++ moreSecrets)
  obtain ⟨after, passes', known'⟩ := rest _ _ between grows fits' kept known moreInputs moreSecrets
  refine ⟨after, ?_, known'⟩
  rw [List.map_append, List.map_append, List.append_assoc, List.append_assoc, bind_apply]
  exact passes.append passes'

/-- Along a list, each member takes its own values. -/
theorem chain {part : β → α → Synthesis β} [∀ state item, Counted (part state item)]
    (inputs secrets : α → List Scalar) (related : β → σ → Layout → Assignment → Prop)
    (next : σ → α → σ)
    (step : ∀ between later, between.Fits later → ∀ item state plain,
      related state plain later between →
        Draws between later (part state item) (inputs item) (secrets item) fun output last after =>
          related output (next plain item) last after)
    (items : List α) {state : β} {plain : σ} (fits : given.Fits layout)
    (start : related state plain layout given) :
    Draws given layout (chain part state items) (items.flatMap inputs) (items.flatMap secrets)
      fun output last after => related output (items.foldl next plain) last after := by
  induction items generalizing layout given state plain with
  | nil => exact pure start
  | cons item items ih =>
    exact bind (step given layout fits item state plain start) fits
      fun output later between _ fits' _ known => ih fits' known

end Draws

end MailProof
