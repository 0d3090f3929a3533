import MailProof.Proofs.Circuit.Layout
import Mathlib.Data.List.Forall2

/-! Reading a circuit under values of its wires. What is taken for granted is either that
witnesses have the values their rules compute, or only that the constraints hold. Parts of a
circuit are described in the same words for both: their constraints hold, and what their
outputs carry. The first reading says that an honest prover succeeds, the second that no
prover can deviate. -/

namespace MailProof

open Synthesis

/-- Why the values of a circuit's wires are as they are. -/
inductive Basis where
  /-- Every rule has been followed. -/
  | computed
  /-- Every constraint holds. -/
  | constrained
  deriving DecidableEq

structure Reading where
  basis : Basis
  value : Wire → Scalar
  one : value .one = 1

/-- A derived witness has the value of its rule over the wires before it. -/
def Step.Computed (value : Wire → Scalar) (layout : Layout) : Step → Prop
  | .derived hint => ∃ seen, (∀ wire, layout.Has wire → seen wire = value wire) ∧
      value (.witness layout.witnesses) = hint.eval seen
  | _ => True

def Computed (value : Wire → Scalar) : Layout → List Step → Prop
  | _, [] => True
  | layout, step :: steps => step.Computed value layout ∧ Computed value (layout.next step) steps

def Constrained (value : Wire → Scalar) (steps : List Step) : Prop :=
  ∀ constraint ∈ steps.filterMap Step.constraint?, constraint.Holds value

theorem computed_append (value : Wire → Scalar) (layout : Layout) (first rest : List Step) :
    Computed value layout (first ++ rest) ↔
      Computed value layout first ∧ Computed value (layout.after first) rest := by
  induction first generalizing layout with
  | nil => simp [Computed]
  | cons step steps ih => simp [Computed, ih, and_assoc]

theorem constrained_append (value : Wire → Scalar) (first rest : List Step) :
    Constrained value (first ++ rest) ↔ Constrained value first ∧ Constrained value rest := by
  simp only [Constrained, List.filterMap_append, List.mem_append, or_imp, forall_and]

namespace Reading

/-- What a reading takes for granted about the steps behind a layout. -/
def Admits (reading : Reading) (layout : Layout) (steps : List Step) : Prop :=
  match reading.basis with
  | .computed => Computed reading.value layout steps
  | .constrained => Constrained reading.value steps

theorem admits_append (reading : Reading) (layout : Layout) (first rest : List Step) :
    reading.Admits layout (first ++ rest) ↔
      reading.Admits layout first ∧ reading.Admits (layout.after first) rest := by
  unfold Admits
  split
  · exact computed_append ..
  · exact constrained_append ..

end Reading

/-- Behind a layout, the constraints of a part hold and its output is as described. -/
def Meets (reading : Reading) (layout : Layout) (part : Synthesis α)
    (post : α → Layout → Prop) : Prop :=
  reading.Admits layout (part layout).steps →
    Constrained reading.value (part layout).steps ∧ post (part layout).output (part layout).layout

theorem exists_related {related : α → β → Prop} {items : List α} {outputs : List β}
    (all : List.Forall₂ related items outputs) {output : β} (member : output ∈ outputs) :
    ∃ item ∈ items, related item output := by
  induction all with
  | nil => simp at member
  | @cons item first items outputs known rest ih =>
    rcases List.mem_cons.mp member with here | there
    · exact ⟨item, List.mem_cons_self .., here ▸ known⟩
    · obtain ⟨other, present, found⟩ := ih there
      exact ⟨other, List.mem_cons_of_mem item present, found⟩

namespace Meets

variable {reading : Reading} {layout : Layout}

theorem pure {output : α} {post : α → Layout → Prop} (holds : post output layout) :
    Meets reading layout (pure output) post :=
  fun _ => ⟨by simp [Constrained, pure_apply], holds⟩

theorem weaken {part : Synthesis α} {strong post : α → Layout → Prop}
    (meets : Meets reading layout part strong)
    (weaker : ∀ output later, strong output later → post output later) :
    Meets reading layout part post :=
  fun admitted => ⟨(meets admitted).1, weaker _ _ (meets admitted).2⟩

/-- Output and layout are the ones of the part. -/
theorem exactly {part : Synthesis α} {post : α → Layout → Prop}
    (meets : Meets reading layout part post) :
    Meets reading layout part fun output later =>
      output = (part layout).output ∧ later = (part layout).layout ∧ post output later :=
  fun admitted => ⟨(meets admitted).1, rfl, rfl, (meets admitted).2⟩

theorem bind {part : Synthesis α} {continue_ : α → Synthesis β} [Counted part]
    {middle : α → Layout → Prop} {post : β → Layout → Prop}
    (first : Meets reading layout part middle)
    (rest : ∀ output later, layout.Grows later → middle output later →
      Meets reading later (continue_ output) post) :
    Meets reading layout (part >>= continue_) post := by
  intro admitted
  rw [bind_apply, reading.admits_append, ← Counted.layout_eq] at admitted
  obtain ⟨holds, known⟩ := first admitted.1
  obtain ⟨later, done⟩ := rest _ _ (Counted.grows part layout) known admitted.2
  exact ⟨(constrained_append ..).mpr ⟨holds, later⟩, done⟩

theorem derived {hint : Hint} (within : hint.Within layout) :
    Meets reading layout (derived hint) fun wire later => later.Has wire ∧
      (reading.basis = .computed → reading.value wire = hint.eval reading.value) := by
  intro admitted
  refine ⟨by simp [Constrained, Synthesis.derived, Step.constraint?], Nat.lt_succ_self _, ?_⟩
  intro basis
  simp only [Reading.Admits, basis, Synthesis.derived, Computed, Step.Computed, and_true] at admitted
  obtain ⟨seen, same, rule⟩ := admitted
  exact rule.trans (Hint.eval_congr within same)

theorem input : Meets reading layout input fun wire later => later.Has wire :=
  fun _ => ⟨by simp [Constrained, Synthesis.input, Step.constraint?], Nat.lt_succ_self _⟩

theorem secret : Meets reading layout secret fun wire later => later.Has wire :=
  fun _ => ⟨by simp [Constrained, Synthesis.secret, Step.constraint?], Nat.lt_succ_self _⟩

theorem measure : Meets reading layout measure fun _ later => later = layout :=
  fun _ => ⟨by simp [Constrained, Synthesis.measure], rfl⟩

/-- A constraint is met once the rules imply it. -/
theorem enforce {left right output : LinearCombination}
    (follows : reading.basis = .computed →
      left.eval reading.value * right.eval reading.value = output.eval reading.value) :
    Meets reading layout (enforce left right output) fun _ _ =>
      left.eval reading.value * right.eval reading.value = output.eval reading.value := by
  intro admitted
  have holds : left.eval reading.value * right.eval reading.value = output.eval reading.value := by
    cases basis : reading.basis with
    | computed => exact follows basis
    | constrained =>
      simpa [Reading.Admits, basis, Constrained, Synthesis.enforce, Step.constraint?,
        Constraint.Holds] using admitted
  exact ⟨by simpa [Constrained, Synthesis.enforce, Step.constraint?, Constraint.Holds] using holds,
    holds⟩

/-- An invariant of every member's part is one of the whole chain. -/
theorem chain {part : β → α → Synthesis β} [∀ state item, Counted (part state item)]
    (related : β → σ → Layout → Prop) (next : σ → α → σ) (items : List α)
    (step : ∀ later, layout.Grows later → ∀ item ∈ items, ∀ state plain, related state plain later →
      Meets reading later (part state item) fun output last => related output (next plain item) last)
    {state : β} {plain : σ} (start : related state plain layout) :
    Meets reading layout (chain part state items) fun output last =>
      related output (items.foldl next plain) last := by
  induction items generalizing layout state plain with
  | nil => exact pure start
  | cons item items ih =>
    refine bind (step layout (.refl layout) item (List.mem_cons_self ..) state plain start) ?_
    intro output later grows known
    exact ih (fun last grows' other member =>
      step last (grows.trans grows') other (List.mem_cons_of_mem item member)) known

/-- Parts for each member of a list, each described on its own. -/
theorem each {part : α → Synthesis β} [∀ item, Internal (part item)]
    (related : α → β → Layout → Prop) (items : List α)
    (mono : ∀ item output early late, related item output early → early.Grows late →
      related item output late)
    (step : ∀ later, layout.Grows later → ∀ item ∈ items,
      Meets reading later (part item) fun output last => related item output last) :
    Meets reading layout (each part items) fun outputs last =>
      List.Forall₂ (fun item output => related item output last) items outputs := by
  induction items generalizing layout with
  | nil => exact pure .nil
  | cons item items ih =>
    refine bind (step layout (.refl layout) item (List.mem_cons_self ..)) ?_
    intro output later grows known
    have members := ih fun last grows' other member =>
      step last (grows.trans grows') other (List.mem_cons_of_mem item member)
    refine bind members ?_
    intro outputs last grows' rest
    exact pure (.cons (mono item output later last known grows') rest)

end Meets

end MailProof
