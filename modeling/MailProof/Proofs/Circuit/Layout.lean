import MailProof.Synthesis

/-! Layouts of wires. A part of a circuit leaves the layout that its steps lead to, so the
place of every wire is known from the steps before it. -/

namespace MailProof

namespace Layout

/-- Sizes after one more step. -/
def next (layout : Layout) : Step → Layout
  | .input => { layout with inputs := layout.inputs + 1 }
  | .secret | .derived _ => { layout with witnesses := layout.witnesses + 1 }
  | .enforce _ => { layout with constraints := layout.constraints + 1 }

def after (layout : Layout) (steps : List Step) : Layout := steps.foldl next layout

@[simp] theorem after_nil (layout : Layout) : layout.after [] = layout := rfl

@[simp] theorem after_cons (layout : Layout) (step : Step) (steps : List Step) :
    layout.after (step :: steps) = (layout.next step).after steps := rfl

theorem after_append (layout : Layout) (first rest : List Step) :
    layout.after (first ++ rest) = (layout.after first).after rest := List.foldl_append

/-- A wire that has been allocated. -/
def Has (layout : Layout) : Wire → Prop
  | .one => True
  | .input index => index < layout.inputs
  | .witness index => index < layout.witnesses

/-- No wire is lost. -/
def Grows (earlier later : Layout) : Prop :=
  earlier.inputs ≤ later.inputs ∧ earlier.witnesses ≤ later.witnesses

theorem Grows.refl (layout : Layout) : layout.Grows layout := ⟨Nat.le_refl _, Nat.le_refl _⟩

theorem Grows.trans {first second third : Layout} (early : first.Grows second)
    (late : second.Grows third) : first.Grows third :=
  ⟨Nat.le_trans early.1 late.1, Nat.le_trans early.2 late.2⟩

theorem grows_next (layout : Layout) (step : Step) : layout.Grows (layout.next step) := by
  cases step <;> simp [Grows, next]

private theorem grows_after (layout : Layout) (steps : List Step) :
    layout.Grows (layout.after steps) := by
  induction steps generalizing layout with
  | nil => exact .refl layout
  | cons step steps ih => exact (layout.grows_next step).trans (ih (layout.next step))

theorem Has.mono {earlier later : Layout} {wire : Wire} (has : earlier.Has wire)
    (grows : earlier.Grows later) : later.Has wire := by
  cases wire with
  | one => trivial
  | input index => exact Nat.lt_of_lt_of_le has grows.1
  | witness index => exact Nat.lt_of_lt_of_le has grows.2

end Layout

namespace LinearCombination

/-- All wires of the sum have been allocated. -/
def Within (layout : Layout) (terms : LinearCombination) : Prop :=
  ∀ term ∈ terms, layout.Has term.2

theorem Within.mono {earlier later : Layout} {terms : LinearCombination}
    (within : terms.Within earlier) (grows : earlier.Grows later) : terms.Within later :=
  fun term member => (within term member).mono grows

theorem Within.append {layout : Layout} {left right : LinearCombination}
    (first : left.Within layout) (second : right.Within layout) : (left ++ right).Within layout := by
  intro term member
  rcases List.mem_append.mp member with here | there
  · exact first term here
  · exact second term there

theorem Within.scale {layout : Layout} {terms : LinearCombination}
    (within : terms.Within layout) (factor : Scalar) : (terms.scale factor).Within layout := by
  intro term member
  obtain ⟨original, present, same⟩ := List.mem_map.mp member
  rw [← same]
  exact within original present

theorem within_ofWire {layout : Layout} {wire : Wire} (has : layout.Has wire) :
    (ofWire wire).Within layout := by
  simpa [Within, ofWire] using has

theorem within_ofConstant (layout : Layout) (value : Scalar) :
    (ofConstant value).Within layout := by
  simp [Within, ofConstant, Layout.Has]

theorem eval_congr {terms : LinearCombination} {first second : Wire → Scalar}
    (same : ∀ term ∈ terms, first term.2 = second term.2) :
    terms.eval first = terms.eval second := by
  induction terms with
  | nil => rfl
  | cons term terms ih =>
    have rest := ih fun other member => same other (List.mem_cons_of_mem term member)
    simp only [eval, List.foldr_cons] at rest ⊢
    rw [same term (List.mem_cons_self ..), rest]

end LinearCombination

namespace Hint

/-- All wires that a rule reads have been allocated. -/
def Within (layout : Layout) : Hint → Prop
  | .bit source _ => source.Within layout
  | .product left right | .exclusiveOr left right => left.Within layout ∧ right.Within layout
  | .sum terms => terms.Within layout

/-- A rule reads allocated wires only, whatever the others carry. -/
theorem eval_congr {layout : Layout} {hint : Hint} (within : hint.Within layout)
    {first second : Wire → Scalar} (same : ∀ wire, layout.Has wire → first wire = second wire) :
    hint.eval first = hint.eval second := by
  have agree {terms : LinearCombination} (known : terms.Within layout) :
      terms.eval first = terms.eval second :=
    LinearCombination.eval_congr fun term member => same term.2 (known term member)
  cases hint with
  | bit source index => simp only [eval, agree within]
  | product left right => simp only [eval, agree within.1, agree within.2]
  | exclusiveOr left right => simp only [eval, agree within.1, agree within.2]
  | sum terms => simp only [eval, agree within]

end Hint

namespace Synthesis

/-- The layout that a part leaves is the one that its steps lead to. -/
class Counted (part : Synthesis α) : Prop where
  layout_eq : ∀ layout, (part layout).layout = layout.after (part layout).steps

/-- A part that asks for no supplied value. -/
class Internal (part : Synthesis α) : Prop extends Counted part where
  derived_only : ∀ layout, ∀ step ∈ (part layout).steps, step ≠ .input ∧ step ≠ .secret

theorem bind_apply (part : Synthesis α) (continue_ : α → Synthesis β) (layout : Layout) :
    (part >>= continue_) layout =
      ⟨(continue_ (part layout).output (part layout).layout).output,
        (part layout).steps ++ (continue_ (part layout).output (part layout).layout).steps,
        (continue_ (part layout).output (part layout).layout).layout⟩ := rfl

theorem pure_apply (output : α) (layout : Layout) :
    (pure output : Synthesis α) layout = ⟨output, [], layout⟩ := rfl

instance : LawfulMonad Synthesis := by
  refine .mk' Synthesis ?_ ?_ ?_
  · intro α part
    funext layout
    exact congrArg (Draft.mk _ · _) (List.append_nil _)
  · intro α β output continue_
    rfl
  · intro α β γ part first second
    funext layout
    simp only [bind_apply, List.append_assoc]

theorem Counted.grows (part : Synthesis α) [Counted part] (layout : Layout) :
    layout.Grows (part layout).layout := by
  rw [Counted.layout_eq]
  exact layout.grows_after _

instance (part : Synthesis α) (continue_ : α → Synthesis β) [Counted part]
    [∀ output, Counted (continue_ output)] : Counted (part >>= continue_) := by
  constructor
  intro layout
  rw [bind_apply, Layout.after_append, ← Counted.layout_eq, ← Counted.layout_eq]

instance (part : Synthesis α) (continue_ : α → Synthesis β) [Internal part]
    [∀ output, Internal (continue_ output)] : Internal (part >>= continue_) := by
  refine { derived_only := ?_ }
  intro layout step member
  rcases List.mem_append.mp member with first | rest
  · exact Internal.derived_only layout step first
  · exact Internal.derived_only _ step rest

instance (output : α) : Internal (pure output : Synthesis α) where
  layout_eq _ := rfl
  derived_only _ _ member := by simp [pure_apply] at member

instance : Counted input := ⟨fun _ => rfl⟩

instance : Counted secret := ⟨fun _ => rfl⟩

instance : Internal measure where
  layout_eq _ := rfl
  derived_only := by simp [measure]

instance (hint : Hint) : Internal (derived hint) where
  layout_eq _ := rfl
  derived_only := by simp [derived]

instance (left right output : LinearCombination) : Internal (enforce left right output) where
  layout_eq _ := rfl
  derived_only := by simp [enforce]

section Loops

variable {part : α → Synthesis β} {fold : β → α → Synthesis β}

instance [∀ item, Internal (part item)] (items : List α) : Internal (each part items) := by
  induction items with
  | nil => exact inferInstanceAs (Internal (pure []))
  | cons item items ih => unfold each; infer_instance

instance [∀ state item, Counted (fold state item)] (state : β) (items : List α) :
    Counted (chain fold state items) := by
  induction items generalizing state with
  | nil => exact inferInstanceAs (Counted (pure state))
  | cons item items ih => unfold chain; infer_instance

instance [∀ state item, Internal (fold state item)] (state : β) (items : List α) :
    Internal (chain fold state items) := by
  induction items generalizing state with
  | nil => exact inferInstanceAs (Internal (pure state))
  | cons item items ih => unfold chain; infer_instance

end Loops

/-- Allocating public inputs in a row. -/
theorem replicate_input (count : Nat) (layout : Layout) :
    replicate input count layout =
      ⟨(List.range' layout.inputs count).map .input, List.replicate count .input,
        { layout with inputs := layout.inputs + count }⟩ := by
  induction count generalizing layout with
  | zero => rfl
  | succ count ih =>
    rw [replicate, bind_apply, bind_apply, ih]
    simp [input, pure_apply, List.range'_succ, List.replicate_succ, Nat.add_comm, Nat.add_left_comm]

theorem replicate_secret (count : Nat) (layout : Layout) :
    replicate secret count layout =
      ⟨(List.range' layout.witnesses count).map .witness, List.replicate count .secret,
        { layout with witnesses := layout.witnesses + count }⟩ := by
  induction count generalizing layout with
  | zero => rfl
  | succ count ih =>
    rw [replicate, bind_apply, bind_apply, ih]
    simp [secret, pure_apply, List.range'_succ, List.replicate_succ, Nat.add_comm, Nat.add_left_comm]

end Synthesis

end MailProof
