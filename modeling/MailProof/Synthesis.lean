import MailProof.Constraint

/-! Synthesis of constraint systems. A circuit emits steps that allocate wires and state
constraints, and it never sees a value. Values come afterwards: those of public inputs and
secrets are supplied, and every other witness has a rule that computes it from earlier
wires. -/

namespace MailProof

/-- The rule for the value of a witness. -/
inductive Hint where
  /-- A binary digit of the canonical value of a sum. -/
  | bit (source : LinearCombination) (index : Nat)
  | product (left right : LinearCombination)
  | exclusiveOr (left right : LinearCombination)
  | sum (terms : LinearCombination)
  deriving DecidableEq, Repr

def Hint.eval (value : Wire → Scalar) : Hint → Scalar
  | .bit source index => if (source.eval value).val.testBit index then 1 else 0
  | .product left right => left.eval value * right.eval value
  | .exclusiveOr left right =>
    let x := left.eval value
    let y := right.eval value
    x + y - (x * y + x * y)
  | .sum terms => terms.eval value

inductive Step where
  /-- Allocate the next public input, with a supplied value. -/
  | input
  /-- Allocate the next witness, with a supplied value. -/
  | secret
  /-- Allocate the next witness, with a computed value. -/
  | derived (hint : Hint)
  | enforce (constraint : Constraint)
  deriving DecidableEq, Repr

def Step.constraint? : Step → Option Constraint
  | .enforce constraint => some constraint
  | _ => none

/-- Numbers of wires and constraints so far; the constant wire is not counted. -/
structure Layout where
  inputs : Nat := 0
  witnesses : Nat := 0
  constraints : Nat := 0
  deriving DecidableEq, Repr

/-- The result of synthesizing a part of a circuit: what later parts use of it, the steps
it emits, and the layout behind them. -/
structure Draft (α : Type) where
  output : α
  steps : List Step
  layout : Layout

/-- A part of a circuit, placed behind the wires that are already allocated. -/
def Synthesis (α : Type) : Type := Layout → Draft α

namespace Synthesis

instance : Monad Synthesis where
  pure output := fun layout => ⟨output, [], layout⟩
  bind part continue_ := fun layout =>
    let first := part layout
    let rest := continue_ first.output first.layout
    ⟨rest.output, first.steps ++ rest.steps, rest.layout⟩

def input : Synthesis Wire := fun layout =>
  ⟨.input layout.inputs, [.input], { layout with inputs := layout.inputs + 1 }⟩

def secret : Synthesis Wire := fun layout =>
  ⟨.witness layout.witnesses, [.secret], { layout with witnesses := layout.witnesses + 1 }⟩

def derived (hint : Hint) : Synthesis Wire := fun layout =>
  ⟨.witness layout.witnesses, [.derived hint],
    { layout with witnesses := layout.witnesses + 1 }⟩

/-- Require that the product of two sums equals a third. -/
def enforce (left right output : LinearCombination) : Synthesis Unit := fun layout =>
  ⟨(), [.enforce ⟨left, right, output⟩], { layout with constraints := layout.constraints + 1 }⟩

/-- Sizes of what has been synthesized so far. -/
def measure : Synthesis Layout := fun layout => ⟨layout, [], layout⟩

/-- Apply a part a number of times, keeping the outputs in order. -/
def replicate (part : Synthesis α) : (count : Nat) → Synthesis (List α)
  | 0 => pure []
  | count + 1 => do
    let first ← part
    let rest ← replicate part count
    return first :: rest

/-- Apply a part to every member of a list, keeping the outputs in order. -/
def each (part : α → Synthesis β) : List α → Synthesis (List β)
  | [] => pure []
  | first :: rest => do
    let output ← part first
    let outputs ← each part rest
    return output :: outputs

/-- Chain a part along a list. -/
def chain (part : β → α → Synthesis β) (state : β) : List α → Synthesis β
  | [] => pure state
  | first :: rest => do
    let next ← part state first
    chain part next rest

end Synthesis

inductive SynthesisError where
  | assignmentMissing
  deriving DecidableEq, Repr

def SynthesisError.message : SynthesisError → String
  | .assignmentMissing => "an assignment for a variable could not be computed"

/-- Values of the public inputs and the secrets in the order of allocation; `none` where
a value is not known. -/
structure Supply where
  inputs : List (Option Scalar) := []
  secrets : List (Option Scalar) := []

/-- The first value of a supply and the rest of it. -/
def Supply.next : List (Option Scalar) → Except SynthesisError (Scalar × List (Option Scalar))
  | some value :: rest => .ok (value, rest)
  | _ => .error .assignmentMissing

/-- Give values to the wires that steps allocate, in order. -/
def assign (supply : Supply) (assignment : Assignment) :
    List Step → Except SynthesisError Assignment
  | [] => .ok assignment
  | .input :: steps =>
    match Supply.next supply.inputs with
    | .error error => .error error
    | .ok (value, inputs) =>
      assign { supply with inputs }
        { assignment with inputs := assignment.inputs.push value } steps
  | .secret :: steps =>
    match Supply.next supply.secrets with
    | .error error => .error error
    | .ok (value, secrets) =>
      assign { supply with secrets }
        { assignment with witnesses := assignment.witnesses.push value } steps
  | .derived hint :: steps =>
    let value := hint.eval assignment.value
    assign supply { assignment with witnesses := assignment.witnesses.push value } steps
  | .enforce _ :: steps => assign supply assignment steps

/-- Sizes of a constraint system; the constant wire counts as an instance variable. -/
structure Shape where
  constraints : Nat
  instanceVariables : Nat
  witnessVariables : Nat
  deriving DecidableEq, Repr

def Layout.shape (layout : Layout) : Shape :=
  ⟨layout.constraints, layout.inputs + 1, layout.witnesses⟩

inductive Mode where
  /-- Wires carry values. -/
  | proving
  /-- Only the constraints are of interest. -/
  | setup
  deriving DecidableEq, Repr

/-- A synthesized system; there are no values in setup mode. -/
structure System where
  constraints : List Constraint
  shape : Shape
  assignment : Option Assignment

namespace Draft

def constraints (draft : Draft α) : List Constraint := draft.steps.filterMap Step.constraint?

def shape (draft : Draft α) : Shape := draft.layout.shape

/-- The system of a draft, with the values of a supply in proving mode. -/
def system (draft : Draft α) (mode : Mode) (supply : Supply) : Except SynthesisError System :=
  match mode with
  | .setup => .ok ⟨draft.constraints, draft.shape, none⟩
  | .proving =>
    (assign supply {} draft.steps).map fun assignment =>
      ⟨draft.constraints, draft.shape, some assignment⟩

end Draft

/-- Index of the first constraint that does not hold; without values that is not known. -/
def System.firstUnsatisfied (system : System) : Except SynthesisError (Option Nat) :=
  match system.assignment with
  | none => .error .assignmentMissing
  | some assignment => .ok (MailProof.firstUnsatisfied system.constraints assignment.value)

end MailProof
