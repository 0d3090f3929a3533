import MailProof.Gadget.Quantity

/-! Constraint systems under construction. In proving mode every wire has its value as soon as it is
allocated, and what is built next is free to look at the values so far. -/

namespace MailProof

/-- A constraint system as far as it has been built. There are no values in setup mode. -/
structure Progress where
  constraints : Array Constraint := #[]
  layout : Layout := {}
  values : Option Assignment

/-- Nothing is built yet. -/
def Mode.start : Mode → Progress
  | .proving => { values := some {} }
  | .setup => { values := none }

def Progress.system (progress : Progress) : System :=
  ⟨progress.constraints.toList, progress.layout.shape, progress.values⟩

/-- Building a part of a constraint system fails where a value is missing. -/
abbrev Building (α : Type) : Type := StateT Progress (Except SynthesisError) α

namespace Building

/-- Extend the values by one. Without values it is not asked for. -/
def extend (push : Assignment → Scalar → Assignment) :
    Option Assignment → Option Scalar → Except SynthesisError (Option Assignment)
  | none, _ => .ok none
  | some values, some value => .ok (some (push values value))
  | some _, none => .error .assignmentMissing

/-- Allocate the next public input. -/
def input (value : Option Scalar) : Building Wire := fun ⟨constraints, layout, values⟩ => do
  let values ← extend (fun values x => { values with inputs := values.inputs.push x }) values value
  return (.input layout.inputs,
    ⟨constraints, { layout with inputs := layout.inputs + 1 }, values⟩)

/-- Allocate the next witness. -/
def witness (value : Option Scalar) : Building Wire := fun ⟨constraints, layout, values⟩ => do
  let values ← extend (fun values x => { values with witnesses := values.witnesses.push x })
    values value
  return (.witness layout.witnesses,
    ⟨constraints, { layout with witnesses := layout.witnesses + 1 }, values⟩)

/-- The value of a quantity, where it is known. -/
def valueOf (quantity : Quantity) : Building (Option Scalar) := do
  match quantity with
  | .constant value => return some value
  | .combination terms => return (← get).values.map fun values => terms.eval values.value

/-- Build a part that is drafted without values, with a supply for those that it asks for. Its other
witnesses get the values of their rules. -/
def supplied (supply : Supply) (part : Synthesis α) : Building α :=
  fun ⟨constraints, layout, values⟩ =>
    let draft := part layout
    match values with
    | none => .ok (draft.output, ⟨constraints ++ draft.constraints, draft.layout, none⟩)
    | some values => do
      let values ← assign supply values draft.steps
      return (draft.output, ⟨constraints ++ draft.constraints, draft.layout, some values⟩)

/-- Build a drafted part that asks for no values. -/
def place (part : Synthesis α) : Building α := supplied {} part

end Building

end MailProof
