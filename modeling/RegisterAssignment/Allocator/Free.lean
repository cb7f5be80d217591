import RegisterAssignment.Allocator.Basic

/-!
Giving registers up. A binding is removed before its registers are released, so it is gone also
if the target refuses some of them.
-/

namespace RegisterAssignment.Allocator

variable {σ κ : Type} [RegisterKind κ] [Target σ κ]

/-- Releases a register without looking at the bindings. -/
def freeRegister (register : Register κ) : Action (Allocator σ κ) κ Unit :=
  onSupply (Supply.release register)

/-- Removes the binding that a value uses and releases its register. -/
def free (v : Value) : Action (Allocator σ κ) κ Unit := do
  let a ← Action.current
  let root := a.resolve v
  match a.bindings.get? root.id with
  | none => Action.fail (.unbound v.text)
  | some held =>
    let name := ValueId.text root.id
    Action.modify fun a => { a with bindings := a.bindings.erase root.id }
    Action.note .trace s!"free {name} ({held.register.text})"
    freeRegister held.register

/-- Releases the registers of bindings one after the other. A refusal does not stop the rest; the
first one is returned. -/
def releaseRows (rows : List (ValueId × Binding κ)) : Action (Allocator σ κ) κ Unit :=
  Action.all <| rows.map fun row =>
    (freeRegister row.2.register).warnOnError fun e =>
      let name := ValueId.text row.1
      s!"failed to free {name} during reset: {e.message}"

/-- Removes all bindings and aliases and releases every register, in ascending order of the
values. -/
def reset : Action (Allocator σ κ) κ Unit := do
  let a ← Action.current
  Action.modify fun a => { a with bindings := .empty, aliases := .empty }
  releaseRows a.bindings.rows

end RegisterAssignment.Allocator
