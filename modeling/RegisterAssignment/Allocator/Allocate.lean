import RegisterAssignment.Allocator.Basic

/-!
Requests for registers. A value that is bound keeps its register: it is returned without a call
into the target. Otherwise a register is made for the type of the value that the alias chain ends
in, and bound there.
-/

namespace RegisterAssignment.Allocator

variable {σ κ : Type} [RegisterKind κ] [Target σ κ]

/-- The register of a value, placed according to its type on the first request. -/
def allocate (v : Value) : Action (Allocator σ κ) κ (Register κ) := do
  let a ← Action.current
  let root := a.resolve v
  match a.bindings.get? root.id with
  | some held => return held.register
  | none =>
    let register ← onSupply (Supply.place root.ty)
    Action.note .trace s!"allocate {root.text} -> {register.text}"
    record root.id v register
    return register

/-- The single target register of a value, taken on the first request. The target describes the
type as it is, so structures are not decomposed. A value that is bound to something else is
refused. -/
def allocateHardware (v : Value) : Action (Allocator σ κ) κ (Register κ) := do
  let a ← Action.current
  let root := a.resolve v
  match a.bindings.get? root.id with
  | some ⟨_, .hardware origin held⟩ => return .hardware origin held
  | some ⟨_, other⟩ =>
    Action.fail (.wrongVariant root.text Variant.hardware.text other.variant.text)
  | none =>
    let descriptor ← onSupply (Supply.describe root.ty)
    let register ← onSupply (Supply.hardware descriptor)
    Action.note .trace s!"allocate hardware {root.text} -> {register.text}"
    record root.id v register
    return register

/-- The register of a value, bound to a constant on the first request. The literal has to be of
the basic type by which the target represents the value. -/
def allocateConstant (v : Value) (literal : Literal) : Action (Allocator σ κ) κ (Register κ) := do
  let a ← Action.current
  let root := a.resolve v
  match a.bindings.get? root.id with
  | some held => return held.register
  | none =>
    let descriptor ← onSupply (Supply.describe root.ty)
    if descriptor.basic = some literal.scalar then
      let register ← onSupply (Supply.constant descriptor literal)
      Action.note .trace s!"constant {root.text} -> {register.text}"
      record root.id v register
      return register
    else
      let basic := BasicType.text descriptor.basic
      Action.fail (.codegen
        s!"constant {literal.text} does not fit register of {root.text} ({basic})")

/-- A register for a type, bound to no value. -/
def allocateType (ty : Ty) : Action (Allocator σ κ) κ (Register κ) :=
  onSupply (Supply.place ty)

end RegisterAssignment.Allocator
