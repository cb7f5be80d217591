import RegisterAssignment.Allocator.Basic

/-!
Questions to an allocator. None of them changes anything. An error names the value that the alias
chain ends in.
-/

namespace RegisterAssignment.Allocator

variable {σ κ : Type}

def isBound (a : Allocator σ κ) (v : Value) : Bool := (a.binding? v).isSome

def load (a : Allocator σ κ) (v : Value) : Except Error (Register κ) :=
  match a.binding? v with
  | some held => .ok held.register
  | none => .error (.unbound (a.resolve v).text)

def unexpected (a : Allocator σ κ) (v : Value) (expected : String) (found : Register κ) : Error :=
  .wrongVariant (a.resolve v).text expected found.variant.text

def loadAs (a : Allocator σ κ) (v : Value) (variant : Variant) : Except Error (Register κ) := do
  let register ← a.load v
  if register.variant = variant then
    return register
  else
    throw (a.unexpected v variant.text register)

/-- The register of a value, which has to be a constant or a target register. -/
def loadPrimitive (a : Allocator σ κ) (v : Value) : Except Error (Register κ) := do
  let register ← a.load v
  if register.variant = .compound then
    throw (a.unexpected v "primitive" register)
  else
    return register

def loadHardware (a : Allocator σ κ) (v : Value) : Except Error (Hardware κ) := do
  match ← a.load v with
  | .hardware _ held => return held
  | other => throw (a.unexpected v Variant.hardware.text other)

end RegisterAssignment.Allocator
