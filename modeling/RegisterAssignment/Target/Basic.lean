import RegisterAssignment.Log
import RegisterAssignment.Register.Descriptor

/-!
Targets: the machines that registers belong to. A target says how a type is represented, hands
out registers, and takes them back. Whether a register that came back is ever handed out again is
its own affair.
-/

namespace RegisterAssignment

/-- What a target answers to a request that may change it: a result, the state afterwards, and
what it writes to the log. The state may have changed even if the result is an error. -/
structure Reply (σ α : Type) where
  result : Except Error α
  state : σ
  log : List LogLine

/-- A target with states `σ` and register kinds `κ`. Describing a type leaves the state alone.
No law is required: a target may refuse whatever it likes. -/
class Target (σ : Type) (κ : outParam Type) where
  /-- How values of a type are held in one register. -/
  describe : σ → Ty → Except Error (Descriptor κ)
  /-- Hands out a register for a descriptor. -/
  take : Descriptor κ → σ → Reply σ (Hardware κ)
  /-- Takes a register back. -/
  giveBack : Hardware κ → σ → Reply σ Unit

/-- The width of an address, and of a string handle, which is an address too. -/
inductive PointerWidth where
  | bits32
  | bits64
deriving DecidableEq

namespace PointerWidth

instance : Inhabited PointerWidth := ⟨bits64⟩

def scalar : PointerWidth → Scalar
  | bits32 => .i32
  | bits64 => .i64

/-- The scalar that represents a type on a machine with addresses of this width. A type that does
not fit one register has none. -/
def represent? (width : PointerWidth) : Ty → Option Scalar
  | .scalar s | .padding s => some s
  | .pointer .. | .string => some width.scalar
  | .void | .struct _ | .view .. => none

end PointerWidth

def Ty.notRegisterSized (ty : Ty) : Error :=
  .undescribable ty.text "not a register-sized type"

end RegisterAssignment
