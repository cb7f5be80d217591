import RegisterAssignment.Text.Numeral
import RegisterAssignment.Type.Basic

/-!
What a register has to hold, and the registers of a target. A target divides its registers into
kinds, and numbers the registers of each kind.
-/

namespace RegisterAssignment

/-- The register kinds of a target, each with a name. -/
class RegisterKind (κ : Type) where
  nameChars : κ → List Char

def RegisterKind.name {κ : Type} [RegisterKind κ] (kind : κ) : String :=
  String.ofList (nameChars kind)

/-- What a register holds: a value of a declared type, represented by a basic type, in a register
of a kind. Pointers keep their declared type and are represented by an integer. -/
structure Descriptor (κ : Type) where
  ty : Ty
  basic : BasicType
  kind : κ
deriving DecidableEq

namespace Descriptor

variable {κ : Type}

/-- A scalar represented by itself. -/
def ofScalar (s : Scalar) (kind : κ) : Descriptor κ := ⟨.scalar s, some s, kind⟩

def text [RegisterKind κ] (d : Descriptor κ) : String :=
  let basic := BasicType.text d.basic
  s!"{d.ty.text} as {basic} in {RegisterKind.name d.kind}"

end Descriptor

/-- A register of a target: its number within the kind that its descriptor names. -/
structure Hardware (κ : Type) where
  descriptor : Descriptor κ
  index : Nat
deriving DecidableEq

namespace Hardware

variable {κ : Type}

def kind (h : Hardware κ) : κ := h.descriptor.kind

/-- The text of a target register, as characters. It shows the kind and the number only. -/
def chars [RegisterKind κ] (h : Hardware κ) : List Char :=
  RegisterKind.nameChars h.kind ++ '#' :: Numeral.decimal h.index

def text [RegisterKind κ] (h : Hardware κ) : String := String.ofList h.chars

end Hardware

end RegisterAssignment
