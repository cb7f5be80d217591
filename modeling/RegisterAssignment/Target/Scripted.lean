import RegisterAssignment.Target.Basic

/-!
A target whose refusals are laid down in advance. It serves to see how a client copes when a
request fails at a chosen point, or when chosen registers are not taken back.
-/

namespace RegisterAssignment

inductive ScriptedKind where
  | int
  | float
deriving DecidableEq

namespace ScriptedKind

instance : RegisterKind ScriptedKind where
  nameChars
    | int => ['I', 'n', 't']
    | float => ['F', 'l', 'o', 'a', 't']

def ofScalar (s : Scalar) : ScriptedKind := if s.isFloat then float else int

end ScriptedKind

/-- The state of a scripted target. Registers of both kinds share one numbering. The register
numbered `failAt` is never handed out, those in `refused` are not taken back, and a `lenient`
target describes every type. -/
structure Scripted where
  failAt : Option Nat
  refused : List Nat
  lenient : Bool
  next : Nat
  freed : List Nat
deriving DecidableEq

namespace Scripted

def new (failAt : Option Nat) (refused : List Nat) (lenient : Bool) : Scripted :=
  ⟨failAt, refused, lenient, 0, []⟩

/-- Scalars are represented by themselves, and all else that is described by a 64-bit integer.
Padding is described by a lenient target only. -/
def describe (t : Scripted) (ty : Ty) : Except Error (Descriptor ScriptedKind) :=
  match ty with
  | .scalar s => .ok (.ofScalar s (ScriptedKind.ofScalar s))
  | .pointer .. | .string => .ok ⟨ty, some .i64, .int⟩
  | .void | .struct _ | .padding _ | .view .. =>
    if t.lenient then .ok ⟨ty, some .i64, .int⟩
    else .error (.undescribable ty.text "not register-sized")

/-- Hands out the next number, unless the script says that there is none. -/
def take (wanted : Descriptor ScriptedKind) (t : Scripted) :
    Reply Scripted (Hardware ScriptedKind) :=
  if t.failAt = some t.next then
    ⟨.error (.exhausted (RegisterKind.name wanted.kind) t.next), t, []⟩
  else
    ⟨.ok ⟨wanted, t.next⟩, { t with next := t.next + 1 }, []⟩

/-- Notes a register that comes back, unless the script refuses it. -/
def giveBack (h : Hardware ScriptedKind) (t : Scripted) : Reply Scripted Unit :=
  if h.index ∈ t.refused then
    ⟨.error (.invalidFree h.text), t, []⟩
  else
    ⟨.ok (), { t with freed := t.freed ++ [h.index] }, []⟩

instance : Target Scripted ScriptedKind where
  describe := describe
  take := take
  giveBack := giveBack

end Scripted

end RegisterAssignment
