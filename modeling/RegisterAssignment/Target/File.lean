import RegisterAssignment.Target.Basic
import RegisterAssignment.Target.Pool

/-!
A register file: a fixed number of general registers and of floating-point registers. Registers
that come back are handed out again, and a request fails when its kind has none left.
-/

namespace RegisterAssignment

inductive FileKind where
  | general
  | float
deriving DecidableEq

namespace FileKind

def rank : FileKind → Nat
  | general => 0
  | float => 1

instance : RegisterKind FileKind where
  nameChars
    | general => ['G', 'e', 'n', 'e', 'r', 'a', 'l']
    | float => ['F', 'l', 'o', 'a', 't']

def word : FileKind → String
  | general => "general"
  | float => "float"

def ofScalar (s : Scalar) : FileKind := if s.isFloat then float else general

end FileKind

structure FileConfig where
  general : Nat
  float : Nat
  pointerWidth : PointerWidth
deriving DecidableEq

instance : Inhabited FileConfig := ⟨16, 16, default⟩

/-- The state of a register file: a pool for each kind. -/
structure File where
  pointerWidth : PointerWidth
  general : Pool
  float : Pool
deriving DecidableEq

namespace File

def new (config : FileConfig) : File :=
  ⟨config.pointerWidth, .full config.general, .full config.float⟩

instance : Inhabited File := ⟨new default⟩

def pool (t : File) : FileKind → Pool
  | .general => t.general
  | .float => t.float

def setPool (t : File) (kind : FileKind) (p : Pool) : File :=
  match kind with
  | .general => { t with general := p }
  | .float => { t with float := p }

/-- Replacing the pool of one kind leaves the other alone. -/
@[simp] theorem pool_setPool (t : File) (kind other : FileKind) (p : Pool) :
    (t.setPool kind p).pool other = if other = kind then p else t.pool other := by
  cases kind <;> cases other <;> rfl

/-- The descriptor of a type: the representation that the pointer width gives, in the kind that
holds it. -/
def describe (t : File) (ty : Ty) : Except Error (Descriptor FileKind) :=
  match t.pointerWidth.represent? ty with
  | some s => .ok ⟨ty, some s, FileKind.ofScalar s⟩
  | none => .error ty.notRegisterSized

/-- The line that the file logs when a kind has no free register. -/
def exhaustionLine (t : File) (kind : FileKind) : LogLine :=
  let count := String.ofList (Numeral.decimal (t.pool kind).capacity)
  ⟨.warn, s!"{kind.word} register file exhausted ({count} registers)"⟩

/-- Hands out the lowest free register of the kind that is asked for. -/
def take (wanted : Descriptor FileKind) (t : File) : Reply File (Hardware FileKind) :=
  match (t.pool wanted.kind).take? with
  | some (i, rest) => ⟨.ok ⟨wanted, i⟩, t.setPool wanted.kind rest, []⟩
  | none =>
    ⟨.error (.exhausted wanted.kind.word (t.pool wanted.kind).capacity), t,
      [t.exhaustionLine wanted.kind]⟩

/-- Takes a register back, if it is in use. -/
def giveBack (h : Hardware FileKind) (t : File) : Reply File Unit :=
  match (t.pool h.kind).giveBack? h.index with
  | some p => ⟨.ok (), t.setPool h.kind p, []⟩
  | none => ⟨.error (.invalidFree h.text), t, []⟩

instance : Target File FileKind where
  describe := describe
  take := take
  giveBack := giveBack

end File

end RegisterAssignment
