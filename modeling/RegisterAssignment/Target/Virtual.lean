import RegisterAssignment.Target.Basic

/-!
Virtual registers: an unlimited supply, numbered upwards within each kind. A register that comes
back is counted and never handed out again.
-/

namespace RegisterAssignment

/-- The kinds of virtual registers, each with a numbering of its own. Bytes share the registers
of 16-bit integers. -/
inductive VirtualKind where
  | predicate
  | int16
  | int32
  | int64
  | float16
  | float32
  | float64
deriving DecidableEq

namespace VirtualKind

def all : List VirtualKind := [predicate, int16, int32, int64, float16, float32, float64]

def rank : VirtualKind → Nat
  | predicate => 0
  | int16 => 1
  | int32 => 2
  | int64 => 3
  | float16 => 4
  | float32 => 5
  | float64 => 6

instance : RegisterKind VirtualKind where
  nameChars
    | predicate => ['P', 'r', 'e', 'd', 'i', 'c', 'a', 't', 'e']
    | int16 => ['I', 'n', 't', '1', '6']
    | int32 => ['I', 'n', 't', '3', '2']
    | int64 => ['I', 'n', 't', '6', '4']
    | float16 => ['F', 'l', 'o', 'a', 't', '1', '6']
    | float32 => ['F', 'l', 'o', 'a', 't', '3', '2']
    | float64 => ['F', 'l', 'o', 'a', 't', '6', '4']

def ofScalar : Scalar → VirtualKind
  | .i1 => predicate
  | .i8 | .i16 => int16
  | .i32 => int32
  | .i64 => int64
  | .f16 => float16
  | .f32 => float32
  | .f64 => float64

/-- The kind that holds a basic type, if there is one to hold. -/
def ofBasicType? (basic : BasicType) : Option VirtualKind := basic.map ofScalar

end VirtualKind

/-- How many registers of each kind were handed out. The numbers are machine words and start over
after the largest one. -/
structure VirtualCounters where
  predicate : UInt32
  int16 : UInt32
  int32 : UInt32
  int64 : UInt32
  float16 : UInt32
  float32 : UInt32
  float64 : UInt32
deriving DecidableEq

namespace VirtualCounters

def zero : VirtualCounters := ⟨0, 0, 0, 0, 0, 0, 0⟩

def get (c : VirtualCounters) : VirtualKind → UInt32
  | .predicate => c.predicate
  | .int16 => c.int16
  | .int32 => c.int32
  | .int64 => c.int64
  | .float16 => c.float16
  | .float32 => c.float32
  | .float64 => c.float64

def bump (c : VirtualCounters) : VirtualKind → VirtualCounters
  | .predicate => { c with predicate := c.predicate + 1 }
  | .int16 => { c with int16 := c.int16 + 1 }
  | .int32 => { c with int32 := c.int32 + 1 }
  | .int64 => { c with int64 := c.int64 + 1 }
  | .float16 => { c with float16 := c.float16 + 1 }
  | .float32 => { c with float32 := c.float32 + 1 }
  | .float64 => { c with float64 := c.float64 + 1 }

@[simp] theorem get_zero (kind : VirtualKind) : zero.get kind = 0 := by
  cases kind <;> rfl

/-- Counting one kind leaves the counts of all others alone. -/
@[simp] theorem get_bump (c : VirtualCounters) (kind other : VirtualKind) :
    (c.bump kind).get other = if other = kind then c.get other + 1 else c.get other := by
  cases kind <;> cases other <;> rfl

end VirtualCounters

/-- The state of the virtual target: what it handed out, and how many registers came back. -/
structure Virtual where
  pointerWidth : PointerWidth
  counters : VirtualCounters
  freed : Nat
deriving DecidableEq

namespace Virtual

def new (width : PointerWidth) : Virtual := ⟨width, .zero, 0⟩

instance : Inhabited Virtual := ⟨new default⟩

def allocated (t : Virtual) (kind : VirtualKind) : Nat := (t.counters.get kind).toNat

/-- The descriptor of a type: the representation that the pointer width gives, in the kind that
holds it. -/
def describe (t : Virtual) (ty : Ty) : Except Error (Descriptor VirtualKind) :=
  match t.pointerWidth.represent? ty with
  | some s => .ok ⟨ty, some s, VirtualKind.ofScalar s⟩
  | none => .error ty.notRegisterSized

/-- Hands out the next register of the kind that is asked for. This never fails. -/
def take (wanted : Descriptor VirtualKind) (t : Virtual) : Reply Virtual (Hardware VirtualKind) where
  result := .ok ⟨wanted, t.allocated wanted.kind⟩
  state := { t with counters := t.counters.bump wanted.kind }
  log := []

/-- Counts a register that comes back, whichever it is. -/
def giveBack (_ : Hardware VirtualKind) (t : Virtual) : Reply Virtual Unit where
  result := .ok ()
  state := { t with freed := t.freed + 1 }
  log := []

instance : Target Virtual VirtualKind where
  describe := describe
  take := take
  giveBack := giveBack

end Virtual

end RegisterAssignment
