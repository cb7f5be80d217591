import RegisterAssignment.Error
import RegisterAssignment.Type.Scalar

/-!
The types of values, their texts, and the classes of types that can live in registers. The text
of a type determines the type: every construct opens and closes with marks of its own.
-/

namespace RegisterAssignment

/-- The memory that a pointer points into. -/
inductive AddressSpace where
  | generic
  | global
  | shared
  | threadLocal
deriving DecidableEq

namespace AddressSpace

instance : Inhabited AddressSpace := ⟨generic⟩

def chars : AddressSpace → List Char
  | generic => ['g', 'e', 'n', 'e', 'r', 'i', 'c']
  | global => ['g', 'l', 'o', 'b', 'a', 'l']
  | shared => ['s', 'h', 'a', 'r', 'e', 'd']
  | threadLocal => ['l', 'o', 'c', 'a', 'l']

def text (space : AddressSpace) : String := String.ofList space.chars

end AddressSpace

/-- The type of a value. A view is a pointer together with a length; it has to be replaced by a
structure before its values can be placed. Padding fills a gap of a structure. -/
inductive Ty where
  | void
  | scalar (s : Scalar)
  | pointer (element : Ty) (space : AddressSpace)
  | string
  | struct (fields : List Ty)
  | padding (s : Scalar)
  | view (element : Ty) (space : AddressSpace)

namespace Ty

instance : Inhabited Ty := ⟨void⟩

mutual

def beq : Ty → Ty → Bool
  | .void, .void => true
  | .scalar s, .scalar t => s == t
  | .pointer e space, .pointer f space' => beq e f && space == space'
  | .string, .string => true
  | .struct fields, .struct fields' => beqList fields fields'
  | .padding s, .padding t => s == t
  | .view e space, .view f space' => beq e f && space == space'
  | _, _ => false

def beqList : List Ty → List Ty → Bool
  | [], [] => true
  | t :: ts, u :: us => beq t u && beqList ts us
  | _, _ => false

end

mutual

/-- The comparison accepts equal types only. -/
theorem eq_of_beq : ∀ {a b : Ty}, beq a b = true → a = b
  | .void, b, h => by cases b <;> simp [beq] at h ⊢
  | .scalar _, b, h => by cases b <;> simp_all [beq]
  | .pointer e _, b, h => by
    cases b <;> simp [beq] at h ⊢
    exact ⟨eq_of_beq h.1, h.2⟩
  | .string, b, h => by cases b <;> simp [beq] at h ⊢
  | .struct fields, b, h => by
    cases b <;> simp [beq] at h ⊢
    exact eq_of_beqList h
  | .padding _, b, h => by cases b <;> simp_all [beq]
  | .view e _, b, h => by
    cases b <;> simp [beq] at h ⊢
    exact ⟨eq_of_beq h.1, h.2⟩

theorem eq_of_beqList : ∀ {a b : List Ty}, beqList a b = true → a = b
  | [], b, h => by cases b <;> simp [beqList] at h ⊢
  | t :: ts, b, h => by
    cases b <;> simp [beqList] at h ⊢
    exact ⟨eq_of_beq h.1, eq_of_beqList h.2⟩

end

mutual

theorem beq_self : ∀ a : Ty, beq a a = true
  | .void | .string => by simp [beq]
  | .scalar _ | .padding _ => by simp [beq]
  | .pointer e _ | .view e _ => by simp [beq, beq_self e]
  | .struct fields => by simp [beq, beqList_self fields]

theorem beqList_self : ∀ a : List Ty, beqList a a = true
  | [] => by simp [beqList]
  | t :: ts => by simp [beqList, beq_self t, beqList_self ts]

end

/-- The comparison decides equality. -/
theorem beq_eq_true_iff {a b : Ty} : beq a b = true ↔ a = b :=
  ⟨eq_of_beq, fun h => h ▸ beq_self a⟩

instance : DecidableEq Ty := fun a b =>
  decidable_of_iff (beq a b = true) beq_eq_true_iff

mutual

def chars : Ty → List Char
  | .void => ['v', 'o', 'i', 'd']
  | .scalar s => s.chars
  | .pointer element space =>
    ['p', 't', 'r', '<'] ++ chars element ++ [',', ' '] ++ space.chars ++ ['>']
  | .string => ['s', 't', 'r', 'i', 'n', 'g']
  | .struct [] => ['\x7b', '\x7d']
  | .struct (field :: rest) => '\x7b' :: chars field ++ moreFields rest ++ ['\x7d']
  | .padding s => ['p', 'a', 'd', '<'] ++ s.chars ++ ['>']
  | .view element space =>
    ['v', 'i', 'e', 'w', '<'] ++ chars element ++ [',', ' '] ++ space.chars ++ ['>']

/-- The fields of a structure after the first, each behind a comma and a blank. -/
def moreFields : List Ty → List Char
  | [] => []
  | field :: rest => ',' :: ' ' :: chars field ++ moreFields rest

end

def text (ty : Ty) : String := String.ofList ty.chars

def asScalar? : Ty → Option Scalar
  | .scalar s | .padding s => some s
  | _ => none

/-- The type's own basic type. A pointer has none of its own: its representation is chosen by the
target. -/
def basicType (ty : Ty) : BasicType := ty.asScalar?

def isStruct : Ty → Bool
  | .struct _ => true
  | _ => false

/-- How a type occupies registers: one register for all but structures, which take one for each
of their leaves. -/
inductive RegisterClass where
  | scalar (s : Scalar)
  | pointer (element : Ty) (space : AddressSpace)
  | string
  | struct (fields : List Ty)
  | padding (s : Scalar)

def unsupported (ty : Ty) : Error := .unsupportedType ty.text

/-- The class of a type. The empty type and views have none. -/
def registerClass : Ty → Except Error RegisterClass
  | .scalar s => .ok (.scalar s)
  | .pointer element space => .ok (.pointer element space)
  | .string => .ok .string
  | .struct fields => .ok (.struct fields)
  | .padding s => .ok (.padding s)
  | .void => .error (unsupported .void)
  | .view element space => .error (unsupported (.view element space))

end Ty

end RegisterAssignment
