import RegisterAssignment.Literal
import RegisterAssignment.Register.Descriptor

/-!
Registers: constants, target registers, and groups of registers for structures. Registers are
shared, and two registers with the same contents can still be different ones, so every register
carries its origin. Equality of registers is identity; `Register.alike` compares contents.
-/

namespace RegisterAssignment

/-- Where a register came from: the `n`-th one made by the allocator, or the `n`-th one made by
its client. A client that never reuses a number can tell its registers apart. -/
inductive Origin where
  | allocated (n : Nat)
  | supplied (n : Nat)
deriving DecidableEq, Hashable

/-- A register. A constant occupies nothing on the target. A compound stands for a structure and
has one child for each field, in field order. -/
inductive Register (κ : Type) where
  | constant (origin : Origin) (descriptor : Descriptor κ) (literal : Literal)
  | hardware (origin : Origin) (held : Hardware κ)
  | compound (origin : Origin) (fields : List Ty) (children : List (Register κ))

inductive Variant where
  | constant
  | hardware
  | compound
deriving DecidableEq

def Variant.text : Variant → String
  | constant => "constant"
  | hardware => "hardware"
  | compound => "compound"

namespace Register

variable {κ : Type}

section Equality

variable [DecidableEq κ]

mutual

def beq : Register κ → Register κ → Bool
  | .constant o d l, .constant o' d' l' => o == o' && d == d' && l == l'
  | .hardware o h, .hardware o' h' => o == o' && h == h'
  | .compound o fields children, .compound o' fields' children' =>
    o == o' && fields == fields' && beqList children children'
  | _, _ => false

def beqList : List (Register κ) → List (Register κ) → Bool
  | [], [] => true
  | r :: rs, s :: ss => beq r s && beqList rs ss
  | _, _ => false

end

mutual

/-- The comparison accepts equal registers only. -/
theorem eq_of_beq : ∀ {a b : Register κ}, beq a b = true → a = b
  | .constant .., b, h => by cases b <;> simp_all [beq]
  | .hardware .., b, h => by cases b <;> simp_all [beq]
  | .compound _ _ children, b, h => by
    cases b <;> simp [beq] at h ⊢
    exact ⟨h.1.1, h.1.2, eq_of_beqList h.2⟩

theorem eq_of_beqList : ∀ {a b : List (Register κ)}, beqList a b = true → a = b
  | [], b, h => by cases b <;> simp [beqList] at h ⊢
  | r :: rs, b, h => by
    cases b <;> simp [beqList] at h ⊢
    exact ⟨eq_of_beq h.1, eq_of_beqList h.2⟩

end

mutual

theorem beq_self : ∀ a : Register κ, beq a a = true
  | .constant .. | .hardware .. => by simp [beq]
  | .compound _ _ children => by simp [beq, beqList_self children]

theorem beqList_self : ∀ a : List (Register κ), beqList a a = true
  | [] => by simp [beqList]
  | r :: rs => by simp [beqList, beq_self r, beqList_self rs]

end

/-- The comparison decides equality, of origins too. -/
theorem beq_eq_true_iff {a b : Register κ} : beq a b = true ↔ a = b :=
  ⟨eq_of_beq, fun h => h ▸ beq_self a⟩

instance : DecidableEq (Register κ) := fun a b =>
  decidable_of_iff (beq a b = true) beq_eq_true_iff

mutual

/-- Whether two registers have the same contents, whatever their origins. Literals are compared
as numbers, so a constant that is no number is not even alike to itself. -/
def alike : Register κ → Register κ → Bool
  | .constant _ d l, .constant _ d' l' => d == d' && l.alike l'
  | .hardware _ h, .hardware _ h' => h == h'
  | .compound _ fields children, .compound _ fields' children' =>
    fields == fields' && alikeList children children'
  | _, _ => false

def alikeList : List (Register κ) → List (Register κ) → Bool
  | [], [] => true
  | r :: rs, s :: ss => alike r s && alikeList rs ss
  | _, _ => false

end

end Equality

def origin : Register κ → Origin
  | .constant o .. | .hardware o .. | .compound o .. => o

def variant : Register κ → Variant
  | .constant .. => .constant
  | .hardware .. => .hardware
  | .compound .. => .compound

/-- The declared type of what a register holds. -/
def ty : Register κ → Ty
  | .constant _ d _ => d.ty
  | .hardware _ h => h.descriptor.ty
  | .compound _ fields _ => .struct fields

/-- The descriptor of a register, which a compound does not have. -/
def descriptor? : Register κ → Option (Descriptor κ)
  | .constant _ d _ => some d
  | .hardware _ h => some h.descriptor
  | .compound .. => none

/-- The basic type that represents what a register holds; a compound has none. -/
def basicType : Register κ → BasicType
  | .constant _ d _ => d.basic
  | .hardware _ h => h.descriptor.basic
  | .compound .. => none

def children : Register κ → List (Register κ)
  | .compound _ _ children => children
  | _ => []

/-- A compound for a structure. It is refused unless there is exactly one child for each field. -/
def group (origin : Origin) (fields : List Ty) (children : List (Register κ)) :
    Except Error (Register κ) :=
  if children.length = fields.length then
    .ok (.compound origin fields children)
  else
    let needed := String.ofList (Numeral.decimal fields.length)
    let given := String.ofList (Numeral.decimal children.length)
    .error (.codegen
      s!"compound register for {(Ty.struct fields).text} needs {needed} children, got {given}")

mutual

/-- The target registers in a register, depth first and in field order. A register that occurs
twice is listed twice. -/
def leaves : Register κ → List (Hardware κ)
  | .constant .. => []
  | .hardware _ h => [h]
  | .compound _ _ children => leavesList children

def leavesList : List (Register κ) → List (Hardware κ)
  | [] => []
  | r :: rs => leaves r ++ leavesList rs

end

mutual

/-- A register and everything in it, with the depth of each, a compound before its children. -/
def nodes (depth : Nat) : Register κ → List (Nat × Register κ)
  | .constant o d l => [(depth, .constant o d l)]
  | .hardware o h => [(depth, .hardware o h)]
  | .compound o fields children =>
    (depth, .compound o fields children) :: nodesList (depth + 1) children

def nodesList (depth : Nat) : List (Register κ) → List (Nat × Register κ)
  | [] => []
  | r :: rs => nodes depth r ++ nodesList depth rs

end

section Text

variable [RegisterKind κ]

mutual

def chars : Register κ → List Char
  | .constant _ _ literal => ['c', 'o', 'n', 's', 't', ' '] ++ literal.chars
  | .hardware _ h => h.chars
  | .compound _ _ [] => ['(', ')']
  | .compound _ _ (child :: rest) => '(' :: chars child ++ moreChildren rest ++ [')']

/-- The children of a compound after the first, each behind a comma and a blank. -/
def moreChildren : List (Register κ) → List Char
  | [] => []
  | child :: rest => ',' :: ' ' :: chars child ++ moreChildren rest

end

def text (r : Register κ) : String := String.ofList r.chars

end Text

end Register

end RegisterAssignment
