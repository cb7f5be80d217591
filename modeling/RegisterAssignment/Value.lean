import RegisterAssignment.Text.Numeral
import RegisterAssignment.Type.Basic

/-!
Values: the results of instructions, identified by a number and carrying a type.
-/

namespace RegisterAssignment

abbrev ValueId := Nat

namespace ValueId

def chars (id : ValueId) : List Char := '%' :: Numeral.decimal id

def text (id : ValueId) : String := String.ofList (ValueId.chars id)

/-- An identity can be read off its text. -/
theorem text_injective {id id' : ValueId} (h : text id = text id') : id = id' := by
  have hChars : ValueId.chars id = ValueId.chars id' := String.ofList_injective h
  exact Numeral.decimal_injective (List.cons.inj hChars).2

end ValueId

/-- A value. Its identity alone decides which value it is; the type says what it needs. -/
structure Value where
  id : ValueId
  ty : Ty
deriving DecidableEq

namespace Value

/-- Whether two values are the same one. Types are not compared. -/
def same (v w : Value) : Bool := v.id == w.id

def chars (v : Value) : List Char := ValueId.chars v.id ++ ':' :: ' ' :: v.ty.chars

def text (v : Value) : String := String.ofList v.chars

end Value

end RegisterAssignment
