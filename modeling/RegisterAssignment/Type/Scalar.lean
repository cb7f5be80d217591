/-!
Scalar types: the values that fit one register. A basic type is a scalar, or absent for types
that have no scalar of their own.
-/

namespace RegisterAssignment

/-- A scalar type: integers of five widths, the first of which is a truth value, and
floating-point numbers of three widths. -/
inductive Scalar where
  | i1
  | i8
  | i16
  | i32
  | i64
  | f16
  | f32
  | f64
deriving DecidableEq

namespace Scalar

def all : List Scalar := [i1, i8, i16, i32, i64, f16, f32, f64]

/-- The position of a scalar in the order of scalars: integers by width, then floating-point
numbers by width. -/
def rank : Scalar → Nat
  | i1 => 0
  | i8 => 1
  | i16 => 2
  | i32 => 3
  | i64 => 4
  | f16 => 5
  | f32 => 6
  | f64 => 7

def chars : Scalar → List Char
  | i1 => ['i', '1']
  | i8 => ['i', '8']
  | i16 => ['i', '1', '6']
  | i32 => ['i', '3', '2']
  | i64 => ['i', '6', '4']
  | f16 => ['f', '1', '6']
  | f32 => ['f', '3', '2']
  | f64 => ['f', '6', '4']

def text (s : Scalar) : String := String.ofList s.chars

/-- The scalar with a given name. Only the exact name is accepted. -/
def ofText? (name : String) : Option Scalar :=
  all.find? fun s => s.text == name

/-- Size in bytes. A truth value occupies a whole byte. -/
def size : Scalar → Nat
  | i1 | i8 => 1
  | i16 | f16 => 2
  | i32 | f32 => 4
  | i64 | f64 => 8

/-- Whether a scalar is a floating-point type. All others are integers. -/
def isFloat : Scalar → Bool
  | f16 | f32 | f64 => true
  | _ => false

end Scalar

/-- The basic type of a value: a scalar, or none for values that are not scalar. -/
abbrev BasicType := Option Scalar

namespace BasicType

/-- The position in the order of basic types, in which the absent one comes first. -/
def rank : BasicType → Nat
  | none => 0
  | some s => s.rank + 1

def chars : BasicType → List Char
  | none => ['n', 'o', 'n', 'e']
  | some s => s.chars

def text (b : BasicType) : String := String.ofList (BasicType.chars b)

def size : BasicType → Nat
  | none => 0
  | some s => s.size

def isFloat : BasicType → Bool
  | none => false
  | some s => s.isFloat

/-- Whether this is an integer type. The absent basic type is neither integer nor float. -/
def isInt : BasicType → Bool
  | none => false
  | some s => !s.isFloat

end BasicType

end RegisterAssignment
