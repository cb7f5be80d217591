import RegisterAssignment.Decimal.Shortest
import RegisterAssignment.Type.Scalar

/-!
Literals: scalar values known while code is generated. Floating-point literals are kept as bit
patterns, so that no pattern is lost.
-/

namespace RegisterAssignment

inductive Literal where
  | i1 (b : Bool)
  | i8 (v : Int8)
  | i16 (v : Int16)
  | i32 (v : Int32)
  | i64 (v : Int64)
  | f16 (bits : UInt16)
  | f32 (bits : UInt32)
  | f64 (bits : UInt64)
deriving DecidableEq

namespace Literal

def scalar : Literal → Scalar
  | i1 _ => .i1
  | i8 _ => .i8
  | i16 _ => .i16
  | i32 _ => .i32
  | i64 _ => .i64
  | f16 _ => .f16
  | f32 _ => .f32
  | f64 _ => .f64

/-- The bit pattern of a literal as a number below two to the width of its type. -/
def bits : Literal → Nat
  | i1 b => b.toNat
  | i8 v => v.toUInt8.toNat
  | i16 v => v.toUInt16.toNat
  | i32 v => v.toUInt32.toNat
  | i64 v => v.toUInt64.toNat
  | f16 b => b.toNat
  | f32 b => b.toNat
  | f64 b => b.toNat

/-- The text of a literal, as characters. Integers are decimal, half-width floating-point numbers
show their pattern, and the wider ones their shortest decimal; all but truth values end in the
name of their type. -/
def chars : Literal → List Char
  | i1 true => ['t', 'r', 'u', 'e']
  | i1 false => ['f', 'a', 'l', 's', 'e']
  | i8 v => Numeral.signed v.toInt ++ Scalar.i8.chars
  | i16 v => Numeral.signed v.toInt ++ Scalar.i16.chars
  | i32 v => Numeral.signed v.toInt ++ Scalar.i32.chars
  | i64 v => Numeral.signed v.toInt ++ Scalar.i64.chars
  | f16 b => '0' :: 'x' :: Numeral.hex 4 b.toNat ++ Scalar.f16.chars
  | f32 b => BinaryFormat.single.chars b.toNat ++ Scalar.f32.chars
  | f64 b => BinaryFormat.double.chars b.toNat ++ Scalar.f64.chars

def text (literal : Literal) : String := String.ofList literal.chars

/-- Whether two literals are of one type and equal as numbers. The wider floating-point numbers
follow the usual rules, by which a pattern that is no number differs from itself and the two
zeros are equal; half-width ones are compared by pattern. -/
def alike : Literal → Literal → Bool
  | f32 a, f32 b => BinaryFormat.single.sameNumber a.toNat b.toNat
  | f64 a, f64 b => BinaryFormat.double.sameNumber a.toNat b.toNat
  | a, b => a == b

end Literal

end RegisterAssignment
