/-!
Binary floating-point numbers as bit patterns. A pattern is read as a sign and a magnitude, and
a finite magnitude is a whole number times a power of two. Everything here is exact.
-/

namespace RegisterAssignment

/-- The field widths of a binary interchange format: one sign bit, then the exponent, then the
fraction. -/
structure BinaryFormat where
  exponentBits : Nat
  fractionBits : Nat

/-- The absolute value of a floating-point number. A finite one is
`mantissa * 2 ^ exponent`. It is `narrowBelow` if the next smaller number of the format is only
half as far away as the next larger one, which happens at powers of two. -/
inductive Magnitude where
  | notANumber
  | infinite
  | finite (mantissa : Nat) (exponent : Int) (narrowBelow : Bool)
deriving DecidableEq

namespace BinaryFormat

def single : BinaryFormat := ⟨8, 23⟩

def double : BinaryFormat := ⟨11, 52⟩

def fraction (format : BinaryFormat) (bits : Nat) : Nat :=
  bits % Nat.pow 2 format.fractionBits

/-- The stored exponent of a bit pattern, without its bias removed. -/
def storedExponent (format : BinaryFormat) (bits : Nat) : Nat :=
  bits / Nat.pow 2 format.fractionBits % Nat.pow 2 format.exponentBits

/-- Whether the sign bit is set. This is defined for every pattern, also for those that are no
number. -/
def isNegative (format : BinaryFormat) (bits : Nat) : Bool :=
  bits / Nat.pow 2 (format.fractionBits + format.exponentBits) % 2 == 1

/-- The power of two that belongs to the last fraction bit of a number whose stored exponent is
zero or one. -/
def lowestExponent (format : BinaryFormat) : Int :=
  2 - Nat.pow 2 (format.exponentBits - 1) - format.fractionBits

/-- The magnitude of a bit pattern. The largest stored exponent marks the infinities and the
patterns that are no number; the smallest one marks numbers without the implicit leading bit. -/
def magnitude (format : BinaryFormat) (bits : Nat) : Magnitude :=
  let fraction := format.fraction bits
  let stored := format.storedExponent bits
  if stored = Nat.pow 2 format.exponentBits - 1 then
    if fraction = 0 then .infinite else .notANumber
  else if stored = 0 then
    .finite fraction format.lowestExponent false
  else
    .finite (fraction + Nat.pow 2 format.fractionBits) (format.lowestExponent + (stored - 1))
      (fraction == 0 && 1 < stored)

/-- Equality of the numbers behind two patterns: no pattern that is no number equals anything,
and the two zeros are equal. -/
def sameNumber (format : BinaryFormat) (a b : Nat) : Bool :=
  match format.magnitude a, format.magnitude b with
  | .notANumber, _ => false
  | _, .notANumber => false
  | .finite 0 _ _, .finite 0 _ _ => true
  | _, _ => a == b

end BinaryFormat

end RegisterAssignment
