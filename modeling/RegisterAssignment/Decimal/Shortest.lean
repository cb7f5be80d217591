import RegisterAssignment.Decimal.Binary
import RegisterAssignment.Text.Numeral

/-!
The shortest decimal that reads back as a given binary number. The reals that round to the number
form an interval around it. Among the decimal grids of spacing `10 ^ j` the coarsest one with a
point in that interval is taken; of two points on it, the nearer one. All arithmetic is on whole
numbers: the interval is first scaled by a power of ten that makes its ends integral.
-/

namespace RegisterAssignment

/-- A decimal number: `coefficient * 10 ^ exponent`. -/
structure Decimal where
  coefficient : Nat
  exponent : Int
deriving DecidableEq

namespace Decimal

/-- The reals that round to `value`, in a unit in which the ends are whole. The ends themselves
belong to it if `closed` holds. -/
structure Rounding where
  lower : Nat
  value : Nat
  upper : Nat
  closed : Bool

namespace Rounding

/-- Whether a point rounds to the value. -/
def contains (r : Rounding) (x : Nat) : Bool :=
  if r.closed then r.lower ≤ x && x ≤ r.upper else r.lower < x && x < r.upper

/-- The point that stands for the value on the grid of spacing `10 ^ j`, as a multiple of that
spacing, if the grid has one that rounds to the value. Only the two neighbours of the value can
qualify. If both do, the nearer one is taken, and the upper one if they are equally near. -/
def pick? (r : Rounding) (j : Nat) : Option Nat :=
  let unit := Nat.pow 10 j
  let below := r.value / unit
  let beyond := r.value % unit
  match r.contains (below * unit), r.contains ((below + 1) * unit) with
  | true, true => if 2 * beyond < unit then some below else some (below + 1)
  | true, false => some below
  | false, true => some (below + 1)
  | false, false => none

/-- The coarsest grid of spacing at most `10 ^ j` with a point that rounds to the value, with
that point. The grid of spacing one always has the value itself. -/
def coarsest (r : Rounding) : Nat → Decimal
  | 0 => ⟨r.value, 0⟩
  | j + 1 =>
    match r.pick? (j + 1) with
    | some n => ⟨n, (j + 1 : Nat)⟩
    | none => r.coarsest j

/-- The shortest decimal in the interval. No grid coarser than the digits of the value has a
point in it, because such a grid has only zero and points beyond the upper end. -/
def shortest (r : Rounding) : Decimal :=
  r.coarsest (Numeral.decimal r.value).length

end Rounding

/-- The shortest decimal that reads back as `mantissa * 2 ^ exponent`. Quarters of the last
binary place make both ends whole: the upper end is two quarters away, and the lower one is two
quarters away, or one if the gap below is narrow. The ends round to an even mantissa. -/
def ofBinary (mantissa : Nat) (exponent : Int) (narrowBelow : Bool) : Decimal :=
  let quarter := exponent - 2
  let scale := if 0 ≤ quarter then Nat.pow 2 quarter.toNat else Nat.pow 5 (-quarter).toNat
  let rounding : Rounding := {
    lower := (4 * mantissa - if narrowBelow then 1 else 2) * scale
    value := 4 * mantissa * scale
    upper := (4 * mantissa + 2) * scale
    closed := mantissa % 2 == 0 }
  let found := rounding.shortest
  ⟨found.coefficient, found.exponent + min quarter 0⟩

/-- A decimal written without an exponent. All zeros up to the point are written out, and a whole
number has no point. -/
def positional (d : Decimal) : List Char :=
  let digits := Numeral.decimal d.coefficient
  if 0 ≤ d.exponent then
    digits ++ List.replicate d.exponent.toNat '0'
  else
    let places := (-d.exponent).toNat
    if places < digits.length then
      digits.take (digits.length - places) ++ '.' :: digits.drop (digits.length - places)
    else
      '0' :: '.' :: List.replicate (places - digits.length) '0' ++ digits

end Decimal

/-- The text of a floating-point number: its shortest decimal in positional form. A pattern that
is no number has no sign in its text, every other one shows its sign, zeros included. -/
def BinaryFormat.chars (format : BinaryFormat) (bits : Nat) : List Char :=
  let sign := if format.isNegative bits then ['-'] else []
  match format.magnitude bits with
  | .notANumber => ['N', 'a', 'N']
  | .infinite => sign ++ ['i', 'n', 'f']
  | .finite 0 _ _ => sign ++ ['0']
  | .finite (m + 1) exponent narrowBelow =>
    sign ++ (Decimal.ofBinary (m + 1) exponent narrowBelow).positional

end RegisterAssignment
