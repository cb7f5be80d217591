/-!
Numbers as text: decimal digits without padding, and hexadecimal digits of a fixed width.
-/

namespace RegisterAssignment.Numeral

/-- Decimal digits, most significant first. There is no leading zero, and zero itself is one
digit. -/
def decimal (n : Nat) : List Char :=
  Nat.toDigits 10 n

/-- The digits determine the number. -/
theorem decimal_injective {m n : Nat} (h : decimal m = decimal n) : m = n := by
  have hValue := congrArg (fun digits => Nat.ofDigitChars 10 digits 0) h
  simpa [decimal] using hValue

/-- Decimal digits of the absolute value, after a minus sign if the number is negative. -/
def signed : Int → List Char
  | .ofNat n => decimal n
  | .negSucc n => '-' :: decimal (n + 1)

/-- The lowest `width` hexadecimal digits in lower case, padded with zeros. Digits above that
width are dropped, so a caller chooses a width that holds the number. -/
def hex : (width : Nat) → (n : Nat) → List Char
  | 0, _ => []
  | width + 1, n => hex width (n / 16) ++ [Nat.digitChar (n % 16)]

end RegisterAssignment.Numeral
