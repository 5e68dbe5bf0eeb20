/-!
# Base sixteen

A number is written in base sixteen by `hexPadded`, with as many digits as are asked for, and a
digit is read by `hexValue?`, in letters of either case.
-/

namespace ActionItems.Text

/-- The digit for a number below sixteen. -/
def hexDigit (n : Nat) : Char := Nat.digitChar n

/-- `n` in base sixteen with `width` digits. -/
def hexPadded : Nat → Nat → List Char
  | 0, _ => []
  | width + 1, n => hexPadded width (n / 16) ++ [hexDigit (n % 16)]

/-- The value of a digit of base sixteen, given by its code point. -/
def hexValue? (n : Nat) : Option Nat :=
  if 0x30 ≤ n ∧ n ≤ 0x39 then some (n - 0x30)
  else if 0x61 ≤ n ∧ n ≤ 0x66 then some (n - 0x57)
  else if 0x41 ≤ n ∧ n ≤ 0x46 then some (n - 0x37)
  else none

end ActionItems.Text
