/-!
# Floating-point numbers

A binary floating-point number of 64 bits, given exactly: a sign, a significand below `2 ^ 53` and
an exponent of two, or an infinity, or not a number. `Binary64.ofFraction` is the number nearest to
a fraction, a tie going to the even significand; all arithmetic is exact arithmetic followed by it.
-/

namespace ActionItems.Number

/-- A quotient rounded to the nearest integer, a tie going to the even one. -/
def roundDiv (num den : Nat) : Nat :=
  let q := num / den
  let r := num % den
  if 2 * r < den then q
  else if 2 * r > den then q + 1
  else if q % 2 = 0 then q else q + 1

/-- A floating-point number. -/
inductive Binary64 where
  | nan
  | infinite (negative : Bool)
  /-- The number `significand * 2 ^ exponent`, or its negative. -/
  | finite (negative : Bool) (significand : Nat) (exponent : Int)
deriving Repr, DecidableEq

namespace Binary64

/-- The exponent of the least numbers. -/
def leastExponent : Int := -1074

/-- The greatest exponent of a finite number. -/
def greatestExponent : Int := 971

/-- The least significand of all 53 bits; only the least exponent goes with a smaller one. -/
def leastNormal : Nat := 0x10000000000000

/-- Zero with a sign. -/
def zero (negative : Bool) : Binary64 := .finite negative 0 leastExponent

/-- The number `n` scaled by a power of two, as a fraction. -/
def scale (n : Nat) (e : Int) : Nat × Nat :=
  if 0 ≤ e then (n * Nat.pow 2 e.toNat, 1) else (n, Nat.pow 2 (-e).toNat)

/-- The greatest `e` such that `2 ^ e` is at most `num / den`, for positive `num` and `den`. -/
def binaryOrder (num den : Nat) : Int :=
  let e : Int := (num.log2 : Int) - den.log2
  let (lifted, unit) := scale den e
  if num * unit < lifted then e - 1 else e

/-- The number nearest to `num / den`. -/
def ofFraction (negative : Bool) (num den : Nat) : Binary64 :=
  if num = 0 then zero negative
  else
    let e := max leastExponent (binaryOrder num den - 52)
    let (up, down) := scale 1 (-e)
    let m := roundDiv (num * up) (den * down)
    let (m, e) := if m = 2 * leastNormal then (leastNormal, e + 1) else (m, e)
    if e > greatestExponent then .infinite negative else .finite negative m e

/-- The number nearest to an integer. -/
def ofInt (i : Int) : Binary64 := ofFraction (i < 0) i.natAbs 1

/-- The number nearest to `digits * 10 ^ exponent`. -/
def ofDecimal (negative : Bool) (digits : Nat) (exponent : Int) : Binary64 :=
  let size : Int := exponent + (digits.log2 * 30103 / 100000 + 1 : Nat)
  if digits = 0 then zero negative
  else if size > 400 then .infinite negative
  else if size < -400 then zero negative
  else if 0 ≤ exponent then ofFraction negative (digits * Nat.pow 10 exponent.toNat) 1
  else ofFraction negative digits (Nat.pow 10 (-exponent).toNat)

/-- The number with the other sign. -/
def neg : Binary64 → Binary64
  | .nan => .nan
  | .infinite n => .infinite !n
  | .finite n m e => .finite (!n) m e

/-- The sum. -/
def add : Binary64 → Binary64 → Binary64
  | .nan, _ => .nan
  | _, .nan => .nan
  | .infinite a, .infinite b => if a = b then .infinite a else .nan
  | .infinite a, .finite .. => .infinite a
  | .finite .., .infinite b => .infinite b
  | .finite n m e, .finite n' m' e' =>
    let least := min e e'
    let a : Int := (m * Nat.pow 2 (e - least).toNat : Nat)
    let b : Int := (m' * Nat.pow 2 (e' - least).toNat : Nat)
    let sum := (if n then -a else a) + (if n' then -b else b)
    if sum = 0 then zero (n && n')
    else
      let (num, den) := scale sum.natAbs least
      ofFraction (sum < 0) num den

/-- The product. -/
def mul : Binary64 → Binary64 → Binary64
  | .nan, _ => .nan
  | _, .nan => .nan
  | .infinite a, .infinite b => .infinite (a != b)
  | .infinite a, .finite n m _ => if m = 0 then .nan else .infinite (a != n)
  | .finite n m _, .infinite b => if m = 0 then .nan else .infinite (n != b)
  | .finite n m e, .finite n' m' e' =>
    let (num, den) := scale (m * m') (e + e')
    ofFraction (n != n') num den

/-- Whether a number is zero. -/
def isZero : Binary64 → Bool
  | .finite _ m _ => m = 0
  | _ => false

/-- The order of a number and an integer; not a number has none. -/
def compareInt? (x : Binary64) (i : Int) : Option Ordering :=
  match x with
  | .nan => none
  | .infinite negative => some (if negative then .lt else .gt)
  | .finite n m e =>
    let (num, den) := scale m e
    some (compare (if n then -(num : Int) else num) (i * den))

/-- Whether a number equals an integer exactly. -/
def eqInt (x : Binary64) (i : Int) : Bool := x.compareInt? i = some .eq

/-- Whether two numbers are equal: the zeros are, not a number equals nothing. -/
def eq : Binary64 → Binary64 → Bool
  | .nan, _ => false
  | _, .nan => false
  | .infinite a, .infinite b => a = b
  | .finite n m e, .finite n' m' e' => (m = 0 && m' = 0) || (n = n' && m = m' && e = e')
  | _, _ => false

/-- The integer that a finite number equals, if it equals one. -/
def toInt? (x : Binary64) : Option Int :=
  match x with
  | .finite n m e =>
    let (num, den) := scale m e
    if num % den = 0 then
      let q : Int := (num / den : Nat)
      some (if n then -q else q)
    else none
  | _ => none

end Binary64

end ActionItems.Number
