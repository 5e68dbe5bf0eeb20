import ActionItems.Number.Binary64

/-!
# The shortest decimal of a floating-point number

The decimals that are read as a given floating-point number are those in the interval halfway to its
two neighbours, its ends included if the significand is even. `shortest?` searches one, two, …
seventeen digits: the first grid on which a neighbour of the number lies in the interval gives the
digits, of two candidates the nearer.
-/

namespace ActionItems.Number

/-- The decimal `digits * 10 ^ exponent`. -/
structure Decimal where
  digits : Nat
  exponent : Int
deriving Repr, DecidableEq

namespace Decimal

/-- `n` scaled by a power of ten, as a fraction. -/
def scale (n : Nat) (e : Int) : Nat × Nat :=
  if 0 ≤ e then (n * Nat.pow 10 e.toNat, 1) else (n, Nat.pow 10 (-e).toNat)

/-- The order of two fractions. -/
def compareFractions (a b : Nat × Nat) : Ordering := compare (a.1 * b.2) (b.1 * a.2)

/-- Whether a decimal lies among the numbers that are read as `m * 2 ^ e`. -/
def readsAs (d : Decimal) (m : Nat) (e : Int) : Bool :=
  let narrow := m = Binary64.leastNormal && e > Binary64.leastExponent
  let low := Binary64.scale (if narrow then 4 * m - 1 else 4 * m - 2) (e - 2)
  let high := Binary64.scale (4 * m + 2) (e - 2)
  let value := scale d.digits d.exponent
  let closed := m % 2 = 0
  let above := compareFractions value low
  let below := compareFractions value high
  (above == .gt || (closed && above == .eq)) && (below == .lt || (closed && below == .eq))

/-- The least `k`, at most `fuel` above `start`, such that `value` is less than `10 ^ k`. -/
def orderFrom (value : Nat × Nat) : Nat → Int → Int
  | 0, k => k
  | fuel + 1, k =>
    if compareFractions value (scale 1 k) == .lt then k else orderFrom value fuel (k + 1)

/-- The least `k` such that `value`, between `2 ^ order` and its double, is less than `10 ^ k`. -/
def decimalOrder (value : Nat × Nat) (order : Int) : Int :=
  orderFrom value 4 (order * 30103 / 100000 - 1)

/-- The neighbour of `value` on the grid of `10 ^ k` that is read as `m * 2 ^ e`, the nearer of the
two if both are. -/
def onGrid? (m : Nat) (e : Int) (value : Nat × Nat) (k : Int) : Option Decimal :=
  let (up, down) := scale 1 (-k)
  let num := value.1 * up
  let den := value.2 * down
  let q := num / den
  let low : Decimal := ⟨q, k⟩
  let high : Decimal := ⟨q + 1, k⟩
  match low.readsAs m e && q != 0, high.readsAs m e with
  | true, true =>
    some (if 2 * (num % den) < den || (2 * (num % den) = den && q % 2 = 0) then low else high)
  | true, false => some low
  | false, true => some high
  | false, false => none

/-- A decimal without the zeros at its end, at most `fuel` of them. -/
def dropZeros : Nat → Decimal → Decimal
  | 0, d => d
  | fuel + 1, d =>
    if d.digits % 10 = 0 && d.digits != 0 then dropZeros fuel ⟨d.digits / 10, d.exponent + 1⟩ else d

/-- The decimal with the fewest digits that is read as `m * 2 ^ e`. -/
def shortest (m : Nat) (e : Int) : Decimal :=
  let value := Binary64.scale m e
  let top := decimalOrder value ((m.log2 : Int) + e)
  match (List.range 17).findSome? fun (n : Nat) => onGrid? m e value (top - n - 1) with
  | some d => dropZeros 20 d
  | none => ⟨m, 0⟩

/-- The digits of a decimal and the exponent of its first digit. -/
def leading (d : Decimal) : List Char × Int :=
  let digits := (toString d.digits).toList
  (digits, d.exponent + digits.length - 1)

end Decimal

namespace Binary64

/-- An exponent with a sign and two digits at least. -/
def showExponent (e : Int) : List Char :=
  let digits := (toString e.natAbs).toList
  let padded := if digits.length < 2 then '0' :: digits else digits
  (if e < 0 then '-' else '+') :: padded

/-- The text of a positive decimal: with a point if the first digit stands between the fourth
decimal place and the sixteenth place before the point, otherwise with an exponent of ten. -/
def layout (d : Decimal) : List Char :=
  let (digits, e) := d.leading
  if -4 ≤ e ∧ e < 16 then
    if e < 0 then '0' :: '.' :: List.replicate (-e - 1).toNat '0' ++ digits
    else
      let whole := (e + 1).toNat
      if digits.length ≤ whole then
        digits ++ List.replicate (whole - digits.length) '0' ++ ['.', '0']
      else digits.take whole ++ '.' :: digits.drop whole
  else
    match digits with
    | [] => []
    | [d] => d :: 'e' :: showExponent e
    | d :: more => d :: '.' :: more ++ 'e' :: showExponent e

/-- The shortest text that is read back as the number. -/
def text : Binary64 → String
  | .nan => "nan"
  | .infinite negative => if negative then "-inf" else "inf"
  | .finite negative m e =>
    let magnitude := if m = 0 then "0.0" else String.ofList (layout (Decimal.shortest m e))
    if negative then "-" ++ magnitude else magnitude

end Binary64

end ActionItems.Number
