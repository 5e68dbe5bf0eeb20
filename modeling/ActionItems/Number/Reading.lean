import ActionItems.Number.Binary64
import ActionItems.Number.Integer

/-!
# Reading floating-point numbers

A floating-point number is written in decimal, with an optional fraction and an optional exponent of
ten, or as the word `inf`, `infinity` or `nan`; a sign may stand in front and blanks around it.
-/

namespace ActionItems.Number

open ActionItems.Text

/-- The decimal digits at the start of a text, and the rest. -/
def takeDigits : List Char → List Nat × List Char
  | [] => ([], [])
  | c :: rest =>
    match digitValue? c with
    | some d =>
      let (more, rest) := takeDigits rest
      (d :: more, rest)
    | none => ([], c :: rest)

/-- The exponent of ten at the start of a text, zero if there is none, and the rest. -/
def takeExponent (s : List Char) : Int × List Char :=
  match s with
  | c :: rest =>
    if c = 'e' || c = 'E' then
      let (negative, unsigned) := splitSign rest
      match takeDigits unsigned with
      | ([], _) => (0, s)
      | (digits, rest) =>
        let value : Int := digitsValue 10 digits
        (if negative then -value else value, rest)
    else (0, s)
  | [] => (0, s)

/-- A number without a sign at the start of a text, and the rest. -/
def takeMagnitude? (negative : Bool) (s : List Char) : Option (Binary64 × List Char) :=
  let (whole, rest) := takeDigits s
  let (fraction, rest) :=
    match rest with
    | '.' :: more => takeDigits more
    | _ => ([], rest)
  if whole.isEmpty && fraction.isEmpty then none
  else
    let (exponent, rest) := takeExponent rest
    some (.ofDecimal negative (digitsValue 10 (whole ++ fraction)) (exponent - fraction.length),
      rest)

/-- Reads a floating-point number. -/
def readFloat? (s : List Char) : Option Binary64 :=
  let (negative, unsigned) := splitSign (s.dropWhile isMargin)
  let word := stripEndWhile isMargin unsigned
  let name := word.map Char.toLower
  if name = "inf".toList || name = "infinity".toList then some (.infinite negative)
  else if name = "nan".toList then some .nan
  else
    match takeMagnitude? negative word with
    | some (x, []) => some x
    | _ => none

end ActionItems.Number
