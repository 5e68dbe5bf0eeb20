import ActionItems.Text.Blank
import ActionItems.Text.DecimalDigit
import ActionItems.Text.Quoted

/-!
# Reading integers

An integer is written with an optional sign, digits of any script and single underscores between
digits; blanks around it do not count. Bases two, eight and sixteen admit their usual mark after a
zero (`0b`, `0o`, `0x`) and one underscore after the mark. In other bases the number of digits is
limited, and a longer run of digits is refused before anything after it is looked at.
-/

namespace ActionItems.Number

open ActionItems.Text

/-- Why a text is not read as an integer, or an integer not written as a text. -/
inductive IntegerError where
  /-- The text is not an integer of the base. -/
  | malformed (base : Nat) (text : String)
  /-- The text has more digits than are converted. -/
  | tooLong (digits : Nat)
  /-- The integer has more digits than are written. -/
  | unwritable
deriving Repr, DecidableEq

/-- The number of digits that are converted in a base that is no power of two, and written in base
ten. -/
def digitLimit : Nat := 4300

/-- A refused text is quoted up to this many characters. -/
def quoteLimit : Nat := 200

/-- The wording of a failed reading or writing. -/
def IntegerError.message : IntegerError → String
  | .malformed base text =>
    "invalid literal for int() with base " ++ toString base ++ ": " ++
      String.ofList ((quote text).toList.take quoteLimit)
  | .tooLong digits =>
    "Exceeds the limit (" ++ toString digitLimit ++
      " digits) for integer string conversion: value has "
      ++ toString digits ++ " digits; use sys.set_int_max_str_digits() to increase the limit"
  | .unwritable =>
    "Exceeds the limit (" ++ toString digitLimit ++ " digits) for integer string conversion"
      ++ "; use sys.set_int_max_str_digits() to increase the limit"

/-- The blanks that may stand around a number; the record separators of ASCII may not. -/
def isMargin (c : Char) : Bool := isBlank c && !(decide (0x1C ≤ c.toNat) && decide (c.toNat ≤ 0x1F))

/-- The value of a digit, of any script below ten, in a base up to sixteen. -/
def digitIn? (base : Nat) (c : Char) : Option Nat :=
  let value? :=
    if 'a' ≤ c ∧ c ≤ 'z' then some (c.toNat - 'a'.toNat + 10)
    else if 'A' ≤ c ∧ c ≤ 'Z' then some (c.toNat - 'A'.toNat + 10)
    else digitValue? c
  value?.filter (· < base)

/-- A run of digits with single underscores between them: the digits read so far in reverse, whether
the last character was an underscore, and the text. The result has the digits, whether the run ended
in an underscore or met two in a row, and the rest. -/
def digitRun (base : Nat) (digits : List Nat) (gap : Bool) : List Char → List Nat × Bool × List Char
  | [] => (digits, gap, [])
  | c :: rest =>
    match digitIn? base c with
    | some d => digitRun base (d :: digits) false rest
    | none =>
      if c = '_' then if gap then (digits, true, c :: rest) else digitRun base digits true rest
      else (digits, gap, c :: rest)

/-- The value of digits given from the last to the first. -/
def ofDigits (base : Nat) : List Nat → Nat
  | [] => 0
  | d :: more => d + base * ofDigits base more

/-- The value of digits given from the first to the last. -/
def digitsValue (base : Nat) (digits : List Nat) : Nat := digits.foldl (fun n d => base * n + d) 0

/-- Whether a base is read without a limit on the number of digits. -/
def unlimitedBase (base : Nat) : Bool := base = 2 || base = 8 || base = 16

/-- The mark of a base after a leading zero. -/
def baseMark? : Nat → Option Char
  | 2 => some 'b'
  | 8 => some 'o'
  | 16 => some 'x'
  | _ => none

/-- The text after the mark of the base, if it has one. -/
def dropMark (base : Nat) (s : List Char) : List Char :=
  match s with
  | '0' :: m :: rest =>
    if baseMark? base = some m.toLower then
      match rest with
      | '_' :: more => more
      | _ => rest
    else s
  | _ => s

/-- A sign and the text after it. -/
def splitSign : List Char → Bool × List Char
  | '+' :: rest => (false, rest)
  | '-' :: rest => (true, rest)
  | s => (false, s)

/-- Reads an integer of a base up to sixteen. -/
def readInteger (base : Nat) (text : String) : Except IntegerError Int :=
  let (negative, unsigned) := splitSign (text.toList.dropWhile isMargin)
  let body := dropMark base unsigned
  match digitRun base [] true body with
  | (digits, gap, rest) =>
    if digits.isEmpty || gap then .error (.malformed base text)
    else if !unlimitedBase base && digits.length > digitLimit then .error (.tooLong digits.length)
    else if rest.all isMargin then
      let value : Int := ofDigits base digits
      .ok (if negative then -value else value)
    else .error (.malformed base text)

/-- A decimal integer with a sign. -/
def showInt (i : Int) : String :=
  if i < 0 then "-" ++ toString i.natAbs else toString i.natAbs

/-- Whether an integer has no more digits than are written. -/
def isWritable (i : Int) : Bool := decide (i.natAbs < Nat.pow 10 digitLimit)

end ActionItems.Number
