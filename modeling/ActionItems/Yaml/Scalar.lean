import ActionItems.Bytes.Base64
import ActionItems.Number.Reading
import ActionItems.Text.Case
import ActionItems.Value
import ActionItems.Yaml.Graph

/-!
# The values of YAML scalars

What a scalar stands for, by its tag: truth values, integers in several bases, floating-point
numbers, dates, bytes and texts (`scalarValue?`). An underscore in a number does not count, a
leading zero makes an integer octal, and colons part the digits of a number to base sixty. A date
that the calendar does not have, or a number that cannot be read, is an error of its own and not one
of the document's form.
-/

namespace ActionItems.Yaml

open ActionItems.Number ActionItems.Text

/-- The text between colons, the parts in order. -/
def splitColons : List Char → List (List Char)
  | [] => [[]]
  | c :: rest =>
    if c = ':' then [] :: splitColons rest
    else
      match splitColons rest with
      | [] => [[c]]
      | part :: more => (c :: part) :: more

/-- An integer of a base, or why the text is none. -/
def integerOf (base : Nat) (s : List Char) : Except Error Int :=
  (readInteger base (String.ofList s)).mapError .integer

/-- The value of digits to base sixty, the last one first. -/
def sexagesimal : List Int → Int
  | [] => 0
  | d :: more => d + 60 * sexagesimal more

/-- The integer that a text without sign and underscores is. -/
def magnitudeOf (s : List Char) : Except Error Int :=
  match s with
  | ['0'] => .ok 0
  | '0' :: 'b' :: rest => integerOf 2 rest
  | '0' :: 'x' :: rest => integerOf 16 rest
  | '0' :: _ => integerOf 8 s
  | [] => .error .emptyNumber
  | _ =>
    if s.contains ':' then do
      let digits ← (splitColons s).mapM (integerOf 10)
      return sexagesimal digits.reverse
    else integerOf 10 s

/-- The integer that a text is. -/
def intOf (text : List Char) : Except Error Int :=
  let s := text.filter (· ≠ '_')
  if s.isEmpty then .error .emptyNumber
  else do
    let n ← magnitudeOf (dropSign s)
    return if s.head? = some '-' then -n else n

/-- A floating-point number, or why the text is none. -/
def decimalOf (s : List Char) : Except Error Binary64 :=
  match readFloat? s with
  | some x => .ok x
  | none => .error (.decimal (points s))

/-- The value of digits to base sixty, the last one first, where the first one stands for `unit` and
`sum` is that of the digits before. -/
def sexagesimalSum (sum : Binary64) (unit : Int) : List Binary64 → Except Error Binary64
  | [] => .ok sum
  | d :: more =>
    match Binary64.ofInt unit with
    | .infinite _ => .error .sexagesimal
    | u => sexagesimalSum (sum.add (d.mul u)) (unit * 60) more

/-- The floating-point number that a text is. -/
def floatOf (text : List Char) : Except Error Binary64 :=
  let s := lower (text.filter (· ≠ '_'))
  let negative := s.head? = some '-'
  let body := dropSign s
  let signed (x : Binary64) : Binary64 := if negative then x.neg else x
  if s.isEmpty then .error .emptyNumber
  else if body = ".inf".toList then .ok (.infinite negative)
  else if body = ".nan".toList then .ok .nan
  else if body.contains ':' then do
    let digits ← (splitColons body).mapM decimalOf
    return signed (← sexagesimalSum (.zero false) 1 digits.reverse)
  else return signed (← decimalOf body)

/-- The truth value that a text is. -/
def boolOf (text : List Char) : Except Error Bool :=
  let word := String.ofList (lower text)
  if trueWords.contains word then .ok true
  else if falseWords.contains word then .ok false
  else .error .truthWord

/-- The millionths of a second that the digits of a fraction are. -/
def microseconds (fraction : List Char) : Nat :=
  let digits := fraction.take 6
  digitsValue 10 (digits.map fun c => c.toNat - '0'.toNat) * Nat.pow 10 (6 - digits.length)

/-- The number that digits of ASCII are. -/
def numberOf (digits : List Char) : Nat := digitsValue 10 (digits.map fun c => c.toNat - '0'.toNat)

/-- The seconds of a distance from universal time. -/
def ZoneForm.seconds (z : ZoneForm) : Int :=
  let s : Int := (numberOf z.hours * 3600 + numberOf z.minutes * 60 : Nat)
  if z.negative then -s else s

/-- The date or moment of a written date. -/
def DateForm.value (d : DateForm) : Except CalendarError Value :=
  let year := numberOf d.year
  match d.time? with
  | none => return .date (← Date.ofNumbers year (numberOf d.month) (numberOf d.day))
  | some t =>
    let offset? := t.zone?.map fun
      | none => 0
      | some z => z.seconds
    return .moment (← Moment.ofNumbers year (numberOf d.month) (numberOf d.day) (numberOf t.hour)
      (numberOf t.minute) (numberOf t.second) (microseconds t.fraction) offset?)

/-- The date or moment that a text is. -/
def dateOf (text : List Char) : Except Error Value :=
  match dateForm? (dropFinalNewline text) with
  | none => .error .dateForm
  | some d => d.value.mapError .calendar

/-- The bytes that a text stands for. -/
def binaryOf (text : List Nat) : Except Error Value :=
  if text.all (· < 128) then
    match Bytes.decodeBase64 (text.map UInt8.ofNat) with
    | .ok bytes => .ok (.bytes bytes)
    | .error _ => .error (.malformed .binary)
  else .error (.malformed .binary)

/-- How the scalars of a tag are read, by the name of the tag. `direct` says that the node itself is
the scalar. -/
def scalarValue? (name : String) (direct : Bool) (text : List Nat) : Option (Except Error Value) :=
  let chars := text.map Char.ofNat
  match name with
  | "null" => some (.ok .null)
  | "bool" => some ((boolOf chars).map .bool)
  | "int" => some ((intOf chars).map .int)
  | "float" => some ((floatOf chars).map .float)
  | "timestamp" => some (if direct then dateOf chars else .error .dateKind)
  | "binary" => some (binaryOf text)
  | "str" => some (.ok (Value.ofPoints text))
  | _ => none

/-- The wording of an error that is one of a value and not of the document's form. -/
def Error.message : Error → String
  | .integer e => e.message
  | .decimal s => "could not convert string to float: " ++ String.ofList (quotePoints s)
  | .calendar e => e.message
  | .codePoint => "chr() arg not in range(0x110000)"
  | .malformed _ => "the text is no document"
  | .codePointSize => "the number of a character is too large"
  | .truthWord => "the text is no word for a truth value"
  | .emptyNumber => "the number has no digits"
  | .dateForm => "the text has not the form of a date"
  | .dateKind => "the date is no text"
  | .sexagesimal => "the number has too many parts"

end ActionItems.Yaml
