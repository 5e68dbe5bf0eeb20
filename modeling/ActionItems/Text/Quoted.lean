import ActionItems.Text.Hex
import ActionItems.Text.Printable

/-!
# Quoted texts

A value that is named in a message is written between quotes: `quotePoints` for a text, given as its
code points, and `quoteBytes` for bytes. Single quotes are used unless the text holds one and no
double quote. A backslash, the quote in use and whatever is not printable are escaped.
-/

namespace ActionItems.Text

/-- The quote written around a text: double if the text holds a single quote and no double one. -/
def quoteMark (points : List Nat) : Char :=
  if points.contains 0x27 && !points.contains 0x22 then '"' else '\''

/-- The escape of a code point that is not shown as it is. -/
def escapePoint (n : Nat) : List Char :=
  if n = 0x09 then ['\\', 't']
  else if n = 0x0A then ['\\', 'n']
  else if n = 0x0D then ['\\', 'r']
  else if n < 0x100 then '\\' :: 'x' :: hexPadded 2 n
  else if n < 0x10000 then '\\' :: 'u' :: hexPadded 4 n
  else '\\' :: 'U' :: hexPadded 8 n

/-- One code point between quotes `mark`, where `shown` says what is shown as it is. -/
def quotedPoint (shown : Nat → Bool) (mark : Char) (n : Nat) : List Char :=
  if n = 0x5C || n = mark.toNat then ['\\', Char.ofNat n]
  else if shown n then [Char.ofNat n]
  else escapePoint n

/-- A text between quotes, given as its code points. -/
def quotePoints (points : List Nat) : List Char :=
  let mark := quoteMark points
  mark :: points.flatMap (quotedPoint isPrintable mark) ++ [mark]

/-- A string between quotes. -/
def quote (s : String) : String := String.ofList (quotePoints (s.toList.map Char.toNat))

/-- Bytes between quotes, marked by a `b` in front. -/
def quoteBytes (bytes : List UInt8) : String :=
  let points := bytes.map UInt8.toNat
  let mark := quoteMark points
  let shown (n : Nat) : Bool := decide (0x20 ≤ n) && decide (n < 0x7F)
  String.ofList ('b' :: mark :: points.flatMap (quotedPoint shown mark) ++ [mark])

end ActionItems.Text
