import ActionItems.Bytes.Wide
import ActionItems.Number.Reading
import ActionItems.Value

/-!
# Reading JSON

A JSON text is read as a value. Besides the standard's own values the words `NaN`, `Infinity` and
`-Infinity` are read as numbers, and a key that is repeated keeps its last value. The text is given
as code points, so that it may hold unpaired surrogates; they are allowed inside strings only.

A text that is not JSON is refused with the first fault and its place (`SyntaxError`); an integer of
too many digits is refused for its length.
-/

namespace ActionItems.Json

open ActionItems.Number
open ActionItems.Bytes (isHighHalf isLowHalf joinPair)
open ActionItems.Text (hexValue?)

/-- What is wrong with a text that is not JSON. -/
inductive Fault where
  | value
  | propertyName
  | colon
  | comma
  | extraData
  | controlCharacter
  | escape
  | unicodeEscape
  | unterminated
  | byteOrderMark
deriving Repr, DecidableEq

/-- The wording of a fault, without its place. -/
def Fault.message : Fault → String
  | .value => "Expecting value"
  | .propertyName => "Expecting property name enclosed in double quotes"
  | .colon => "Expecting ':' delimiter"
  | .comma => "Expecting ',' delimiter"
  | .extraData => "Extra data"
  | .controlCharacter => "Invalid control character at"
  | .escape => "Invalid \\escape"
  | .unicodeEscape => "Invalid \\uXXXX escape"
  | .unterminated => "Unterminated string starting at"
  | .byteOrderMark => "Unexpected UTF-8 BOM (decode using utf-8-sig)"

/-- A fault and its place: the line and column, from one, and the number of characters before it. -/
structure SyntaxError where
  fault : Fault
  line : Nat
  column : Nat
  offset : Nat
deriving Repr, DecidableEq

/-- The wording of a fault with its place. -/
def SyntaxError.message (e : SyntaxError) : String :=
  e.fault.message ++ ": line " ++ toString e.line ++ " column " ++ toString e.column ++ " (char "
    ++ toString e.offset ++ ")"

/-- Why a text is not read as a value. -/
inductive ReadError where
  | malformed (error : SyntaxError)
  | number (error : IntegerError)
deriving Repr, DecidableEq

/-- A fault at a number of characters from the start, or a number that is too long. -/
inductive Failure where
  | at (fault : Fault) (offset : Nat)
  | number (error : IntegerError)
deriving Repr, DecidableEq

/-- What is left to read, and how many characters came before it. -/
structure Cursor where
  rest : List Nat
  offset : Nat

/-- The blanks between the parts of a text. -/
def isGap (n : Nat) : Bool := n = 0x20 || n = 0x0A || n = 0x0D || n = 0x09

/-- The cursor after `n` more characters. -/
def Cursor.advance (c : Cursor) (n : Nat) : Cursor := ⟨c.rest.drop n, c.offset + n⟩

/-- The cursor after the characters that satisfy `p`. -/
def Cursor.skipWhile (p : Nat → Bool) (c : Cursor) : Cursor :=
  c.advance (c.rest.takeWhile p).length

/-- The cursor after the blanks. -/
def Cursor.skip (c : Cursor) : Cursor := c.skipWhile isGap

/-- The next code point as a character; a surrogate counts as the null character. -/
def Cursor.next? (c : Cursor) : Option Char := c.rest.head?.map Char.ofNat

/-- Whether the text goes on with `word`. -/
def Cursor.startsWith (c : Cursor) (word : String) : Bool :=
  (word.toList.map Char.toNat).isPrefixOf c.rest

/-- The value of four digits of base sixteen. -/
def hex4? (a b c d : Nat) : Option Nat := do
  return ((← hexValue? a) * 16 + (← hexValue? b)) * 256 + (← hexValue? c) * 16 + (← hexValue? d)

/-- The character that a letter stands for after a backslash. -/
def escaped? (n : Nat) : Option Nat :=
  match Char.ofNat n with
  | '"' => some 0x22
  | '\\' => some 0x5C
  | '/' => some 0x2F
  | 'b' => some 0x08
  | 'f' => some 0x0C
  | 'n' => some 0x0A
  | 'r' => some 0x0D
  | 't' => some 0x09
  | _ => none

/-- The code points read so far, in reverse, with `n` added; `n` joins the one before it if that was
written as the first half of a pair and `n` is the second half of one. -/
def addEscaped (read : List Nat) (paired : Bool) (n : Nat) : List Nat :=
  match read with
  | high :: before => if paired && isLowHalf n then joinPair high n :: before else n :: read
  | [] => [n]

/-- The rest of a string that began at `start`: the code points up to the closing quote, with those
read so far in reverse, and the cursor after the quote. `paired` says that the last one was an
escape that the second half of a pair may follow. An escape must be followed by something. -/
def stringBody (start : Nat) (read : List Nat) (paired : Bool) (offset : Nat) :
    List Nat → Except Failure (List Nat × Cursor)
  | [] => .error (.at .unterminated start)
  | 0x5C :: [] => .error (.at .unterminated start)
  | 0x5C :: 0x75 :: a :: b :: c :: d :: rest =>
    match hex4? a b c d with
    | none => .error (.at .unicodeEscape (offset + 1))
    | some n =>
      if rest.isEmpty then .error (.at .unicodeEscape (offset + 1))
      else stringBody start (addEscaped read paired n) (isHighHalf n) (offset + 6) rest
  | 0x5C :: n :: rest =>
    if n = 0x75 then .error (.at .unicodeEscape (offset + 1))
    else
      match escaped? n with
      | some p => stringBody start (p :: read) false (offset + 2) rest
      | none => .error (.at .escape offset)
  | n :: rest =>
    if n = 0x22 then .ok (read.reverse, ⟨rest, offset + 1⟩)
    else if n ≤ 0x1F then .error (.at .controlCharacter offset)
    else stringBody start (n :: read) false (offset + 1) rest

/-- The string at a cursor, which stands after its opening quote. -/
def string (c : Cursor) : Except Failure (Value × Cursor) := do
  let (points, after) ← stringBody (c.offset - 1) [] false c.offset c.rest
  return (Value.ofPoints points, after)

/-- Whether a code point is a digit of ASCII. -/
def isDigit (n : Nat) : Bool := decide (0x30 ≤ n) && decide (n ≤ 0x39)

/-- The digits at the start of a text, and the rest. -/
def digitsAt (s : List Nat) : List Nat × List Nat := s.span isDigit

/-- The integer part at the start of a text: a zero, or digits that begin with no zero. -/
def wholeAt? (s : List Nat) : Option (List Nat × List Nat) :=
  match s with
  | 0x30 :: rest => some ([0x30], rest)
  | n :: _ => if isDigit n then some (digitsAt s) else none
  | [] => none

/-- The fraction at the start of a text with its point. -/
def fractionAt (s : List Nat) : List Nat × List Nat :=
  match s with
  | 0x2E :: rest =>
    match digitsAt rest with
    | ([], _) => ([], s)
    | (digits, after) => (0x2E :: digits, after)
  | _ => ([], s)

/-- The exponent at the start of a text with its mark and sign. -/
def exponentAt (s : List Nat) : List Nat × List Nat :=
  match s with
  | m :: rest =>
    if m = 0x65 || m = 0x45 then
      let (sign, unsigned) :=
        match rest with
        | n :: more => if n = 0x2B || n = 0x2D then ([n], more) else ([], rest)
        | [] => ([], rest)
      match digitsAt unsigned with
      | ([], _) => ([], s)
      | (digits, after) => (m :: sign ++ digits, after)
    else ([], s)
  | [] => ([], s)

/-- The number at a cursor. -/
def number (c : Cursor) : Except Failure (Value × Cursor) :=
  let (sign, unsigned) :=
    match c.rest with
    | 0x2D :: rest => ([0x2D], rest)
    | _ => ([], c.rest)
  match wholeAt? unsigned with
  | none => .error (.at .value c.offset)
  | some (whole, rest) =>
    let (fraction, rest) := fractionAt rest
    let (exponent, rest) := exponentAt rest
    let written := sign ++ whole ++ fraction ++ exponent
    let after : Cursor := ⟨rest, c.offset + written.length⟩
    let chars := written.map Char.ofNat
    if fraction.isEmpty && exponent.isEmpty then
      match readInteger 10 (String.ofList chars) with
      | .ok i => .ok (.int i, after)
      | .error e => .error (.number e)
    else
      match readFloat? chars with
      | some x => .ok (.float x, after)
      | none => .error (.at .value c.offset)

/-- The words that stand for a value. -/
def words : List (String × Value) :=
  [("null", .null), ("true", .bool true), ("false", .bool false), ("NaN", .float .nan),
    ("Infinity", .float (.infinite false)), ("-Infinity", .float (.infinite true))]

/-- The word or number at a cursor. -/
def atom (c : Cursor) : Except Failure (Value × Cursor) :=
  match words.find? fun w => c.startsWith w.1 with
  | some (word, v) => .ok (v, c.advance word.length)
  | none => number c

mutual

/-- The value at a cursor. -/
def value : Nat → Cursor → Except Failure (Value × Cursor)
  | 0, c => .error (.at .value c.offset)
  | fuel + 1, c =>
    match c.next? with
    | none => .error (.at .value c.offset)
    | some '"' => string (c.advance 1)
    | some '[' =>
      let inner := (c.advance 1).skip
      if inner.next? = some ']' then .ok (.list [], inner.advance 1) else items fuel [] inner
    | some '\x7b' =>
      let inner := (c.advance 1).skip
      if inner.next? = some '\x7d' then .ok (.map [], inner.advance 1) else members fuel [] inner
    | some _ => atom c

/-- The items of a list at a cursor, after those read so far in reverse. -/
def items : Nat → List Value → Cursor → Except Failure (Value × Cursor)
  | 0, _, c => .error (.at .value c.offset)
  | fuel + 1, read, c => do
    let (v, after) ← value fuel c
    let after := after.skip
    match after.next? with
    | some ']' => return (.list (v :: read).reverse, after.advance 1)
    | some ',' => items fuel (v :: read) (after.advance 1).skip
    | _ => throw (.at .comma after.offset)

/-- The members of an object at a cursor, after those read so far. -/
def members : Nat → List (Value × Value) → Cursor → Except Failure (Value × Cursor)
  | 0, _, c => .error (.at .value c.offset)
  | fuel + 1, read, c => do
    if c.next? ≠ some '"' then throw (.at .propertyName c.offset)
    let (key, after) ← string (c.advance 1)
    let after := after.skip
    if after.next? ≠ some ':' then throw (.at .colon after.offset)
    let (v, after) ← value fuel (after.advance 1).skip
    let entries := Value.insert key v read
    let after := after.skip
    match after.next? with
    | some '\x7d' => return (.map entries, after.advance 1)
    | some ',' => members fuel entries (after.advance 1).skip
    | _ => throw (.at .comma after.offset)

end

/-- The place of a number of characters in a text. -/
def SyntaxError.locate (points : List Nat) (fault : Fault) (offset : Nat) : SyntaxError :=
  let before := points.take offset
  ⟨fault, before.count 0x0A + 1, (before.reverse.takeWhile (· ≠ 0x0A)).length + 1, offset⟩

/-- A whole text as a value. -/
def readWhole (points : List Nat) : Except Failure Value := do
  let start : Cursor := ⟨points, 0⟩
  if points.head? = some 0xFEFF then throw (.at .byteOrderMark 0)
  let (v, after) ← value (2 * points.length + 2) start.skip
  let after := after.skip
  if after.rest.isEmpty then return v else throw (.at .extraData after.offset)

/-- Reads a text, given as code points. -/
def readPoints (points : List Nat) : Except ReadError Value :=
  match readWhole points with
  | .ok v => .ok v
  | .error (.at fault offset) => .error (.malformed (SyntaxError.locate points fault offset))
  | .error (.number e) => .error (.number e)

/-- Reads a string. -/
def read (s : String) : Except ReadError Value := readPoints (s.toList.map Char.toNat)

end ActionItems.Json
