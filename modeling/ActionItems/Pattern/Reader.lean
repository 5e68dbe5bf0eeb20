import ActionItems.Number.Integer
import ActionItems.Pattern.Basic
import ActionItems.Text.CharNames

/-!
# Reading search patterns

The notation of search patterns: a point for any character but a line feed, sets in brackets, groups
in parentheses, alternatives apart by a bar, the anchors `^` and `$`, repetition by `*`, `+`, `?`
and by bounds in braces, each made possessive by a `+` behind it, and escapes by a backslash. A
brace that does not open bounds stands for itself. An escape may ask for a character by its name
(`CharNames`).

A pattern is refused as malformed, or because a bound of a repetition is too large to be counted or
has more digits than are converted.
-/

namespace ActionItems.Pattern

open ActionItems.Number

/-- Why a pattern is not read. -/
inductive ReadError where
  | malformed
  /-- A bound of a repetition is not below `repetitionLimit`. -/
  | repetition
  /-- A bound of a repetition has too many digits. -/
  | number (error : IntegerError)
deriving Repr, DecidableEq

/-- The wording of a refusal that is no malformed pattern. -/
def ReadError.message : ReadError → String
  | .malformed => "malformed pattern"
  | .repetition => "the repetition number is too large"
  | .number e => e.message

/-- The least bound of a repetition that is too large. -/
def repetitionLimit : Nat := 4294967295

/-- The part of a pattern that is still to be read, with the groups seen so far: how many were
opened, and which of them are still open. -/
structure Source where
  rest : List Char
  groups : Nat := 0
  unclosed : List Nat := []

/-- What an escape stands for. -/
inductive Escaped where
  | point (n : Nat)
  | inside (k : CharClass)
  | outside (k : CharClass)
  | anchor (a : Anchor)
  | group (number : Nat)

/-- The classes that an escape may name. -/
def classEscape? : Char → Option Escaped
  | 'd' => some (.inside .digit)
  | 'D' => some (.outside .digit)
  | 's' => some (.inside .blank)
  | 'S' => some (.outside .blank)
  | 'w' => some (.inside .word)
  | 'W' => some (.outside .word)
  | _ => none

/-- The anchors that an escape may name. -/
def anchorEscape? : Char → Option Escaped
  | 'A' => some (.anchor .start)
  | 'Z' => some (.anchor .absoluteFinish)
  | 'b' => some (.anchor .boundary)
  | 'B' => some (.anchor .inner)
  | _ => none

/-- The control characters that an escape may name. -/
def controlEscape? : Char → Option Escaped
  | 'a' => some (.point 0x07)
  | 'b' => some (.point 0x08)
  | 'f' => some (.point 0x0C)
  | 'n' => some (.point 0x0A)
  | 'r' => some (.point 0x0D)
  | 't' => some (.point 0x09)
  | 'v' => some (.point 0x0B)
  | '\\' => some (.point 0x5C)
  | _ => none

/-- The value of an ASCII digit of a base up to sixteen. -/
def asciiDigit? (base : Nat) (c : Char) : Option Nat :=
  if c.toNat < 128 then digitIn? base c else none

/-- At most `n` digits of a base at the start of a text. -/
def digitsUpTo (base : Nat) : Nat → List Char → List Nat × List Char
  | 0, s => ([], s)
  | _ + 1, [] => ([], [])
  | n + 1, c :: rest =>
    match asciiDigit? base c with
    | some d =>
      let (more, after) := digitsUpTo base n rest
      (d :: more, after)
    | none => ([], c :: rest)

/-- Exactly `n` digits of base sixteen as a code point. -/
def hexPoint? (n : Nat) (s : List Char) : Option (Escaped × List Char) :=
  match digitsUpTo 16 n s with
  | (digits, after) =>
    let value := digitsValue 16 digits
    if digits.length = n && value < 0x110000 then some (.point value, after) else none

/-- The escape that a letter begins and that names a code point by its digits. -/
def numericEscape? (letter : Char) (s : List Char) : Option (Escaped × List Char) :=
  match letter with
  | 'x' => hexPoint? 2 s
  | 'u' => hexPoint? 4 s
  | 'U' => hexPoint? 8 s
  | _ => none

/-- The name of a character up to its closing brace, the opening one read. A backslash goes with the
character after it, which does not close the name then. -/
def charName? : List Char → Option (List Char × List Char)
  | '\x7d' :: rest => some ([], rest)
  | '\\' :: c :: rest => (charName? rest).map fun (name, after) => ('\\' :: c :: name, after)
  | c :: rest => (charName? rest).map fun (name, after) => (c :: name, after)
  | [] => none

/-- The character of a name, which must not be empty. -/
def namedPoint? [CharNames] (name : List Char) : Option Escaped :=
  if name.isEmpty then none
  else (CharNames.named? (String.ofList name)).map fun c => .point c.toNat

/-- The escape that names a character in braces. -/
def namedEscape? [CharNames] : List Char → Option (Escaped × List Char)
  | '\x7b' :: rest => do
    let (name, after) ← charName? rest
    return (← namedPoint? name, after)
  | _ => none

/-- A character of ASCII that is a letter. -/
def isLetter (c : Char) : Bool := c.isAlpha

/-- What a backslash and the text after it stand for inside a set, if it asks for no name. -/
def plainSetEscape? : List Char → Option (Escaped × List Char)
  | [] => none
  | c :: rest =>
    match (controlEscape? c).or (classEscape? c) with
    | some e => some (e, rest)
    | none =>
      if c = 'x' || c = 'u' || c = 'U' then numericEscape? c rest
      else if (asciiDigit? 8 c).isSome then
        let (digits, after) := digitsUpTo 8 3 (c :: rest)
        let value := digitsValue 8 digits
        if value ≤ 0o377 then some (.point value, after) else none
      else if c.isDigit || isLetter c then none
      else some (.point c.toNat, rest)

/-- What a backslash and the text after it stand for inside a set. -/
def setEscape? [CharNames] : List Char → Option (Escaped × List Char)
  | 'N' :: rest => namedEscape? rest
  | s => plainSetEscape? s

/-- What a backslash, a digit that is not zero and the text after it stand for: three octal digits
name a code point, one or two digits a group that is closed. -/
def digitEscape? (source : Source) (c : Char) (rest : List Char) : Option (Escaped × List Char) :=
  let octal := digitsUpTo 8 3 (c :: rest)
  if octal.1.length = 3 then
    let value := digitsValue 8 octal.1
    if value ≤ 0o377 then some (.point value, octal.2) else none
  else
    let (digits, after) := digitsUpTo 10 2 (c :: rest)
    let number := digitsValue 10 digits
    if number ≤ source.groups && !source.unclosed.contains number then some (.group number, after)
    else none

/-- What a backslash and the text after it stand for outside sets, if it asks for no name. -/
def plainEscape? (source : Source) : List Char → Option (Escaped × List Char)
  | [] => none
  | c :: rest =>
    match (classEscape? c).or ((anchorEscape? c).or (controlEscape? c)) with
    | some e => some (e, rest)
    | none =>
      if c = 'x' || c = 'u' || c = 'U' then numericEscape? c rest
      else if c = '0' then
        let (digits, after) := digitsUpTo 8 3 (c :: rest)
        some (.point (digitsValue 8 digits), after)
      else if c.isDigit then digitEscape? source c rest
      else if isLetter c then none
      else some (.point c.toNat, rest)

/-- What a backslash and the text after it stand for outside sets. -/
def escape? [CharNames] (source : Source) : List Char → Option (Escaped × List Char)
  | 'N' :: rest => namedEscape? rest
  | s => plainEscape? source s

/-- An escape as a part of a set. -/
def Escaped.setItem? : Escaped → Option SetItem
  | .point n => some (.point n)
  | .inside k => some (.inside k)
  | .outside k => some (.outside k)
  | _ => none

section

variable [CharNames]

/-- The next member of a set, which may be escaped. -/
def setMember? : List Char → Option (SetItem × List Char)
  | [] => none
  | '\\' :: rest => do
    let (e, after) ← setEscape? rest
    return (← e.setItem?, after)
  | c :: rest => some (.point c.toNat, rest)

/-- The members of a set up to its closing bracket, which counts as a member in the first place. -/
def setItems? : Nat → List SetItem → List Char → Option (List SetItem × List Char)
  | 0, _, _ => none
  | fuel + 1, read, s =>
    match s, read with
    | ']' :: rest, _ :: _ => some (read.reverse, rest)
    | _, _ => do
      let (item, after) ← setMember? s
      match after with
      | '-' :: ']' :: rest => return ((.point 0x2D :: item :: read).reverse, rest)
      | '-' :: more =>
        let (other, after) ← setMember? more
        match item, other with
        | .point first, .point last =>
          if first ≤ last then setItems? fuel (.range first last :: read) after else none
        | _, _ => none
      | _ => setItems? fuel (item :: read) after

/-- A set, its opening bracket read. -/
def charSet? (s : List Char) : Option (CharSet × List Char) := do
  let (negated, inner) :=
    match s with
    | '^' :: rest => (true, rest)
    | _ => (false, s)
  let (items, after) ← setItems? (inner.length + 1) [] inner
  return (⟨negated, items⟩, after)

end

/-- The bounds of a repetition as they are written: digits, and digits after a comma. -/
structure Bounds where
  least : List Nat
  greatest : List Nat

/-- The bounds of a repetition, its opening brace read; `none` if the brace stands for itself. -/
def bounds? (s : List Char) : Option (Bounds × List Char) :=
  if s.head? = some '\x7d' then none
  else
    let (least, rest) := digitsUpTo 10 s.length s
    let (greatest, rest) :=
      match rest with
      | ',' :: more => digitsUpTo 10 more.length more
      | _ => (least, rest)
    match rest with
    | '\x7d' :: after => some (⟨least, greatest⟩, after)
    | _ => none

/-- A bound of a repetition. -/
def boundValue (digits : List Nat) : Except ReadError Nat :=
  if digits.length > digitLimit then .error (.number (.tooLong digits.length))
  else
    let n := digitsValue 10 digits
    if n ≥ repetitionLimit then .error .repetition else .ok n

/-- The least and the greatest number of repetitions. -/
def Bounds.values (b : Bounds) : Except ReadError (Nat × Option Nat) := do
  let least ← if b.least.isEmpty then pure 0 else boundValue b.least
  if b.greatest.isEmpty then return (least, none)
  let greatest ← boundValue b.greatest
  if greatest < least then throw .malformed
  return (least, some greatest)

/-- The last part of a sequence repeated, given the parts in reverse. Only a part that is neither an
anchor nor a repetition can be repeated. -/
def repeatLast (parts : List Node) (least : Nat) (greatest : Option Nat) (s : List Char) :
    Except ReadError (List Node × List Char) :=
  let (possessive, after) :=
    match s with
    | '+' :: rest => (true, rest)
    | _ => (false, s)
  match parts with
  | [] => .error .malformed
  | .anchor _ :: _ => .error .malformed
  | .loop .. :: _ => .error .malformed
  | body :: before => .ok (.loop least greatest possessive body :: before, after)

/-- The sequence of parts given in reverse. -/
def sequence (parts : List Node) : Node :=
  match parts.reverse with
  | [] => .empty
  | first :: more => more.foldl .seq first

/-- An escape as a pattern. -/
def Escaped.node : Escaped → Node
  | .point n => .char (.single n)
  | .inside k => .char ⟨false, [.inside k]⟩
  | .outside k => .char ⟨false, [.outside k]⟩
  | .anchor a => .anchor a
  | .group number => .again number

variable [CharNames]

mutual

/-- Alternatives up to a closing parenthesis or the end. -/
def alternatives : Nat → Source → Except ReadError (Node × Source)
  | 0, _ => .error .malformed
  | fuel + 1, source => do
    let (first, after) ← parts fuel [] source
    match after.rest with
    | '|' :: rest =>
      let (second, after) ← alternatives fuel { after with rest }
      return (.alt first second, after)
    | _ => return (first, after)

/-- The parts of a sequence, after those read so far in reverse. -/
def parts : Nat → List Node → Source → Except ReadError (Node × Source)
  | 0, _, _ => .error .malformed
  | fuel + 1, read, source =>
    match source.rest with
    | [] => .ok (sequence read, source)
    | '|' :: _ => .ok (sequence read, source)
    | ')' :: _ => .ok (sequence read, source)
    | '\\' :: rest =>
      match escape? source rest with
      | some (e, after) => parts fuel (e.node :: read) { source with rest := after }
      | none => .error .malformed
    | '[' :: rest =>
      match charSet? rest with
      | some (set, after) => parts fuel (.char set :: read) { source with rest := after }
      | none => .error .malformed
    | '*' :: rest => do
      let (read, after) ← repeatLast read 0 none rest
      parts fuel read { source with rest := after }
    | '+' :: rest => do
      let (read, after) ← repeatLast read 1 none rest
      parts fuel read { source with rest := after }
    | '?' :: rest => do
      let (read, after) ← repeatLast read 0 (some 1) rest
      parts fuel read { source with rest := after }
    | '\x7b' :: rest =>
      match bounds? rest with
      | some (b, after) => do
        if after = ['\\'] then throw .malformed
        let (least, greatest) ← b.values
        let (read, after) ← repeatLast read least greatest after
        parts fuel read { source with rest := after }
      | none => parts fuel (.char (.single '\x7b'.toNat) :: read) { source with rest }
    | '.' :: rest => parts fuel (.char .anyButNewline :: read) { source with rest }
    | '^' :: rest => parts fuel (.anchor .start :: read) { source with rest }
    | '$' :: rest => parts fuel (.anchor .finish :: read) { source with rest }
    | '(' :: rest => do
      let number := source.groups + 1
      let inner : Source := ⟨rest, number, number :: source.unclosed⟩
      let (body, after) ← alternatives fuel inner
      match after.rest with
      | ')' :: rest =>
        parts fuel (.group number body :: read) ⟨rest, after.groups, source.unclosed⟩
      | _ => throw .malformed
    | c :: rest => parts fuel (.char (.single c.toNat) :: read) { source with rest }

end

/-- Reads a pattern. -/
def read (s : List Char) : Except ReadError Node := do
  let (node, after) ← alternatives (2 * s.length + 2) { rest := s }
  if after.rest.isEmpty then return node else throw .malformed

end ActionItems.Pattern
