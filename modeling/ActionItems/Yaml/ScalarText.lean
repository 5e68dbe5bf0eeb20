import ActionItems.Yaml.Cursor
import ActionItems.Yaml.Token

/-!
# Scalars in a YAML text

The three ways to write a scalar: plain (`plainText`), between quotes (`quotedText`) and as a block
of lines (`blockText`). Within a scalar a single line end counts as a space and further line ends as
line feeds, except in a block that keeps its lines. Each function reads a scalar at a cursor and
gives its text and the place after it.
-/

namespace ActionItems.Yaml

/-- The code points of characters. -/
def points (chars : List Char) : List Nat := chars.map Char.toNat

/-- What a line end and the line ends after it stand for inside a flow scalar. -/
def foldBreaks (first : Char) (more : List Char) : List Char :=
  if first ≠ '\n' then first :: more else if more.isEmpty then [' '] else more

/-! ### Plain scalars -/

/-- Whether a plain scalar ends before `c`, which `after?` follows. -/
def endsPlain (inFlow : Bool) (c : Char) (after? : Option Char) : Bool :=
  isSpacing c ||
    (c = ':' && (endsToken after? ||
      (inFlow && after?.any fun d => [',', '[', ']', '\x7b', '\x7d'].contains d))) ||
    (inFlow && [',', '?', '[', ']', '\x7b', '\x7d'].contains c)

/-- The characters of a plain scalar up to the next space. -/
def plainRun (inFlow : Bool) : List Char → List Char
  | [] => []
  | c :: rest => if endsPlain inFlow c rest.head? then [] else c :: plainRun inFlow rest

/-- The line ends after the first one behind a plain scalar; `none` if a mark between documents
comes before the end of them, with the place of that mark. -/
def plainBreaks : Nat → Cursor → Option (List Char) × Cursor
  | 0, c => (some [], c)
  | fuel + 1, c =>
    if c.sees ' ' then plainBreaks fuel c.next
    else
      match c.lineBreak? with
      | none => (some [], c)
      | some (char, after) =>
        if after.atDocumentMark then (none, after)
        else
          match plainBreaks fuel after with
          | (some more, last) => (some (char :: more), last)
          | (none, last) => (none, last)

/-- The spaces behind a part of a plain scalar as they count if the scalar goes on, the place after
them, and whether a line ended. -/
def plainSpaces (c : Cursor) : List Char × Cursor × Bool :=
  let (blanks, c) := c.takeWhile (· = ' ')
  match c.lineBreak? with
  | none => (blanks, c, false)
  | some (char, after) =>
    if after.atDocumentMark then ([], after, true)
    else
      match plainBreaks (after.rest.length + 1) after with
      | (none, last) => ([], last, true)
      | (some more, last) => (foldBreaks char more, last, true)

/-- The rest of a plain scalar that must be indented by `indent` columns: its text after the
`spaces` read last, the place after it, and whether a line ended behind its last part. -/
def plainParts (inFlow : Bool) (indent : Int) :
    Nat → List Char → Bool → Cursor → List Char × Cursor × Bool
  | 0, _, broken, c => ([], c, broken)
  | fuel + 1, spaces, broken, c =>
    let run := plainRun inFlow c.rest
    if c.sees '#' || run.isEmpty then ([], c, broken)
    else
      let (more, after, ended) := plainSpaces (c.advance run.length)
      if more.isEmpty || after.sees '#' || (!inFlow && decide (after.column < indent)) then
        (spaces ++ run, after, ended)
      else
        let (rest, last, broken) := plainParts inFlow indent fuel more ended after
        (spaces ++ run ++ rest, last, broken)

/-- A plain scalar: its text, the place after it, and whether a line ended there. -/
def plainText (inFlow : Bool) (indent : Int) (c : Cursor) : List Nat × Cursor × Bool :=
  let (text, after, broken) := plainParts inFlow indent (c.rest.length + 1) [] false c
  (points text, after, broken)

/-! ### Quoted scalars -/

/-- The character that a letter stands for after a backslash. -/
def escapeMeaning? : Char → Option Nat
  | '0' => some 0x00
  | 'a' => some 0x07
  | 'b' => some 0x08
  | 't' => some 0x09
  | '\t' => some 0x09
  | 'n' => some 0x0A
  | 'v' => some 0x0B
  | 'f' => some 0x0C
  | 'r' => some 0x0D
  | 'e' => some 0x1B
  | ' ' => some 0x20
  | '"' => some 0x22
  | '\\' => some 0x5C
  | '/' => some 0x2F
  | 'N' => some 0x85
  | '_' => some 0xA0
  | 'L' => some 0x2028
  | 'P' => some 0x2029
  | _ => none

/-- The number of digits after a letter that announces a code point. -/
def escapeLength? : Char → Option Nat
  | 'x' => some 2
  | 'u' => some 4
  | 'U' => some 8
  | _ => none

/-- The value of `n` digits of base sixteen at the start of a text, after the value read so far. -/
def hexNumber? : Nat → Nat → List Char → Option Nat
  | 0, value, _ => some value
  | n + 1, value, c :: rest =>
    (Text.hexValue? c.toNat).bind fun d => hexNumber? n (16 * value + d) rest
  | _ + 1, _, [] => none

/-- The greatest number that characters are numbered with in an escape. -/
def greatestCharNumber : Nat := 0x7FFFFFFF

/-- The code point of a number in an escape. -/
def codePointOf (n : Nat) : Except Error Nat :=
  if n > greatestCharNumber then .error .codePointSize
  else if n > 0x10FFFF then .error .codePoint
  else .ok n

/-- The line ends after the first one inside a quoted scalar, and the place after them and the
blanks around them. -/
def quotedBreaks : Nat → Cursor → Except Error (List Char × Cursor)
  | 0, _ => .error (.malformed .unterminated)
  | fuel + 1, c =>
    if c.atDocumentMark then .error (.malformed .unterminated)
    else
      let c := c.skipWhile fun d => d = ' ' || d = '\t'
      match c.lineBreak? with
      | none => .ok ([], c)
      | some (char, after) => do
        let (more, last) ← quotedBreaks fuel after
        return (char :: more, last)

/-- The blanks and line ends inside a quoted scalar as they count, and the place after them. -/
def quotedSpaces (c : Cursor) : Except Error (List Char × Cursor) :=
  let (blanks, c) := c.takeWhile fun d => d = ' ' || d = '\t'
  match c.lineBreak? with
  | some (char, after) => do
    let (more, last) ← quotedBreaks (after.rest.length + 1) after
    return (foldBreaks char more, last)
  | none => if c.rest.isEmpty then .error (.malformed .unterminated) else .ok (blanks, c)

/-- An escape, given the place after its backslash. -/
def escapeText (c : Cursor) : Except Error (List Nat × Cursor) :=
  match c.rest with
  | [] => .error (.malformed .escape)
  | e :: rest =>
    match escapeMeaning? e, escapeLength? e with
    | some n, _ => .ok ([n], c.next)
    | none, some length =>
      match hexNumber? length 0 rest with
      | none => .error (.malformed .escape)
      | some n => do return ([← codePointOf n], c.advance (length + 1))
    | none, none =>
      match c.lineBreak? with
      | none => .error (.malformed .escape)
      | some (_, after) => do
        let (more, last) ← quotedBreaks (after.rest.length + 1) after
        return (points more, last)

/-- Whether a character stands for itself inside a quoted scalar, whatever the quote. -/
def isQuotedPlain (c : Char) : Bool := !(c = '\'' || c = '"' || c = '\\' || isSpacing c)

/-- The rest of a scalar between quotes: its text and the place after the closing quote. -/
def quotedParts (double : Bool) : Nat → Cursor → Except Error (List Nat × Cursor)
  | 0, _ => .error (.malformed .unterminated)
  | fuel + 1, c =>
    match c.rest with
    | [] => .error (.malformed .unterminated)
    | char :: rest => do
      if isQuotedPlain char then
        let (run, after) := c.takeWhile isQuotedPlain
        let (more, last) ← quotedParts double fuel after
        return (points run ++ more, last)
      else if isSpacing char then
        let (spaces, after) ← quotedSpaces c
        let (more, last) ← quotedParts double fuel after
        return (points spaces ++ more, last)
      else if double then
        if char = '"' then return ([], c.next)
        else if char = '\\' then
          let (escaped, after) ← escapeText c.next
          let (more, last) ← quotedParts double fuel after
          return (escaped ++ more, last)
        else
          let (more, last) ← quotedParts double fuel c.next
          return (char.toNat :: more, last)
      else if char = '\'' then
        if rest.head? = some '\'' then
          let (more, last) ← quotedParts double fuel (c.advance 2)
          return (char.toNat :: more, last)
        else return ([], c.next)
      else
        let (more, last) ← quotedParts double fuel c.next
        return (char.toNat :: more, last)

/-- A scalar between quotes: its text and the place after it. -/
def quotedText (double : Bool) (c : Cursor) : Except Error (List Nat × Cursor) :=
  quotedParts double (c.rest.length + 1) c.next

/-! ### Blocks of lines -/

/-- What becomes of the line ends at the end of a block. -/
inductive Chomping where
  /-- One is kept. -/
  | clip
  | keep
  | strip
deriving Repr, DecidableEq

/-- The chomping that an indicator asks for. -/
def chomping? : Char → Option Chomping
  | '+' => some .keep
  | '-' => some .strip
  | _ => none

/-- The indentation that an indicator asks for; zero is none. -/
def increment? (c : Char) : Option Nat :=
  if '0' ≤ c ∧ c ≤ '9' then some (c.toNat - '0'.toNat) else none

/-- The indicators after the sign of a block, in either order. -/
def blockIndicators (c : Cursor) : Chomping × Option Nat × Cursor :=
  match c.peek?.bind chomping?, c.peek?.bind increment? with
  | some chomping, _ =>
    match c.next.peek?.bind increment? with
    | some n => (chomping, some n, c.next.next)
    | none => (chomping, none, c.next)
  | none, some n =>
    match c.next.peek?.bind chomping? with
    | some chomping => (chomping, some n, c.next.next)
    | none => (.clip, some n, c.next)
  | none, none => (.clip, none, c)

/-- The place after the rest of a line that holds nothing but a comment. -/
def restOfLine? (c : Cursor) : Option Cursor :=
  let c := c.skipSpaces.skipComment
  if endsLine c.peek? then some c.lineBreak.2 else none

/-- The line ends before the first line of a block, the greatest column reached, and the place after
them. -/
def blockStart : Nat → Nat → Cursor → List Char × Nat × Cursor
  | 0, widest, c => ([], widest, c)
  | fuel + 1, widest, c =>
    if c.sees ' ' then blockStart fuel (max widest c.next.column) c.next
    else
      match c.lineBreak? with
      | none => ([], widest, c)
      | some (char, after) =>
        let (more, widest, last) := blockStart fuel widest after
        (char :: more, widest, last)

/-- The place after the spaces up to a column. -/
def skipIndent (indent : Nat) : Nat → Cursor → Cursor
  | 0, c => c
  | fuel + 1, c => if c.column < indent ∧ c.sees ' ' then skipIndent indent fuel c.next else c

/-- The line ends between two lines of a block, and the place after them and the indentation. -/
def blockBreaks (indent : Nat) : Nat → Cursor → List Char × Cursor
  | 0, c => ([], c)
  | fuel + 1, c =>
    let c := skipIndent indent indent c
    match c.lineBreak? with
    | none => ([], c)
    | some (char, after) =>
      let (more, last) := blockBreaks indent fuel after
      (char :: more, last)

/-- Whether a line of a block begins with a blank. -/
def startsBlank (c : Cursor) : Bool := c.sees ' ' || c.sees '\t'

/-- What stands between two lines of a block, the first of which ended in `ending`. -/
def blockJoint (folded : Bool) (ending breaks : List Char) (firstBlank secondBlank : Bool) :
    List Char :=
  if folded && ending == ['\n'] && !firstBlank && !secondBlank then
    if breaks.isEmpty then [' '] else breaks
  else ending ++ breaks

/-- The line ends at the end of a block as they count. -/
def blockTail (chomping : Chomping) (ending breaks : List Char) : List Char :=
  match chomping with
  | .clip => ending
  | .keep => ending ++ breaks
  | .strip => []

/-- The lines of a block from a place at its indentation. -/
def blockLines (folded : Bool) (chomping : Chomping) (indent : Nat) :
    Nat → Cursor → List Char × Cursor
  | 0, c => ([], c)
  | fuel + 1, c =>
    let blank := startsBlank c
    let (text, c) := c.takeWhile (!isBreak ·)
    let (ending, c) := c.lineBreak
    let (breaks, c) := blockBreaks indent (c.rest.length + 1) c
    if c.column = indent && !c.rest.isEmpty then
      let (more, last) := blockLines folded chomping indent fuel c
      (text ++ blockJoint folded ending breaks blank (startsBlank c) ++ more, last)
    else (text ++ blockTail chomping ending breaks, c)

/-- A block of lines inside a collection indented by `parent` columns, read from its sign: its text
and the place after it. -/
def blockText (folded : Bool) (parent : Int) (c : Cursor) : Except Error (List Nat × Cursor) :=
  let (chomping, increment, c) := blockIndicators c.next
  if increment = some 0 || !endsWord c.peek? then .error (.malformed .blockHeader)
  else
    match restOfLine? c with
    | none => .error (.malformed .blockHeader)
    | some c =>
      let least := (parent + 1).toNat.max 1
      let (breaks, indent, c) :=
        match increment with
        | some n =>
          let indent := least + n - 1
          let (breaks, c) := blockBreaks indent (c.rest.length + 1) c
          (breaks, indent, c)
        | none =>
          let (breaks, widest, c) := blockStart (c.rest.length + 1) 0 c
          (breaks, max least widest, c)
      if c.column = indent && !c.rest.isEmpty then
        let (text, c) := blockLines folded chomping indent (c.rest.length + 1) c
        .ok (points (breaks ++ text), c)
      else .ok (points (if chomping = .keep then breaks else []), c)

end ActionItems.Yaml
