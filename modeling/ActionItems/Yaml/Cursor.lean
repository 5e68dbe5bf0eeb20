/-!
# A place in a YAML text

A text is read from a `Cursor`: what is still to be read, and how far and in which line and column
the reading is. A line ends with a line feed, a carriage return, both, or one of the line ends of
other scripts; `lineBreak?` reads one and says what it stands for.
-/

namespace ActionItems.Yaml

/-- Whether a character may stand in a text. -/
def isReadable (c : Char) : Bool :=
  c = '\t' || c = '\n' || c = '\r' || c = '\u0085' ||
    (decide (0x20 ≤ c.toNat) && decide (c.toNat ≤ 0x7E)) ||
    (decide (0xA0 ≤ c.toNat) && decide (c.toNat ≤ 0xFFFD)) || decide (0x10000 ≤ c.toNat)

/-- Whether a character ends a line or is part of such an end. -/
def isBreak (c : Char) : Bool :=
  c = '\r' || c = '\n' || c = '\u0085' || c = '\u2028' || c = '\u2029'

/-- Whether a character is a space, a tab or a line end. -/
def isSpacing (c : Char) : Bool := c = ' ' || c = '\t' || isBreak c

/-- Whether a line or the text ends here. -/
def endsLine (c? : Option Char) : Bool := c?.all isBreak

/-- Whether a space, a line end or the end of the text is here. -/
def endsWord (c? : Option Char) : Bool := c?.all fun c => c = ' ' || isBreak c

/-- Whether a space, a tab, a line end or the end of the text is here. -/
def endsToken (c? : Option Char) : Bool := c?.all isSpacing

/-- The byte order mark, which has no width. -/
def byteOrderMark : Char := '\ufeff'

/-- A place in a text. -/
structure Cursor where
  rest : List Char
  index : Nat := 0
  line : Nat := 0
  column : Nat := 0
deriving Repr, DecidableEq

namespace Cursor

/-- The next character. -/
def peek? (c : Cursor) : Option Char := c.rest.head?

/-- The character after `n` more. -/
def peekAt? (c : Cursor) (n : Nat) : Option Char := c.rest[n]?

/-- Whether `char` is next. -/
def sees (c : Cursor) (char : Char) : Bool := c.rest.head? == some char

/-- The place after the next character. -/
def next (c : Cursor) : Cursor :=
  match c.rest with
  | [] => c
  | char :: rest =>
    if isBreak char && !(char = '\r' && rest.head? = some '\n') then
      ⟨rest, c.index + 1, c.line + 1, 0⟩
    else
      ⟨rest, c.index + 1, c.line, if char = byteOrderMark then c.column else c.column + 1⟩

/-- The place after `n` more characters. -/
def advance : Nat → Cursor → Cursor
  | 0, c => c
  | n + 1, c => advance n c.next

/-- The place after the characters that satisfy `p`. -/
def skipWhile (p : Char → Bool) (c : Cursor) : Cursor := c.advance (c.rest.takeWhile p).length

/-- The place after the spaces. -/
def skipSpaces (c : Cursor) : Cursor := c.skipWhile (· = ' ')

/-- The characters that satisfy `p`, and the place after them. -/
def takeWhile (p : Char → Bool) (c : Cursor) : List Char × Cursor :=
  (c.rest.takeWhile p, c.skipWhile p)

/-- The line end here and the place after it. The line and paragraph separators stand for themselves
and all other line ends for a line feed. -/
def lineBreak? (c : Cursor) : Option (Char × Cursor) :=
  match c.rest with
  | '\r' :: '\n' :: _ => some ('\n', c.advance 2)
  | char :: _ =>
    if char = '\u2028' || char = '\u2029' then some (char, c.next)
    else if isBreak char then some ('\n', c.next)
    else none
  | [] => none

/-- The line end here, if there is one, and the place after it. -/
def lineBreak (c : Cursor) : List Char × Cursor :=
  match c.lineBreak? with
  | some (char, after) => ([char], after)
  | none => ([], c)

/-- The place after a comment, if one is here. -/
def skipComment (c : Cursor) : Cursor := if c.sees '#' then c.skipWhile (!isBreak ·) else c

/-- Whether one of the marks between documents is here: three times `mark` and a gap. -/
def atMark (c : Cursor) (mark : Char) : Bool :=
  match c.rest with
  | a :: b :: d :: more => a = mark && b = mark && d = mark && endsToken more.head?
  | _ => false

/-- Whether a mark between documents is here. -/
def atDocumentMark (c : Cursor) : Bool := c.atMark '-' || c.atMark '.'

end Cursor

end ActionItems.Yaml
