import ActionItems.Pattern.Reader

/-!
# Texts in patterns

`literal` writes a text in the notation of search patterns so that it is read as itself: a backslash
goes before every character that may have a meaning there, blanks of ASCII included.
`Node.ignoringCase` is a pattern that takes its characters in any case.
-/

namespace ActionItems.Pattern

/-- The characters before which a backslash is written. -/
def specialChars : List Char :=
  ['(', ')', '[', ']', '\x7b', '\x7d', '?', '*', '+', '-', '|', '^', '$', '\\', '.', '&', '~', '#',
    ' ', '\t', '\n', '\r', '\x0b', '\x0c']

/-- A character in the notation of search patterns. -/
def literalChar (c : Char) : List Char := if specialChars.contains c then ['\\', c] else [c]

/-- A text in the notation of search patterns. -/
def literal (s : List Char) : List Char := s.flatMap literalChar

/-- A part of a set with its characters in any case. -/
def SetItem.ignoringCase : SetItem → List SetItem
  | .point n => [.letter n]
  | .range first last => (List.range' first (last + 1 - first)).map .letter
  | item => [item]

/-- A set with its characters in any case. -/
def CharSet.ignoringCase (s : CharSet) : CharSet :=
  ⟨s.negated, s.items.flatMap SetItem.ignoringCase⟩

/-- A pattern with its characters in any case; the texts of groups are asked for again as they
are. -/
def Node.ignoringCase : Node → Node
  | .empty => .empty
  | .char set => .char set.ignoringCase
  | .anchor a => .anchor a
  | .seq first second => .seq first.ignoringCase second.ignoringCase
  | .alt first second => .alt first.ignoringCase second.ignoringCase
  | .loop min max possessive body => .loop min max possessive body.ignoringCase
  | .group number body => .group number body.ignoringCase
  | .again number => .again number

end ActionItems.Pattern
