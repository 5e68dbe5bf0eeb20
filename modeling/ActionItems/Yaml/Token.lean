import ActionItems.Calendar
import ActionItems.Number.Integer

/-!
# Tokens of YAML

The parts that a YAML text is made of: scalars with their text, the properties in front of a node,
the indicators of flow collections, and for block collections, which indentation alone delimits,
tokens that say where they begin and end. A scalar's text is given as code points, since an escape
may name a surrogate. `Error` lists all that can be wrong with a text, from its characters to its
values.
-/

namespace ActionItems.Yaml

open ActionItems.Number

/-- What makes a text no YAML document. -/
inductive Fault where
  /-- A character may not stand in a text. -/
  | character
  /-- No token begins with the character here. -/
  | indicator
  /-- The colon after a key is missing. -/
  | missingColon
  /-- An entry, key or value may not stand here. -/
  | misplaced
  | directive
  | anchor
  | tag
  | blockHeader
  | escape
  /-- A quoted scalar does not end. -/
  | unterminated
  /-- The tokens are not in an order that makes a document. -/
  | form
  | undefinedAlias
  | duplicateAnchor
  | severalDocuments
  /-- No value is known for a tag. -/
  | unknownTag
  /-- A node is of another kind than its tag asks for. -/
  | kind
  /-- The key of an entry is a collection. -/
  | key
  /-- What is merged into a mapping is no mapping. -/
  | merge
  | binary
deriving Repr, DecidableEq

/-- Why a text gives no value. -/
inductive Error where
  /-- The text is no YAML document of known tags. -/
  | malformed (fault : Fault)
  | integer (error : IntegerError)
  /-- The text, given as code points, is no floating-point number. -/
  | decimal (points : List Nat)
  | calendar (error : CalendarError)
  /-- An escape names a number that is no code point. -/
  | codePoint
  /-- An escape names a number that no character is numbered with. -/
  | codePointSize
  /-- A text is none of the words for truth values. -/
  | truthWord
  /-- A number has no characters. -/
  | emptyNumber
  /-- A text has not the form of a date. -/
  | dateForm
  /-- A date is no text. -/
  | dateKind
  /-- A floating-point number has too many parts to base sixty. -/
  | sexagesimal
deriving Repr, DecidableEq

/-- What a directive says. -/
inductive Directive where
  | version (major minor : Nat)
  | handle (handle meaning : String)
  | other
deriving Repr, DecidableEq

/-- A token. -/
inductive Token where
  | directive (d : Directive)
  | documentStart
  | documentEnd
  | streamEnd
  | blockSequenceStart
  | blockMappingStart
  | blockEnd
  | flowSequenceStart
  | flowSequenceEnd
  | flowMappingStart
  | flowMappingEnd
  | flowEntry
  | blockEntry
  | key
  | value
  | alias (name : String)
  | anchor (name : String)
  | tag (handle? : Option String) (suffix : String)
  /-- A scalar; `plain` says that it is not quoted. -/
  | scalar (text : List Nat) (plain : Bool)
deriving Repr, DecidableEq

end ActionItems.Yaml
