import ActionItems.Comment.Table
import ActionItems.Diff.Line
import ActionItems.Keyword

/-!
# Action items in comments

The added lines of a file are scanned from the first to the last. A line belongs to a comment if it
begins with the line marker or the marker that opens a block, or if a block that was opened on an
earlier line is still open; blanks at its ends do not count. A block is closed by a line that ends
with the closing marker, and the marker that opened it on that line does not count as part of the
closing one. A comment after code on the same line is not seen.

`scanLines` keeps the lines of one file that belong to a comment and mention a keyword; `scan` does
so for every file that has a grammar. Nothing is carried over from one file to the next.
-/

namespace ActionItems.Comment

open ActionItems.Text

/-- The extension of a path: the text after the last point of its last part, in small letters. -/
def fileExtension (path : String) : String :=
  let base := (path.toList.reverse.takeWhile (· ≠ '/')).reverse
  if base.contains '.' then
    String.ofList (lower (base.reverse.takeWhile (· ≠ '.')).reverse)
  else ""

/-- Whether a text begins with a marker. -/
def beginsWith (text : List Char) (marker : String) : Bool := marker.toList.isPrefixOf text

/-- Whether a text ends with a marker. -/
def endsWith (text : List Char) (marker : String) : Bool := marker.toList.isSuffixOf text

/-- What is looked for in the lines of a file. -/
structure Search where
  grammar : Grammar String
  keywords : Keywords
  /-- Whether blocks may span lines. -/
  multiline : Bool

namespace Search

/-- Whether a line begins with the marker that opens a block. -/
def beginsBlock (s : Search) (text : List Char) : Bool :=
  match s.grammar.block? with
  | some b => beginsWith text b.opening
  | none => false

/-- Whether a block is open while a line is looked at. -/
def isOpen (s : Search) (inBlock : Bool) (text : List Char) : Bool :=
  inBlock || (s.multiline && s.beginsBlock text)

/-- Whether a line belongs to a comment. -/
def isComment (s : Search) (inBlock : Bool) (text : List Char) : Bool :=
  beginsWith text s.grammar.line || s.beginsBlock text || s.isOpen inBlock text

/-- Whether a line ends the block that it is in. -/
def closes (s : Search) (inBlock : Bool) (text : List Char) : Bool :=
  match s.grammar.block? with
  | none => false
  | some b =>
    let opened := beginsWith text b.opening && !inBlock
    endsWith (if opened then text.drop b.opening.length else text) b.closing

/-- Whether a block is open after a line. -/
def stillOpen (s : Search) (inBlock : Bool) (text : List Char) : Bool :=
  s.multiline && s.isOpen inBlock text && !s.closes inBlock text

/-- Whether a line mentions an action item in a comment. -/
def finds (s : Search) (inBlock : Bool) (text : List Char) : Bool :=
  s.isComment inBlock text && s.keywords.occurIn text

/-- The lines of a file with an action item in a comment, where `inBlock` says whether a block is
open before the first of them. -/
def scanLines (s : Search) (inBlock : Bool) : List AddedLine → List Match
  | [] => []
  | l :: more =>
    let text := strip l.text.toList
    let rest := scanLines s (s.stillOpen inBlock text) more
    if s.finds inBlock text then l.toMatch :: rest else rest

end Search

/-- The lines with an action item in a comment by file; a file without any is left out. -/
def scan (table : Table String) (keywords : Keywords) (multiline : Bool)
    (files : Keyed (List AddedLine)) : Keyed (List Match) :=
  files.filterMap fun (path, lines) =>
    match table.resolve (fileExtension path) with
    | none => none
    | some grammar =>
      match Search.scanLines ⟨grammar, keywords, multiline⟩ false lines with
      | [] => none
      | found => some (path, found)

/-- `scan` with markers of any kind; it fails if it comes upon a marker that is no text. -/
def scan? {μ : Type} [Marker μ] (table : Table μ) (keywords : Keywords) (multiline : Bool)
    (files : Keyed (List AddedLine)) : Option (Keyed (List Match)) :=
  if files.any fun (path, lines) =>
    !lines.isEmpty && table.isUnusable (fileExtension path) then none
  else some (scan table.texts keywords multiline files)

end ActionItems.Comment
