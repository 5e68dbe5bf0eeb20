import ActionItems.Diff.AddedLines

/-!
# Written diffs

A change set as a unified diff shows it. A `Section` is about one file: some lines, the file header
and the hunks; a `Hunk` is its header and its `BodyLine`s. `write` puts the lines of the sections
one after the other, each with its `Ending`.

`Section.addedLines` are the lines that a section adds, numbered by their places in the new version.
`Section.WellFormed` says what a section has to be like for its lines to be told apart; what the
lines of the hunks say is left open but for line feeds. An added text that `ReadsAsHeader` makes its
line look like a file header.
-/

namespace ActionItems.Diff

open ActionItems.Number ActionItems.Text

/-! ### Lines -/

/-- How a line ends. -/
inductive Ending where
  | lineFeed
  | returnLineFeed
deriving Repr, DecidableEq

/-- The characters of an ending. -/
def Ending.chars : Ending → List Char
  | lineFeed => ['\n']
  | returnLineFeed => ['\r', '\n']

/-- Lines one after the other; `ending i` is the ending of line `i`. -/
def joinLines (ending : Nat → Ending) : List (List Char) → List Char
  | [] => []
  | line :: rest => line ++ (ending 0).chars ++ joinLines (fun i => ending (i + 1)) rest

/-- A text without line feeds. -/
def IsLine (text : String) : Prop := '\n' ∉ text.toList

instance (text : String) : Decidable (IsLine text) := inferInstanceAs (Decidable (¬ _))

/-- A line of a hunk. -/
inductive BodyLine where
  | added (text : String)
  | context (text : String)
  | removed (text : String)
  /-- The mark for a version that does not end in a line break. -/
  | noNewline
deriving Repr, DecidableEq

namespace BodyLine

/-- The characters of a line, behind the sign of its kind. -/
def chars : BodyLine → List Char
  | added text => '+' :: text.toList
  | context text => ' ' :: text.toList
  | removed text => '-' :: text.toList
  | noNewline => noNewlineMark

/-- The text of a line; the mark for a missing line break has none. -/
def text : BodyLine → String
  | added text => text
  | context text => text
  | removed text => text
  | noNewline => ""

/-- Whether the new version has a line. -/
def isNew : BodyLine → Bool
  | added _ => true
  | context _ => true
  | removed _ => false
  | noNewline => false

/-- The text that a line adds. -/
def added? : BodyLine → Option String
  | added text => some text
  | _ => none

theorem added?_eq_some_iff {line : BodyLine} {text : String} :
    line.added? = some text ↔ line = added text := by
  cases line <;> simp [added?]

end BodyLine

/-- The added lines among the lines of a hunk. The number of each is `start` and as many more as
there are lines of the new version before it. -/
def numbered (path : String) (start : Nat) (body : List BodyLine) : List AddedLine :=
  body.zipIdx.filterMap fun e =>
    e.1.added?.map fun text => ⟨path, start + (body.take e.2).countP BodyLine.isNew, text⟩

/-! ### Hunks and sections -/

/-- A stretch of changed lines: where it starts in both versions and how long it is there, the text
behind its header, and its lines. -/
structure Hunk where
  oldStart : Nat
  oldLength : Nat
  start : Nat
  length : Nat
  heading : String
  body : List BodyLine
deriving Repr, DecidableEq

namespace Hunk

/-- The start and the length of a hunk in a version. -/
def range (start length : Nat) : List Char := Nat.toDigits 10 start ++ ',' :: Nat.toDigits 10 length

/-- The part of a header that says where the hunk is. -/
def mark (h : Hunk) : List Char :=
  "@@ -".toList ++ range h.oldStart h.oldLength ++ " +".toList ++ range h.start h.length ++
    " @@".toList

/-- The header of a hunk. -/
def header (h : Hunk) : List Char := h.mark ++ h.heading.toList

/-- The lines of a hunk. -/
def lines (h : Hunk) : List (List Char) := h.header :: h.body.map BodyLine.chars

/-- The added lines of a hunk. -/
def addedLines (path : String) (h : Hunk) : List AddedLine := numbered path h.start h.body

end Hunk

/-- The changes to a file: the lines before the file header, the path in the header, and the
hunks. -/
structure Section where
  preamble : List String
  path : String
  hunks : List Hunk
deriving Repr, DecidableEq

namespace Section

/-- The header that names the file. -/
def header (s : Section) : List Char := fileMark ++ "b/".toList ++ s.path.toList

/-- The lines of a section. -/
def lines (s : Section) : List (List Char) :=
  s.preamble.map String.toList ++ s.header :: s.hunks.flatMap Hunk.lines

/-- The added lines of a section. -/
def addedLines (s : Section) : List AddedLine := s.hunks.flatMap (Hunk.addedLines s.path)

end Section

/-- A diff of sections; `ending i` is the ending of line `i`. -/
def write (ending : Nat → Ending) (sections : List Section) : String :=
  String.ofList (joinLines ending (sections.flatMap Section.lines))

/-! ### Well-formed sections -/

/-- An added line with this text looks like a file header. -/
def ReadsAsHeader (text : String) : Prop := "++ ".toList <+: text.toList

instance (text : String) : Decidable (ReadsAsHeader text) := inferInstanceAs (Decidable (_ <+: _))

/-- A line of a hunk that cannot be taken for a file header. -/
def BodyLine.NoHeader (line : BodyLine) : Prop := ∀ text ∈ line.added?, ¬ ReadsAsHeader text

instance (line : BodyLine) : Decidable line.NoHeader :=
  inferInstanceAs (Decidable (∀ text ∈ line.added?, ¬ ReadsAsHeader text))

/-- A line that may stand before a file header: it is no added line and no header of a hunk. -/
structure IsPreamble (text : String) : Prop where
  line : IsLine text
  not_added : ¬ ['+'] <+: text.toList
  not_hunk : ¬ hunkMark <+: text.toList

/-- A hunk starts at a line whose number is read, and has no line feeds in its lines. -/
structure Hunk.WellFormed (h : Hunk) : Prop where
  start_pos : 1 ≤ h.start
  start_short : (Nat.toDigits 10 h.start).length ≤ digitLimit
  heading : IsLine h.heading
  body : ∀ line ∈ h.body, IsLine line.text

/-- A section has a path that is left as it is when blanks at its end are dropped. -/
structure Section.WellFormed (s : Section) : Prop where
  preamble : ∀ text ∈ s.preamble, IsPreamble text
  path_ne : s.path ≠ ""
  path_line : IsLine s.path
  path_end : stripEnd s.path.toList = s.path.toList
  hunks : ∀ h ∈ s.hunks, h.WellFormed

/-- The sections are of different files, none of which is ignored. -/
structure WellFormed (ignored : String → Bool) (sections : List Section) : Prop where
  each : ∀ s ∈ sections, s.WellFormed
  nodup : (sections.map Section.path).Nodup
  kept : ∀ s ∈ sections, ignored s.path = false

/-- The lines of the hunks of some sections. -/
def bodyLines (sections : List Section) : List BodyLine :=
  sections.flatMap fun s => s.hunks.flatMap Hunk.body

end ActionItems.Diff
