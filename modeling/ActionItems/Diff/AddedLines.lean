import ActionItems.Diff.Header
import ActionItems.Diff.Line
import ActionItems.Keyed

/-!
# The added lines of a diff

`addedLines` reads a unified diff and lists the lines that it adds, file by file, with their numbers
in the new version. Only a line feed ends a line of a diff; carriage returns before it do not count.
A diff is read line by line (`Progress.step`): a file header opens a file, a hunk header sets the
number of the next line, and inside a hunk a line with a plus is an added line. Every line but a
removed one and the mark for a missing line break counts as a line of the new version. Files that
are to be ignored are passed over up to the next file header.
-/

namespace ActionItems.Diff

open ActionItems.Number ActionItems.Text

/-- Why a diff is not read. -/
inductive ReadError where
  /-- A hunk header has a number that is not converted. -/
  | number (error : IntegerError)
  | line (error : LineError)
  /-- A line was added to a file that was not opened. -/
  | unopened (path : String)
deriving Repr, DecidableEq

/-- The wording of a refusal. -/
def ReadError.message : ReadError → String
  | .number e => e.message
  | .line e => e.message
  | .unopened path => quote path

/-- The lines of a text, ended by line feeds. -/
def splitLines : List Char → List (List Char)
  | [] => [[]]
  | c :: rest =>
    if c = '\n' then [] :: splitLines rest
    else
      match splitLines rest with
      | [] => [[c]]
      | line :: more => (c :: line) :: more

/-- What was read of a diff: the added lines by file, the file and hunk that the next line belongs
to and its number. -/
structure Progress where
  files : Keyed (List AddedLine) := []
  current? : Option String := none
  /-- The current file is ignored. -/
  skipping : Bool := false
  inHunk : Bool := false
  line : Nat := 0
deriving Repr, DecidableEq

namespace Progress

/-- The state after a file header with `text` behind its mark. -/
def openFile (ignored : String → Bool) (p : Progress) (text : List Char) : Progress :=
  match headerPath? text with
  | none => { p with current? := none, inHunk := false, skipping := false }
  | some path =>
    if ignored path then { p with current? := some path, inHunk := false, skipping := true }
    else
      { p with
        files := p.files.put path [], current? := some path, inHunk := false, skipping := false }

/-- The state after a hunk header, before the line is counted. -/
def openHunk (p : Progress) (line : List Char) : Except ReadError Progress :=
  match hunkStart? line with
  | .error e => .error (.number e)
  | .ok none => .ok { p with inHunk := false }
  | .ok (some start) => .ok { p with inHunk := true, line := start - 1 }

/-- The state with a line added to a file. -/
def add (p : Progress) (path : String) (text : List Char) : Except ReadError Progress :=
  match p.files.find? path with
  | none => .error (.unopened path)
  | some lines =>
    match AddedLine.make path p.line (String.ofList text) with
    | .error e => .error (.line e)
    | .ok l => .ok { p with files := p.files.put path (lines ++ [l]) }

/-- Whether a line is absent from the new version. -/
def isAbsent (line : List Char) : Bool := line.head? == some '-' || line == noNewlineMark

/-- The state with a line counted. -/
def count (p : Progress) (line : List Char) : Progress :=
  if isAbsent line then p else { p with line := p.line + 1 }

/-- The state after a line that is no file header, before the line is counted. -/
def body (p : Progress) (line : List Char) : Except ReadError Progress :=
  if hunkMark.isPrefixOf line then p.openHunk line
  else
    match line, p.inHunk, p.current? with
    | '+' :: text, true, some path => p.add path text
    | _, _, _ => .ok p

/-- The state after a line without its ending. -/
def step (ignored : String → Bool) (p : Progress) (line : List Char) : Except ReadError Progress :=
  match dropStart? fileMark line with
  | some text => .ok (p.openFile ignored text)
  | none =>
    if p.skipping then .ok p
    else
      match p.body line with
      | .ok q => .ok (q.count line)
      | .error e => .error e

end Progress

/-- A line without the carriage returns at its end. -/
def dropReturns (line : List Char) : List Char := stripEndWhile (· == '\r') line

/-- The added lines of a diff by file, in the order of the diff, without the files to be ignored. -/
def addedLines (ignored : String → Bool) (diff : String) :
    Except ReadError (Keyed (List AddedLine)) := do
  let lines := (splitLines diff.toList).map dropReturns
  let p ← lines.foldlM (Progress.step ignored) {}
  return p.files

theorem splitLines_ne_nil (s : List Char) : splitLines s ≠ [] := by
  cases s with
  | nil => simp [splitLines]
  | cons c rest =>
    simp only [splitLines]
    split
    · simp
    · split <;> simp

theorem splitLines_append_newline (s t : List Char) :
    splitLines (s ++ '\n' :: t) = splitLines s ++ splitLines t := by
  induction s with
  | nil => simp [splitLines]
  | cons c s ih =>
    simp only [List.cons_append, splitLines, ih]
    split
    · simp
    · cases h : splitLines s with
      | nil => exact absurd h (splitLines_ne_nil s)
      | cons line more => simp

theorem splitLines_of_not_mem {s : List Char} (h : '\n' ∉ s) : splitLines s = [s] := by
  induction s with
  | nil => rfl
  | cons c s ih =>
    simp only [List.mem_cons, not_or] at h
    simp [splitLines, Ne.symm h.1, ih h.2]

theorem not_mem_of_mem_splitLines {s line : List Char} (h : line ∈ splitLines s) : '\n' ∉ line := by
  induction s generalizing line with
  | nil => simp_all [splitLines]
  | cons c s ih =>
    simp only [splitLines] at h
    split at h
    · rcases List.mem_cons.1 h with rfl | h
      · simp
      · exact ih h
    · next hc =>
      split at h
      · next hn => exact absurd hn (splitLines_ne_nil s)
      · next first more hs =>
        rw [hs] at ih
        rcases List.mem_cons.1 h with rfl | h
        · have := @ih first (by simp)
          simp [Ne.symm hc, this]
        · exact ih (by simp [h])

end ActionItems.Diff
