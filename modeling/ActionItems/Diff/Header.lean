import ActionItems.Number.Integer

/-!
# Headers of a unified diff

Two kinds of line give a diff its structure. A file header `+++ path` names the new version of a
file, usually with `b/` in front, and `/dev/null` if the file is removed (`headerPath?`). A hunk
header `@@ -a,b +c,d @@` says that the lines below it start at line `c` of the new version
(`hunkStart?`); its lengths may be missing, and numbers are written in digits of any script.
-/

namespace ActionItems.Diff

open ActionItems.Text ActionItems.Number

/-- The start of a file header. -/
def fileMark : List Char := "+++ ".toList

/-- The start of a hunk header. -/
def hunkMark : List Char := "@@ ".toList

/-- The line that says that a version of a file does not end in a line break. -/
def noNewlineMark : List Char := "\\ No newline at end of file".toList

/-- The path that stands for a file that does not exist. -/
def nowhere : List Char := "/dev/null".toList

/-- The text after `start`, if a text begins with it. -/
def dropStart? : List Char → List Char → Option (List Char)
  | [], s => some s
  | _ :: _, [] => none
  | c :: start, d :: s => if c = d then dropStart? start s else none

/-- The path in the text of a file header after its mark; `none` if the file is removed or the
header names none. -/
def headerPath? (text : List Char) : Option String :=
  let path := strip text
  if path = nowhere then none
  else
    let path := (dropStart? "b/".toList path).getD path
    if path.isEmpty then none else some (String.ofList path)

/-- The digits at the start of a text and the rest, if there is at least one digit. -/
def digits? (s : List Char) : Option (List Char × List Char) :=
  match s.span isDigit with
  | ([], _) => none
  | (digits, rest) => some (digits, rest)

/-- The text after a length that may follow a start line. -/
def skipLength (s : List Char) : List Char :=
  match s with
  | ',' :: rest =>
    match digits? rest with
    | some (_, rest) => rest
    | none => s
  | _ => s

/-- The digits of the start line in the new version, if a line is a hunk header. -/
def hunkDigits? (line : List Char) : Option (List Char) := do
  let rest ← dropStart? "-".toList (stripStart (← dropStart? "@@".toList line))
  let (_, rest) ← digits? rest
  let rest ← dropStart? "+".toList (stripStart (skipLength rest))
  let (start, rest) ← digits? rest
  let _ ← dropStart? "@@".toList (stripStart (skipLength rest))
  return start

/-- The line of the new version at which the lines below a hunk header start. There is none if the
header is malformed or the new version has no such lines. -/
def hunkStart? (line : List Char) : Except IntegerError (Option Nat) :=
  match hunkDigits? line with
  | none => .ok none
  | some digits => do
    let start ← readInteger 10 (String.ofList digits)
    return if start > 0 then some start.toNat else none

theorem dropStart?_append (start rest : List Char) :
    dropStart? start (start ++ rest) = some rest := by
  induction start with
  | nil => simp [dropStart?]
  | cons c start ih => simp [dropStart?, ih]

theorem dropStart?_eq_some_iff {start s rest : List Char} :
    dropStart? start s = some rest ↔ s = start ++ rest := by
  constructor
  · induction start generalizing s with
    | nil => simp [dropStart?]
    | cons c start ih =>
      cases s with
      | nil => simp [dropStart?]
      | cons d s =>
        simp only [dropStart?]
        split
        · next h => intro hr; simp [h, ih hr]
        · simp
  · rintro rfl
    exact dropStart?_append start rest

end ActionItems.Diff
