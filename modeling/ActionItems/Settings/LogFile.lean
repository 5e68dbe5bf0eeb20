import ActionItems.Settings.Validity
import ActionItems.Text.Case
import ActionItems.Text.DecimalDigit
import ActionItems.Text.Word

/-!
# Log files

Settings may name a file that is written to. `LogSettings.open?` opens it in a working directory
that has files but no directories, and checks the format of its lines, which must hold at least one
field such as `%(message)s`. The file is there even if the format is then refused.
-/

namespace ActionItems.Settings

open ActionItems.Text

/-! ### Formats of lines -/

/-- The format if an empty one is set. -/
def plainLogFormat : String := "%(message)s"

/-- The letters that end a field. -/
def fieldLetters : List Char := ['d', 'i', 'o', 'u', 'x', 'e', 'f', 'g', 'c', 'r', 's', 'a', '%']

/-- What is left of a text after a width: a star or some digits. -/
def dropWidth : List Char → List Char
  | '*' :: rest => rest
  | s => s.dropWhile isDigit

/-- What is left of a text after a point and a width, which stand together or not at all. -/
def dropPrecision : List Char → List Char
  | '.' :: '*' :: rest => rest
  | '.' :: c :: rest => if isDigit c then rest.dropWhile isDigit else '.' :: c :: rest
  | s => s

/-- Whether a text goes on with the flags, the width, the precision and the letter of a field. -/
def endsField (s : List Char) : Bool :=
  let unflagged := s.dropWhile fun c => ['#', '0', '+', ' ', '-'].contains c
  match dropPrecision (dropWidth unflagged) with
  | c :: _ => fieldLetters.any (sameLetter c)
  | [] => false

/-- Whether a text begins with a field: its name in brackets behind a percent sign, and how it is
written. -/
def startsField : List Char → Bool
  | '%' :: '(' :: rest =>
    match rest.takeWhile isWord, rest.dropWhile isWord with
    | _ :: _, ')' :: after => endsField after
    | _, _ => false
  | _ => false

/-- Whether a format has a field. -/
def hasField : List Char → Bool
  | [] => false
  | c :: rest => startsField (c :: rest) || hasField rest

/-! ### Opening -/

/-- A log file that is written to. -/
structure LogFile where
  name : String
  maxSize : Value
  backups : Value
  format : String
deriving Repr

/-- Why a log file is not written to. -/
inductive LogError where
  /-- The greatest size is no number. -/
  | size
  /-- The path is no text. -/
  | path
  /-- The path leads through a directory that is not there. -/
  | missing
  /-- The path leads through a file. -/
  | throughFile
  /-- The path leads to a directory. -/
  | directory
  /-- The format is no text. -/
  | formatKind
  /-- The format has no field. -/
  | format (text : String)
deriving Repr, DecidableEq

/-- The wording of a format without a field. -/
def formatMessage (text : String) : String := "Invalid format '" ++ text ++ "' for '%' style"

/-- The parts of a path without detours; parts that lead upwards stay at the beginning only. -/
def pathParts (path : String) : List String :=
  let parts := (path.splitOn "/").filter fun part => part != "" && part != "."
  (parts.foldl step []).reverse
where
  /-- The parts so far, the last one first, after one more. -/
  step (read : List String) (part : String) : List String :=
    match part, read with
    | "..", last :: before => if last = ".." then part :: read else before
    | _, _ => part :: read

/-- The name of the file at a path in a directory with some files. -/
def fileAt (files : List String) (path : String) : Except LogError String :=
  if path.startsWith "/" then .error .missing
  else
    match (pathParts path).dropWhile (· = "..") with
    | [] => .error .directory
    | [name] => .ok name
    | first :: _ :: _ => if files.contains first then .error .throughFile else .error .missing

/-- The name of the file that settings lead to in a directory with some files. -/
def logFileName (files : List String) (s : LogSettings) : Except LogError String := do
  let _ ← (compareWith s.maxSize 0).mapError fun _ => .size
  match s.file with
  | .text path => fileAt files path
  | _ => throw .path

/-- The format of lines that settings ask for. -/
def logFormat (s : LogSettings) : Except LogError String :=
  if !s.format.isTruthy then .ok plainLogFormat
  else
    match s.format with
    | .text text => if hasField text.toList then .ok text else .error (.format text)
    | _ => .error .formatKind

/-- The log files of an app, and the files in its directory. -/
structure Logs where
  current : List LogFile := []
  files : List String := []
deriving Repr

/-- The logs after a file was made. -/
def Logs.touch (logs : Logs) (name : String) : Logs :=
  { logs with files := if logs.files.contains name then logs.files else logs.files ++ [name] }

/-- The logs after the file that settings name is opened, and what was wrong with it. -/
def Logs.add (logs : Logs) (s : LogSettings) : Logs × Except LogError Unit :=
  if !s.file.isTruthy then (logs, .ok ())
  else
    match logFileName logs.files s with
    | .error e => (logs, .error e)
    | .ok name =>
      let logs := logs.touch name
      match logFormat s with
      | .error e => (logs, .error e)
      | .ok format =>
        ({ logs with current := logs.current ++ [⟨name, s.maxSize, s.backups, format⟩] }, .ok ())

end ActionItems.Settings
