import ActionItems.Comment.Scan
import ActionItems.Diff.AddedLines
import ActionItems.Glob
import ActionItems.Options
import ActionItems.Report.Grouping
import ActionItems.Report.Links

/-!
# Analysis of a change set

`analyze` takes a diff through all stages: the added lines of the files that are not ignored, the
lines among them with an action item in a comment, and the ranges that these make up. Its result, an
`Analysis`, has the matches and the ranges of the same files; `report?` writes the report on it.
-/

namespace ActionItems

/-- The action items of a change set. -/
structure Analysis where
  found : Keyed (List Match)
  ranges : Keyed (List LineRange)
deriving Repr, DecidableEq

/-- Why a change set is not analysed. -/
inductive AnalysisError where
  | pattern (error : Pattern.ReadError)
  | diff (error : Diff.ReadError)
  | grammar (error : Comment.GrammarError)
  | range (error : LineError)
  /-- Matches and ranges are not of the same files. -/
  | differentFiles
deriving Repr, DecidableEq

/-- The wording of a failed analysis. -/
def AnalysisError.message : AnalysisError → String
  | .pattern e => e.message
  | .diff e => e.message
  | .grammar e => e.message
  | .range e => e.message
  | .differentFiles => "Matches and ranges must cover the same files"

namespace Analysis

/-- The analysis with matches and ranges, which must be of the same files. -/
def make (found : Keyed (List Match)) (ranges : Keyed (List LineRange)) :
    Except AnalysisError Analysis :=
  if found.keys.all (ranges.keys.contains ·) && ranges.keys.all (found.keys.contains ·) then
    .ok ⟨found, ranges⟩
  else .error .differentFiles

/-- The number of matches. -/
def total (a : Analysis) : Nat := (a.found.flatMap Prod.snd).length

/-- Whether there are matches. -/
def hasItems (a : Analysis) : Bool := decide (0 < a.total)

/-- The number of matches in a file. -/
def countFor (a : Analysis) (path : String) : Nat := ((a.found.find? path).getD []).length

/-- The number of matches in every file. -/
def counts (a : Analysis) : Keyed Int := a.found.mapValues fun ms => (ms.length : Int)

/-- How the report on an analysis of a repository at a commit is laid out. -/
def layout (options : Options) (repository commit : String) : Report.Layout :=
  .make options.additionalLines (Report.linkBase repository commit)

/-- The report on an analysis of a repository at a commit. -/
def report (a : Analysis) (options : Options) (repository commit : String) : Report :=
  (layout options repository commit).render a.ranges a.counts

/-- The report, unless one of its numbers has too many digits. -/
def report? (a : Analysis) (options : Options) (repository commit : String) :
    Except Number.IntegerError Report :=
  if (layout options repository commit).hasWritableNumbers a.ranges a.counts then
    .ok (a.report options repository commit)
  else .error .unwritable

end Analysis

/-- How the matches of an analysis are grouped. -/
def Options.grouping (o : Options) : Grouping := ⟨o.additionalLines, o.alwaysSplitSnippets⟩

/-- The keywords of an analysis. -/
def Options.keywords (o : Options) : Keywords := .ofList o.actionItems o.caseSensitive

/-- The ranges of the matches of every file. -/
def groupAll (g : Grouping) (found : Keyed (List Match)) :
    Except LineError (Keyed (List LineRange)) :=
  found.mapM fun (path, ms) => return (path, ← g.group ms)

/-- The action items that a diff adds. -/
def analyze [CharNames] (options : Options) (diff : String) : Except AnalysisError Analysis := do
  let ignored ← (Glob.compileAll options.ignoreFiles).mapError .pattern
  let files ← (Diff.addedLines (Glob.anyMatch ignored) diff).mapError .diff
  let table ← (Comment.Table.ofOverrides options.addLanguages).mapError .grammar
  let found := Comment.scan table options.keywords options.multilineComments files
  let ranges ← (groupAll options.grouping found).mapError .range
  Analysis.make found ranges

end ActionItems
