import ActionItems.Diff.Line
import ActionItems.Keyed
import ActionItems.Number.Integer
import ActionItems.Text.Blank

/-!
# Reports

A report on the action items of a change set: a title and a summary with their number, and for every
file a heading with a link, its number of items and one link per range of lines. The links lead to
the files at a commit (`linkBase`), with the lines of the range behind a `#`. There is no report
with a number of more digits than can be written (`Layout.hasWritableNumbers`).
-/

namespace ActionItems

open ActionItems.Number (showInt isWritable)
open ActionItems.Text

/-- What is said about the action items of a change set. -/
structure Report where
  title : String
  summary : String
  body : String
  total : Int
  /-- The links of each file. -/
  links : Keyed (List String)
deriving Repr, DecidableEq

namespace Report

/-- The address of the service's pages. -/
def pagesAddress : String := "https://github.com"

/-- The title if nothing was ever found. -/
def noItemsTitle : String := "✔ No action items found!"

/-- The title if all that was found before is gone. -/
def resolvedTitle : String := "✔ All action items have been resolved!"

/-- The summary if nothing is found. -/
def noItemsSummary : String :=
  "There are no new action items added in this Pull Request. " ++
    "If any are added later on, the bot will make sure to let you know.\n"

/-- What stands under every comment. -/
def footer : String := "\n----\nThis comment is kept up to date every time the check runs."

/-- The title if the check could not be completed. -/
def errorTitle : String := "An internal error has occurred!"

/-- The summary if the check could not be completed. -/
def errorSummary : String := "The check could not be completed. Re-run it to try again."

/-- The address of the files of a repository at a commit. -/
def linkBase (repository commit : String) : String :=
  pagesAddress ++ "/" ++ repository ++ "/blob/" ++ commit

/-- A number of action items in words. -/
def countItems (n : Int) : String := if n = 1 then "1 action item" else showInt n ++ " action items"

/-- The title for a number of action items. -/
def titleFor (n : Int) : String :=
  if n = 1 then "✘ 1 unresolved action item found!"
  else "✘ " ++ showInt n ++ " unresolved action items found!"

/-- The summary for a number of action items. -/
def summaryFor (n : Int) : String :=
  if n = 1 then "There is **1** unresolved action item in this Pull Request:\n\n"
  else "There are **" ++ showInt n ++ "** unresolved action items in this Pull Request:\n\n"

/-- Where links lead to and how many lines are added after each range. -/
structure Layout where
  additionalLines : Int
  base : String
deriving Repr, DecidableEq

namespace Layout

/-- A layout whose base has no slash at its end. -/
def make (additionalLines : Int) (base : String) : Layout :=
  ⟨additionalLines, String.ofList (stripEndWhile (· == '/') base.toList)⟩

/-- The lines of a range as the last part of a link. -/
def anchor (l : Layout) (r : LineRange) : String :=
  if r.isSingle && l.additionalLines == 0 then "#L" ++ toString r.first
  else "#L" ++ toString r.first ++ "-L" ++ showInt (r.last + l.additionalLines)

/-- The link to a file. -/
def fileLink (l : Layout) (path : String) : String := l.base ++ "/" ++ path

/-- The links to the ranges of a file. -/
def rangeLinks (l : Layout) (path : String) (ranges : List LineRange) : List String :=
  ranges.map fun r => l.fileLink path ++ l.anchor r

/-- The links to the ranges of every file. -/
def links (l : Layout) (ranges : Keyed (List LineRange)) : Keyed (List String) :=
  ranges.map fun (path, rs) => (path, l.rangeLinks path rs)

/-- The heading of a file and its links. -/
def fileSection (l : Layout) (counts : Keyed Int) (path : String) (links : List String) : String :=
  "\n## [`" ++ path ++ "`](" ++ l.fileLink path ++ ") (" ++
    countItems ((counts.find? path).getD 0) ++ "):\n" ++ String.join (links.map (· ++ " "))

/-- The report on ranges of lines, given the number of action items of every file. -/
def render (l : Layout) (ranges : Keyed (List LineRange)) (counts : Keyed Int) : Report :=
  let total := counts.foldr (fun (_, n) sum => n + sum) 0
  let links := l.links ranges
  { title := titleFor total
    summary := summaryFor total
    body := String.join (links.map fun (path, ls) => l.fileSection counts path ls)
    total := total
    links := links }

/-- Whether all numbers in a report can be written down: the lines of the ranges, the numbers of
action items in the files, and their sum. -/
def hasWritableNumbers (l : Layout) (ranges : Keyed (List LineRange)) (counts : Keyed Int) : Bool :=
  isWritable (l.render ranges counts).total && ranges.all fun (path, rs) =>
    isWritable ((counts.find? path).getD 0) &&
      rs.all fun r => isWritable r.first && isWritable (r.last + l.additionalLines)

end Layout

/-- The text of the comment on a change set. -/
def commentText (r : Report) : String := r.summary ++ r.body

end Report

end ActionItems
