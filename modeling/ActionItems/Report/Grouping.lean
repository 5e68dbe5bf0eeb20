import ActionItems.Diff.Line

/-!
# Grouping matches into ranges

Matches of a file that lie close together share one range of lines. Two neighbouring matches are
split if they are more than `greatestGap` lines apart and the lines that a report adds after the
first do not reach up to the second; `Grouping.alwaysSplit` splits every two. `group` gives the
ranges in ascending order.
-/

namespace ActionItems

/-- Matches this many lines apart still share a range. -/
def greatestGap : Int := 3

/-- How matches are grouped. -/
structure Grouping where
  /-- The number of lines that a report adds after a range. -/
  additionalLines : Int := 0
  /-- Every match has a range of its own. -/
  alwaysSplit : Bool := false
deriving Repr, DecidableEq

namespace Grouping

/-- Whether a line begins a new range after an earlier one. -/
def splits (g : Grouping) (earlier later : Int) : Bool :=
  g.alwaysSplit ||
    (decide (later - earlier > greatestGap) && decide (later - (earlier + g.additionalLines) > 1))

/-- Matches in the order of their lines. -/
def sorted (found : List Match) : List Match := found.mergeSort fun a b => decide (a.line ≤ b.line)

/-- Matches in the order of their lines, parted where two neighbours are split. -/
def groups (g : Grouping) (found : List Match) : List (List Match) :=
  (sorted found).splitBy fun a b => !g.splits a.line b.line

/-- The range from the first match of a group to the last, if it has any. -/
def rangeOf? (group : List Match) : Option (Except LineError LineRange) :=
  match group.head?, group.getLast? with
  | some first, some last => some (LineRange.make first.file first.line last.line)
  | _, _ => none

/-- The ranges of the matches of a file. -/
def group (g : Grouping) (found : List Match) : Except LineError (List LineRange) :=
  ((g.groups found).filterMap rangeOf?).mapM id

end Grouping

end ActionItems
