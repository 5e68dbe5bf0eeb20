/-!
# Lines of a change set

`AddedLine` is a line that a change adds, `Match` a line in which an action item was found and
`LineRange` a run of lines that a report links to. Lines are counted from one in the new version of
their file. Each of the three is made by a function that checks its parts (`AddedLine.make`,
`Match.make`, `LineRange.make`), and `LineError` says which check failed.
-/

namespace ActionItems

/-- Why parts do not make a line or a range of lines. -/
inductive LineError where
  | notPositive
  | emptyPath
  | reversed
deriving Repr, DecidableEq

/-- The wording of a failed check. -/
def LineError.message : LineError → String
  | .notPositive => "Line numbers must be positive"
  | .emptyPath => "File path cannot be empty"
  | .reversed => "first cannot be greater than last"

/-- A line that a change adds to a file. -/
structure AddedLine where
  file : String
  line : Nat
  text : String
deriving Repr, DecidableEq

/-- A line in which an action item was found. -/
structure Match where
  file : String
  line : Nat
  text : String
deriving Repr, DecidableEq

/-- The lines of a file from `first` to `last`. -/
structure LineRange where
  file : String
  first : Nat
  last : Nat
deriving Repr, DecidableEq

/-- An added line, of a positive number and in a file with a path. -/
def AddedLine.make (file : String) (line : Int) (text : String) : Except LineError AddedLine :=
  if line < 1 then .error .notPositive
  else if file.isEmpty then .error .emptyPath
  else .ok ⟨file, line.toNat, text⟩

/-- A match, on a line of a positive number. -/
def Match.make (file : String) (line : Int) (text : String) : Except LineError Match :=
  if line < 1 then .error .notPositive else .ok ⟨file, line.toNat, text⟩

/-- A range, of positive numbers in order. -/
def LineRange.make (file : String) (first last : Int) : Except LineError LineRange :=
  if first < 1 then .error .notPositive
  else if first > last then .error .reversed
  else .ok ⟨file, first.toNat, last.toNat⟩

/-- The match that an added line is. -/
def AddedLine.toMatch (l : AddedLine) : Match := ⟨l.file, l.line, l.text⟩

/-- Whether a range is one line. -/
def LineRange.isSingle (r : LineRange) : Bool := r.first == r.last

/-- Whether a range holds the line of a number. -/
def LineRange.contains (r : LineRange) (line : Int) : Bool :=
  decide (r.first ≤ line) && decide (line ≤ r.last)

theorem AddedLine.make_ok {file text : String} {line : Nat} (hl : 1 ≤ line) (hf : file ≠ "") :
    AddedLine.make file line text = .ok ⟨file, line, text⟩ := by
  have : ¬ (line : Int) < 1 := by omega
  simp [AddedLine.make, this, hf]

theorem Match.make_ok {file text : String} {line : Nat} (hl : 1 ≤ line) :
    Match.make file line text = .ok ⟨file, line, text⟩ := by
  have : ¬ (line : Int) < 1 := by omega
  simp [Match.make, this]

theorem LineRange.make_ok {file : String} {first last : Nat} (hf : 1 ≤ first) (h : first ≤ last) :
    LineRange.make file first last = .ok ⟨file, first, last⟩ := by
  have h₁ : ¬ (first : Int) < 1 := by omega
  have h₂ : ¬ (first : Int) > last := by omega
  simp only [LineRange.make, h₁, h₂, if_false, Int.toNat_natCast]

theorem LineRange.contains_iff {r : LineRange} {line : Nat} :
    r.contains line = true ↔ r.first ≤ line ∧ line ≤ r.last := by
  simp [LineRange.contains]

end ActionItems
