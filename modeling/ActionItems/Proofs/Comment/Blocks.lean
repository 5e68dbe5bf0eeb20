import ActionItems.Comment.Scan
import Mathlib.Data.List.Flatten

/-!
# Comment blocks

The lines of a file are cut from the left into pieces (`Block.pieces`). Outside of blocks a line
that begins with the opening marker opens a block, and any other line is a piece of its own. A block
is its first line alone if what follows the opening marker there ends with the closing marker; if
not, it goes on through the first later line that ends with the closing marker, or to the last line.
Whether a line within a block begins with the opening marker makes no difference.

`Search.commentLines` are the lines that belong to comments: those of the blocks, and those that
begin with the line marker. A scan finds exactly the lines among them that mention a keyword
(`scanLines_eq_commentLines`). The state that it keeps from line to line is whether the next line
belongs to a block that was begun (`scanLines_inBlock`).
-/

namespace ActionItems.Comment

open ActionItems.Text

/-- The text of an added line without the blanks at its ends. -/
def trimmed (l : AddedLine) : List Char := strip l.text.toList

/-! ### Pieces -/

/-- A piece of a file. -/
inductive Piece where
  /-- A line outside of blocks. -/
  | single (line : AddedLine)
  | block (lines : List AddedLine)
deriving Repr, DecidableEq

/-- The lines of a piece. -/
def Piece.lines : Piece → List AddedLine
  | single line => [line]
  | block lines => lines

namespace Block

/-- Whether a line begins with the opening marker. -/
def opensOn (b : Block String) (l : AddedLine) : Bool := beginsWith (trimmed l) b.opening

/-- Whether a line ends with the closing marker. -/
def closesOn (b : Block String) (l : AddedLine) : Bool := endsWith (trimmed l) b.closing

/-- Whether what follows the opening marker on a line ends with the closing marker. -/
def closesBehindOpening (b : Block String) (l : AddedLine) : Bool :=
  endsWith ((trimmed l).drop b.opening.length) b.closing

/-- How many of the lines after the first line of a block belong to it. -/
def extent (b : Block String) (first : AddedLine) (later : List AddedLine) : Nat :=
  if b.closesBehindOpening first then 0 else later.findIdx b.closesOn + 1

/-- The pieces of a file. -/
def pieces (b : Block String) : List AddedLine → List Piece
  | [] => []
  | l :: later =>
    if b.opensOn l then
      .block (l :: later.take (b.extent l later)) :: pieces b (later.drop (b.extent l later))
    else .single l :: pieces b later
termination_by lines => lines.length

/-- The pieces have all lines of the file in order. -/
theorem flatMap_lines_pieces (b : Block String) (lines : List AddedLine) :
    (b.pieces lines).flatMap Piece.lines = lines := by
  induction lines using pieces.induct b with
  | case1 => rw [pieces]; rfl
  | case2 l later opens ih =>
    rw [pieces, if_pos opens, List.flatMap_cons, ih]
    simp [Piece.lines]
  | case3 l later opens ih =>
    rw [pieces, if_neg opens, List.flatMap_cons, ih]
    rfl

/-- The slash of the opening marker is no part of a closing one on the same line, but it is on a
later line. -/
example :
    let line (n : Nat) (text : String) : AddedLine := ⟨"a.c", n, text⟩
    (⟨"/*", "*/"⟩ : Block String).pieces [line 1 "/*/", line 2 " /*/ ", line 3 "x", line 4 "/**/"] =
      [.block [line 1 "/*/", line 2 " /*/ "], .single (line 3 "x"), .block [line 4 "/**/"]] := by
  decide +kernel

end Block

namespace Search

/-- Whether a line begins with the line marker. -/
def isMarked (s : Search) (l : AddedLine) : Bool := beginsWith (trimmed l) s.grammar.line

/-- Whether a line mentions a keyword. -/
def mentions (s : Search) (l : AddedLine) : Bool := s.keywords.occurIn (trimmed l)

/-- The lines of a piece that belong to a comment: all lines of a block, and another line if it is
marked. -/
def commentOf (s : Search) : Piece → List AddedLine
  | .single l => if s.isMarked l then [l] else []
  | .block lines => lines

/-- The lines of a file that belong to comments. If blocks do not span lines, a line belongs to one
if it begins with its opening marker. -/
def commentLines (s : Search) (lines : List AddedLine) : List AddedLine :=
  match s.grammar.block? with
  | none => lines.filter s.isMarked
  | some b =>
    if s.multiline then (b.pieces lines).flatMap s.commentOf
    else lines.filter fun l => s.isMarked l || b.opensOn l

/-- The matches among lines that belong to comments. -/
def matchesIn (s : Search) (lines : List AddedLine) : List Match :=
  (lines.filter s.mentions).map AddedLine.toMatch

variable {s : Search} {b : Block String}

theorem matchesIn_cons (s : Search) (l : AddedLine) (lines : List AddedLine) :
    s.matchesIn (l :: lines) = s.matchesIn [l] ++ s.matchesIn lines := by
  simp only [matchesIn, ← List.map_append, ← List.filter_append, List.singleton_append]

theorem matchesIn_append (s : Search) (lines more : List AddedLine) :
    s.matchesIn (lines ++ more) = s.matchesIn lines ++ s.matchesIn more := by
  simp only [matchesIn, List.filter_append, List.map_append]

/-! ### The state of a scan -/

/-- A scan finds the line that it is at if it belongs to a comment, and goes on in its next
state. -/
theorem scanLines_cons (s : Search) (inBlock : Bool) (l : AddedLine) (later : List AddedLine) :
    s.scanLines inBlock (l :: later) =
      s.matchesIn (if s.isComment inBlock (trimmed l) then [l] else []) ++
        s.scanLines (s.stillOpen inBlock (trimmed l)) later := by
  show (if s.isComment inBlock (trimmed l) && s.mentions l then
    l.toMatch :: s.scanLines (s.stillOpen inBlock (trimmed l)) later
    else s.scanLines (s.stillOpen inBlock (trimmed l)) later) = _
  cases s.isComment inBlock (trimmed l) with
  | false => rfl
  | true => cases hm : s.mentions l <;> simp [matchesIn, hm]

theorem scanLines_of_closed (h : ∀ text, s.stillOpen false text = false) (lines : List AddedLine) :
    s.scanLines false lines =
      s.matchesIn (lines.filter fun l => s.isComment false (trimmed l)) := by
  induction lines with
  | nil => rfl
  | cons l later ih =>
    rw [scanLines_cons, h, ih, List.filter_cons]
    split
    · rw [← matchesIn_cons]
    · rfl

section Blocks

variable (hb : s.grammar.block? = some b) (hm : s.multiline = true)
include hb hm

/-- In a block every line belongs to a comment, and only the closing marker at its end closes it. -/
theorem scanLines_true_cons (l : AddedLine) (later : List AddedLine) :
    s.scanLines true (l :: later) = s.matchesIn [l] ++ s.scanLines (!b.closesOn l) later := by
  have comment : s.isComment true (trimmed l) = true := by simp [isComment, isOpen]
  have state : s.stillOpen true (trimmed l) = !b.closesOn l := by
    simp [stillOpen, isOpen, closes, hb, hm, Block.closesOn]
  rw [scanLines_cons, state, if_pos comment]

/-- **A scan in a block** finds the lines up to the one that closes it. -/
theorem scanLines_inBlock (later : List AddedLine) :
    s.scanLines true later = s.matchesIn (later.take (later.findIdx b.closesOn + 1)) ++
      s.scanLines false (later.drop (later.findIdx b.closesOn + 1)) := by
  induction later with
  | nil => rfl
  | cons l later ih =>
    rw [scanLines_true_cons hb hm, List.findIdx_cons]
    cases hc : b.closesOn l with
    | true => rfl
    | false =>
      show s.matchesIn [l] ++ s.scanLines true later = _
      rw [ih, ← List.append_assoc, ← matchesIn_cons]
      rfl

/-- A line that opens a block is found in it, and the block goes on over its extent. -/
theorem scanLines_of_opensOn {l : AddedLine} (opens : b.opensOn l = true) (later : List AddedLine) :
    s.scanLines false (l :: later) = s.matchesIn (l :: later.take (b.extent l later)) ++
      s.scanLines false (later.drop (b.extent l later)) := by
  have begins : beginsWith (trimmed l) b.opening = true := opens
  have comment : s.isComment false (trimmed l) = true := by
    simp [isComment, beginsBlock, hb, begins]
  have state : s.stillOpen false (trimmed l) = !b.closesBehindOpening l := by
    simp [stillOpen, isOpen, beginsBlock, closes, hb, hm, begins, Block.closesBehindOpening]
  rw [scanLines_cons, state, if_pos comment, matchesIn_cons s l (later.take _), List.append_assoc]
  congr 1
  unfold Block.extent
  cases b.closesBehindOpening l with
  | true => rfl
  | false => exact scanLines_inBlock hb hm later

omit hm in
theorem scanLines_of_not_opensOn {l : AddedLine} (opens : b.opensOn l = false)
    (later : List AddedLine) :
    s.scanLines false (l :: later) =
      s.matchesIn (s.commentOf (.single l)) ++ s.scanLines false later := by
  have begins : beginsWith (trimmed l) b.opening = false := opens
  have comment : s.isComment false (trimmed l) = s.isMarked l := by
    simp [isComment, isOpen, beginsBlock, hb, begins, isMarked]
  have state : s.stillOpen false (trimmed l) = false := by
    simp [stillOpen, isOpen, beginsBlock, hb, begins]
  rw [scanLines_cons, state, comment]
  rfl

/-- A scan finds what the pieces of a file have. -/
theorem scanLines_eq_pieces (lines : List AddedLine) :
    s.scanLines false lines = s.matchesIn ((b.pieces lines).flatMap s.commentOf) := by
  induction lines using Block.pieces.induct b with
  | case1 => rw [Block.pieces]; rfl
  | case2 l later opens ih =>
    rw [scanLines_of_opensOn hb hm opens, Block.pieces, if_pos opens, List.flatMap_cons,
      matchesIn_append, ih]
    rfl
  | case3 l later opens ih =>
    rw [Bool.not_eq_true] at opens
    rw [scanLines_of_not_opensOn hb opens, Block.pieces, opens, if_neg Bool.false_ne_true,
      List.flatMap_cons, matchesIn_append, ih]

end Blocks

/-! ### Scans -/

theorem commentOf_sublist (s : Search) (p : Piece) : (s.commentOf p).Sublist p.lines := by
  cases p with
  | single l =>
    rw [commentOf, Piece.lines]
    split
    · exact List.Sublist.refl [l]
    · exact List.nil_sublist [l]
  | block lines => exact List.Sublist.refl lines

theorem commentLines_sublist (s : Search) (lines : List AddedLine) :
    (s.commentLines lines).Sublist lines := by
  unfold commentLines
  split
  · exact List.filter_sublist
  · next b hb =>
    split
    · have parts := List.Sublist.flatMap_right (b.pieces lines) fun p _ => s.commentOf_sublist p
      rwa [b.flatMap_lines_pieces] at parts
    · exact List.filter_sublist

/-- **A scan of a file** finds exactly the lines that belong to comments and mention a keyword. -/
theorem scanLines_eq_commentLines (s : Search) (lines : List AddedLine) :
    s.scanLines false lines = ((s.commentLines lines).filter s.mentions).map AddedLine.toMatch ∧
      (s.commentLines lines).Sublist lines := by
  refine ⟨?_, commentLines_sublist s lines⟩
  show _ = s.matchesIn (s.commentLines lines)
  unfold commentLines
  cases hb : s.grammar.block? with
  | none =>
    have closed : ∀ text, s.stillOpen false text = false := by
      simp [stillOpen, isOpen, beginsBlock, hb]
    rw [scanLines_of_closed closed]
    simp only [isComment, isOpen, beginsBlock, hb, Bool.and_false, Bool.or_false]
    rfl
  | some b =>
    cases hm : s.multiline with
    | true => exact scanLines_eq_pieces hb hm lines
    | false =>
      have closed : ∀ text, s.stillOpen false text = false := by simp [stillOpen, hm]
      rw [scanLines_of_closed closed]
      simp [isComment, isOpen, beginsBlock, hb, hm, isMarked, Block.opensOn]

end Search

end ActionItems.Comment
