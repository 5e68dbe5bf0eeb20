import ActionItems.Value

/-!
# Comment grammars

How comments are written in a kind of file: the marker of a comment line and, where comments may
span lines, the markers that open and close a block. Markers are texts wherever files are scanned;
in data that nobody has checked yet they may be any value. `Marker` has what both share, and
`Grammar.make` checks that no marker is empty and that blocks have both of theirs.
-/

namespace ActionItems.Comment

/-- What may stand for a comment marker. -/
class Marker (μ : Type) where
  ofText : String → μ
  /-- The marker as a text, if it is one. -/
  text? : μ → Option String
  /-- Whether the marker is neither empty nor zero nor false. -/
  isGiven : μ → Bool

instance : Marker String where
  ofText s := s
  text? s := some s
  isGiven s := !s.isEmpty

instance : Marker Value where
  ofText s := .text s
  text?
    | .text s => some s
    | _ => none
  isGiven := Value.isTruthy

/-- The markers of comments that may span lines. -/
structure Block (μ : Type) where
  opening : μ
  closing : μ
deriving Repr, DecidableEq

/-- How comments are written. -/
structure Grammar (μ : Type) where
  line : μ
  block? : Option (Block μ)
deriving Repr, DecidableEq

/-- Why markers do not make a grammar. -/
inductive GrammarError where
  | emptyLine
  | unpaired
  | emptyBlock
deriving Repr, DecidableEq

/-- The wording of a failed check. -/
def GrammarError.message : GrammarError → String
  | .emptyLine => "Line marker cannot be empty"
  | .unpaired => "Block start and block end must be given together"
  | .emptyBlock => "Block markers cannot be empty"

variable {μ : Type} [Marker μ]

/-- Whether a marker is the empty text. -/
def isEmptyText (m : μ) : Bool := Marker.text? m == some ""

/-- The grammar made of a line marker and the markers of blocks. -/
def Grammar.make (line : μ) (opening? closing? : Option μ) : Except GrammarError (Grammar μ) :=
  if Marker.isGiven line then
    match opening?, closing? with
    | none, none => .ok ⟨line, none⟩
    | some opening, some closing =>
      if isEmptyText opening || isEmptyText closing then .error .emptyBlock
      else .ok ⟨line, some ⟨opening, closing⟩⟩
    | _, _ => .error .unpaired
  else .error .emptyLine

/-- A grammar whose markers are all texts. -/
def Grammar.texts? (g : Grammar μ) : Option (Grammar String) := do
  let line ← Marker.text? g.line
  match g.block? with
  | none => return ⟨line, none⟩
  | some b => return ⟨line, some ⟨← Marker.text? b.opening, ← Marker.text? b.closing⟩⟩

/-- The grammar `g` of texts, with markers of any kind. -/
def Grammar.ofTexts (g : Grammar String) : Grammar μ :=
  ⟨Marker.ofText g.line, g.block?.map fun b => ⟨Marker.ofText b.opening, Marker.ofText b.closing⟩⟩

end ActionItems.Comment
