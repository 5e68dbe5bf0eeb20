import ActionItems.Pattern.Literal
import ActionItems.Text.Blank

/-!
# Keywords

A keyword is looked for as a search pattern: its characters one after the other, between word
boundaries (`Keywords.asPattern`). Without regard to case each character may be any letter that is
the same. Blanks at the ends of a text do not count, and empty keywords are passed over.
-/

namespace ActionItems

/-- Keywords to look for. -/
structure Keywords where
  words : List String
  /-- Whether capital and small letters are told apart. -/
  caseSensitive : Bool
deriving Repr, DecidableEq

namespace Keywords

/-- The keywords of a list that are not empty. -/
def ofList (words : List String) (caseSensitive : Bool) : Keywords :=
  ⟨words.filter fun w => !w.isEmpty, caseSensitive⟩

/-- The number of keywords. -/
def size (k : Keywords) : Nat := k.words.length

/-- A keyword between word boundaries, in the notation of search patterns. -/
def asPattern (word : String) : List Char :=
  ['\\', 'b'] ++ Pattern.literal word.toList ++ ['\\', 'b']

/-- The search pattern of a keyword; no character is asked for by its name. -/
def compile (caseSensitive : Bool) (word : String) : Except Pattern.ReadError Pattern.Node := do
  let node ← @Pattern.read CharNames.none (asPattern word)
  return if caseSensitive then node else node.ignoringCase

/-- The search patterns of keywords. -/
def patterns (k : Keywords) : Except Pattern.ReadError (List Pattern.Node) :=
  k.words.mapM (compile k.caseSensitive)

/-- Whether the pattern of some keyword occurs in a text. -/
def occurIn (k : Keywords) (text : List Char) : Bool :=
  match k.patterns with
  | .ok patterns => patterns.any fun node => Pattern.search node (Text.strip text)
  | .error _ => false

end Keywords

end ActionItems
