import ActionItems.Comment.Override
import ActionItems.Keyed

/-!
# Comment grammars by file extension

A table from file extensions to comment grammars. It starts with the grammars of common languages
(`standardGrammars`), and overrides take the place of an extension's entry, the last one winning.
`Table.resolve` looks an extension up, whatever its case and with or without a point in front.
-/

namespace ActionItems.Comment

/-- Line comments only. -/
def lineComments (line : String) : Grammar String := ⟨line, none⟩

/-- Line comments and blocks. -/
def withBlocks (line opening closing : String) : Grammar String := ⟨line, some ⟨opening, closing⟩⟩

/-- The extensions of common languages, with the grammar that they share. -/
def standardGroups : List (List String × Grammar String) := [
  (["md", "html", "xml"], withBlocks "<!--" "<!--" "-->"),
  (["astro"], withBlocks "//" "<!--" "-->"),
  (["js", "java", "ts", "c", "cpp", "cs", "php", "swift", "go", "kt", "rs", "dart", "scala", "sc",
    "groovy", "less", "sass", "scss"], withBlocks "//" "/*" "*/"),
  (["css"], withBlocks "/*" "/*" "*/"),
  (["r", "gitignore", "sh", "bash", "yml", "yaml"], lineComments "#"),
  (["rb"], withBlocks "#" "=begin" "=end"),
  (["pl"], withBlocks "#" "=" "=cut"),
  (["py"], withBlocks "#" "'''" "'''"),
  (["ps1"], withBlocks "#" "<#" "#>"),
  (["sql"], withBlocks "--" "/*" "*/"),
  (["hs"], withBlocks "--" "\x7b-" "-\x7d"),
  (["lua"], withBlocks "--" "--[[" "]]"),
  (["m"], withBlocks "%" "%\x7b" "%\x7d"),
  (["tex"], lineComments "%")]

/-- The grammars of common languages by extension. -/
def standardGrammars : Keyed (Grammar String) :=
  standardGroups.flatMap fun (extensions, grammar) => extensions.map fun e => (e, grammar)

/-- A table from file extensions to comment grammars. -/
abbrev Table (μ : Type) := Keyed (Grammar μ)

namespace Table

variable {μ : Type} [Marker μ]

/-- The table of common languages. -/
def standard : Table μ := standardGrammars.mapValues Grammar.ofTexts

/-- The table with one override in effect. -/
def override (table : Table μ) (o : Override μ) : Except GrammarError (Table μ) := do
  return table.put o.extension (← o.grammar)

/-- The table of common languages with overrides in effect. -/
def ofOverrides (overrides : List (Override μ)) : Except GrammarError (Table μ) :=
  overrides.foldlM override standard

/-- The overrides among entries; an entry that is refused is passed over, and one of another kind
than entries have is a fault. -/
def acceptedOverrides {α : Type} (read : α → Except Override.Fault (Override μ)) :
    List α → Except Override.Fault (List (Override μ))
  | [] => .ok []
  | entry :: more =>
    match read entry with
    | .ok o => return o :: (← acceptedOverrides read more)
    | .error fault =>
      if fault.isRefusal || fault = .noItems || fault = .unordered then acceptedOverrides read more
      else .error fault

/-- The grammar of an extension. -/
def resolve (table : Table μ) (extension : String) : Option (Grammar μ) :=
  table.find? (normalizeExtension extension)

/-- The extensions of a table in the order of their characters. -/
def extensions (table : Table μ) : List String := table.keys.mergeSort fun a b => decide (a ≤ b)

/-- The grammars of a table whose markers are all texts. -/
def texts (table : Table μ) : Table String :=
  table.filterMap fun (e, g) => g.texts?.map fun t => (e, t)

/-- Whether an extension has a grammar with a marker that is no text. -/
def isUnusable (table : Table μ) (extension : String) : Bool :=
  match table.resolve extension with
  | some g => g.texts?.isNone
  | none => false

end Table

end ActionItems.Comment
