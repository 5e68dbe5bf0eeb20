import ActionItems.Comment.Override
import ActionItems.Number.Integer
import ActionItems.Text.Word

/-!
# Options of a repository

A repository may say in a document how its change sets are checked. Each option is read on its own
by a function from values (`readPostComment?`, `readWords?`, …): a value of another kind or out of
bounds counts as absent, and an absent option has its standing value (`Options` has them as
defaults). `Setting.read?` reads one option by its name and `Options.ofValue` all of them.
-/

namespace ActionItems

open ActionItems.Comment ActionItems.Text

/-- When a comment is posted on a change set. -/
inductive PostComment where
  | itemsFound
  | always
  | never
deriving Repr, DecidableEq

/-- The word for a choice. -/
def PostComment.word : PostComment → String
  | .itemsFound => "items_found"
  | .always => "always"
  | .never => "never"

/-- How a change set is checked. -/
structure Options where
  postComment : PostComment := .itemsFound
  /-- Comments may span lines. -/
  multilineComments : Bool := true
  /-- The keywords of action items. -/
  actionItems : List String := ["todo", "fixme", "bug"]
  caseSensitive : Bool := false
  /-- Comment grammars that the repository adds. -/
  addLanguages : List (Override String) := []
  /-- Globs of the files to pass over. -/
  ignoreFiles : List String := []
  /-- The number of lines that a link shows after a match. -/
  additionalLines : Nat := 0
  /-- Every match has a link of its own. -/
  alwaysSplitSnippets : Bool := false
deriving Repr, DecidableEq

namespace Options

/-- The greatest number of keywords, repeated ones included. -/
def wordsLimit : Nat := 15

/-- The greatest number of added languages. -/
def languagesLimit : Nat := 10

/-- The greatest number of globs. -/
def globsLimit : Nat := 7

/-- The greatest number of additional lines. -/
def linesLimit : Nat := 10

/-- The items of a value that is a list of some kind. -/
def items? : Value → Option (List Value)
  | .list items | .tuple items | .set items => some items
  | _ => none

/-- A text without halves of surrogate pairs, as a constrained text has to be. -/
def text? : Value → Option String
  | .text s => some s
  | _ => none

/-- A text or nothing. -/
def optionalText? : Value → Option (Option String)
  | .null => some none
  | v => v.text?.map some

/-- A list of at least `least` and at most `greatest` items, each read by `read`. -/
def readList? {α : Type} (read : Value → Option α) (least greatest : Nat) (v : Value) :
    Option (List α) :=
  match items? v with
  | none => none
  | some items =>
    if least ≤ items.length ∧ items.length ≤ greatest then items.mapM read else none

/-- The choice that a value makes. -/
def readPostComment? : Value → Option PostComment
  | .text s => [PostComment.itemsFound, .always, .never].find? fun c => c.word == s
  | _ => none

/-- A truth value. -/
def readFlag? : Value → Option Bool
  | .bool b => some b
  | _ => none

/-- A keyword: a text that is not empty. -/
def readWord? (v : Value) : Option String := (text? v).filter fun s => !s.isEmpty

/-- Keywords, each once. -/
def readWords? (v : Value) : Option (List String) :=
  (readList? readWord? 0 wordsLimit v).map List.eraseDups

/-- The items of an added language. -/
def readLanguage? : Value → Option (List (Option String)) := readList? optionalText? 2 4

/-- The overrides among lists of items. -/
def overridesOf (entries : List (List (Option String))) : List (Override String) :=
  entries.filterMap fun entry => (Override.ofItems Override.readText entry).toOption

/-- Added languages; one that gives no override is left out. -/
def readLanguages? (v : Value) : Option (List (Override String)) :=
  (readList? readLanguage? 1 languagesLimit v).map overridesOf

/-- The marks that a glob may have. -/
def globMarks : List Char := ['*', '[', ']', '\x7b', '\x7d', '?', '.', '/', '-']

/-- Whether a character may stand in a glob. -/
def isGlobChar (c : Char) : Bool := isWord c || globMarks.contains c

/-- Whether a text may be a glob: word characters and marks, and perhaps a line feed at the end. -/
def isGlob (s : List Char) : Bool :=
  let body := dropFinalNewline s
  !body.isEmpty && body.all isGlobChar

/-- A glob. -/
def readGlob? (v : Value) : Option String := (text? v).filter fun s => isGlob s.toList

/-- Globs. -/
def readGlobs? : Value → Option (List String) := readList? readGlob? 1 globsLimit

/-- A number of lines. -/
def readLines? : Value → Option Nat
  | .int i => if 0 ≤ i ∧ i ≤ linesLimit then some i.toNat else none
  | _ => none

end Options

/-- The value of one option. -/
inductive Setting where
  | choice (c : PostComment)
  | flag (b : Bool)
  | words (words : List String)
  | languages (overrides : List (Override String))
  | globs (globs : List String)
  | lines (n : Nat)
deriving Repr, DecidableEq

/-- How options are read, by their names. -/
def Setting.readers : List (String × (Value → Option Setting)) := [
  ("post_comment", fun v => (Options.readPostComment? v).map .choice),
  ("multiline_comments", fun v => (Options.readFlag? v).map .flag),
  ("action_items", fun v => (Options.readWords? v).map .words),
  ("case_sensitive", fun v => (Options.readFlag? v).map .flag),
  ("add_languages", fun v => (Options.readLanguages? v).map .languages),
  ("ignore_files", fun v => (Options.readGlobs? v).map .globs),
  ("additional_lines", fun v => (Options.readLines? v).map .lines),
  ("always_split_snippets", fun v => (Options.readFlag? v).map .flag)]

/-- The names of the options. -/
def Setting.names : List String := Setting.readers.map Prod.fst

/-- A name that no option has. -/
structure UnknownOption where
  name : String
deriving Repr, DecidableEq

/-- The option of a name, if its value is there and valid. Nothing is said about the name of an
option without a value. -/
def Setting.read? (name : String) : Value → Except UnknownOption (Option Setting)
  | .null => .ok none
  | v =>
    match Setting.readers.lookup name with
    | some read => .ok (read v)
    | none => .error ⟨name⟩

namespace Options

/-- The options in the entries of a mapping. -/
def ofEntries (entries : List (Value × Value)) : Options :=
  let standing : Options := {}
  let get {α : Type} (name : String) (read : Value → Option α) (absent : α) : α :=
    (((Value.lookup? name entries).bind read).getD absent)
  { postComment := get "post_comment" readPostComment? standing.postComment
    multilineComments := get "multiline_comments" readFlag? standing.multilineComments
    actionItems := get "action_items" readWords? standing.actionItems
    caseSensitive := get "case_sensitive" readFlag? standing.caseSensitive
    addLanguages := get "add_languages" readLanguages? standing.addLanguages
    ignoreFiles := get "ignore_files" readGlobs? standing.ignoreFiles
    additionalLines := get "additional_lines" readLines? standing.additionalLines
    alwaysSplitSnippets := get "always_split_snippets" readFlag? standing.alwaysSplitSnippets }

mutual

/-- Whether the name of an entry can be written down: a number of too many digits cannot, nor can a
tuple with one in it. -/
def isWritable : Value → Bool
  | .int i => Number.isWritable i
  | .tuple items => areWritable items
  | _ => true

/-- Whether all items of a tuple can be written down. -/
def areWritable : List Value → Bool
  | [] => true
  | v :: vs => isWritable v && areWritable vs

end

/-- The options that a value holds. A value that is no mapping leaves every option as it stands, and
so do entries that name no option, but their names must be such as can be written down. -/
def ofValue : Value → Except Number.IntegerError Options
  | .map entries =>
    if entries.all fun (k, _) => isWritable k then .ok (ofEntries entries)
    else .error .unwritable
  | _ => .ok {}

end Options

end ActionItems
