import ActionItems.Options
import ActionItems.Yaml.Document

/-!
# The options file of a repository

A repository keeps its options in a YAML file, in a section of its own, beside those of other
programs. `Options.load` reads the file: a missing or empty file, one that is no YAML document and
one without the section leave every option as it stands.
-/

namespace ActionItems.Options

/-- The section that holds the options. -/
def section? : Value → Option Value := fun document => document.get? "todo-pr-checker"

/-- Where the options file may be; the first one that is there counts. -/
def filePaths : List String := [".github/config.yml", ".github/config.yaml"]

/-- Why an options file is not read. -/
inductive LoadError where
  /-- A value anywhere in the file cannot be. -/
  | document (error : Yaml.Error)
  | options (error : Number.IntegerError)
deriving Repr, DecidableEq

/-- The wording of a failed reading. -/
def LoadError.message : LoadError → String
  | .document e => e.message
  | .options e => e.message

/-- The options in a document. -/
def ofDocument (document : Value) : Except LoadError Options :=
  (ofValue ((section? document).getD .null)).mapError .options

/-- The options in the text of a file, if there is one. -/
def load (text? : Option String) : Except LoadError Options :=
  match text? with
  | none => .ok {}
  | some text =>
    if text.isEmpty then .ok {}
    else
      match Yaml.read text with
      | .ok document => ofDocument document
      | .error (.malformed _) => .ok {}
      | .error e => .error (.document e)

end ActionItems.Options
