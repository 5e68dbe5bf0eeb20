import ActionItems.Settings.Basic
import ActionItems.Text.Case
import ActionItems.Yaml.Document

/-!
# Where settings come from

`Settings.ofEnvironment` reads the settings from the variables of an environment, where numbers are
written as texts; `Settings.read` reads them from a YAML text with a section each, whose values are
taken as they are.
-/

namespace ActionItems.Settings

open ActionItems.Number (IntegerError readInteger)

/-! ### Variables -/

/-- The variables of an environment. -/
abbrev Environment := List (String × String)

/-- The text of a variable, `absent` if it is not set. -/
def Environment.text (env : Environment) (name absent : String) : String :=
  (env.lookup name).getD absent

/-- The text of a variable, if it is set. -/
def Environment.textOrNull (env : Environment) (name : String) : Value :=
  (env.lookup name).elim .null .text

/-- The integer in a variable, `absent` if it is not set. -/
def Environment.integer (env : Environment) (name : String) (absent : Int) :
    Except IntegerError Value :=
  match env.lookup name with
  | none => .ok (.int absent)
  | some text => (readInteger 10 text).map .int

/-- The integer in a variable, null if it is not set or empty. -/
def Environment.integerOrNull (env : Environment) (name : String) : Except IntegerError Value :=
  match env.lookup name with
  | none | some "" => .ok .null
  | some text => (readInteger 10 text).map .int

/-- Whether a variable says yes. -/
def Environment.flag (env : Environment) (name : String) : Value :=
  .bool (Text.lowerString (env.text name "false") == "true")

/-- The settings in the variables of an environment. -/
def ofEnvironment (env : Environment) : Except IntegerError Settings := do
  let timeout ← env.integer "GITHUB_TIMEOUT" 30
  let app ← env.integerOrNull "GITHUB_APP_IDENTIFIER"
  let port ← env.integer "PORT" 3000
  let maxSize ← env.integer "LOG_MAX_SIZE" defaultLogSize
  let backups ← env.integer "LOG_BACKUP_COUNT" 5
  return {
    service := {
      token := env.textOrNull "GITHUB_TOKEN"
      base := .text (env.text "GITHUB_API_URL" GitHub.defaultBase)
      timeout := timeout
      app := app
      secret := env.textOrNull "GITHUB_WEBHOOK_SECRET"
      name := .text (env.text "APP_FRIENDLY_NAME" "Todo PR Checker") }
    server := { host := .text (env.text "HOST" "0.0.0.0"), port := port }
    log := {
      level := .text (env.text "LOG_LEVEL" "INFO")
      format := .text (env.text "LOG_FORMAT" defaultLogFormat)
      file := env.textOrNull "LOG_FILE"
      maxSize := maxSize
      backups := backups }
    debug := env.flag "DEBUG" }

/-! ### Documents -/

/-- Why settings are not read from a document. -/
inductive ReadError where
  | document (error : Yaml.Error)
  /-- The document is no mapping. -/
  | noMapping
  /-- A section is no mapping, or one with keys that are no texts. -/
  | noSection
  | field (error : UnknownField)
deriving Repr

/-- The name and the value of an entry. -/
def namedEntry : Value × Value → Except ReadError (String × Value)
  | (.text name, value) => .ok (name, value)
  | _ => .error .noSection

/-- The fields of a section, which may be absent. -/
def sectionFields : Option Value → Except ReadError (List (String × Value))
  | none => .ok []
  | some (.map entries) => entries.mapM namedEntry
  | some _ => .error .noSection

/-- A section of a document, read into the standing one. -/
def readSection {σ : Type} (set? : String → Value → σ → Option σ) (standing : σ)
    (v? : Option Value) : Except ReadError σ := do
  (setAll set? (← sectionFields v?) standing).mapError .field

/-- The settings in the entries of a document. -/
def ofEntries (entries : List (Value × Value)) : Except ReadError Settings := do
  return {
    service := ← readSection ServiceSettings.set? {} (Value.lookup? "github" entries)
    server := ← readSection ServerSettings.set? {} (Value.lookup? "server" entries)
    log := ← readSection LogSettings.set? {} (Value.lookup? "logging" entries)
    debug := (Value.lookup? "debug" entries).getD (.bool false) }

/-- The settings in a document; an empty one leaves all as it stands. -/
def ofDocument (v : Value) : Except ReadError Settings :=
  if !v.isTruthy then .ok {}
  else
    match v with
    | .map entries => ofEntries entries
    | _ => .error .noMapping

/-- A text with line feeds for all carriage returns, those before a line feed included. -/
def plainBreaks : List Char → List Char
  | '\r' :: '\n' :: rest => '\n' :: plainBreaks rest
  | '\r' :: rest => '\n' :: plainBreaks rest
  | c :: rest => c :: plainBreaks rest
  | [] => []

/-- The settings in a YAML text. -/
def read (text : String) : Except ReadError Settings :=
  match Yaml.read (String.ofList (plainBreaks text.toList)) with
  | .ok v => ofDocument v
  | .error e => .error (.document e)

end ActionItems.Settings
