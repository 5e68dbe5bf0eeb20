import ActionItems.GitHub.Call

/-!
# Settings

What is set for the app before it runs: how it talks to the service (`ServiceSettings`), where it
listens (`ServerSettings`), what it logs (`LogSettings`), and whether it runs for debugging. The
values come from a document and may be of any kind; `Settings.validate` says which of them can be
used. Each section sets a field by its name (`set?`), and `setAll` sets several. `Settings.document`
shows all of them and `Settings.publicDocument` all but the secrets.
-/

namespace ActionItems

/-- How the app talks to the service. -/
structure ServiceSettings where
  token : Value := .null
  base : Value := .text GitHub.defaultBase
  /-- The number of seconds that a request may take. -/
  timeout : Value := .int 30
  /-- The identifier of the app. -/
  app : Value := .null
  /-- The secret that deliveries are signed with. -/
  secret : Value := .null
  /-- The name that checks show. -/
  name : Value := .text "Todo PR Checker"
deriving Repr

/-- Where the app listens. -/
structure ServerSettings where
  host : Value := .text "0.0.0.0"
  port : Value := .int 3000
deriving Repr

/-- The format of a log line if nothing else is set. -/
def defaultLogFormat : String := "%(asctime)s - %(name)s - %(levelname)s - %(message)s"

/-- The greatest size of a log file if nothing else is set. -/
def defaultLogSize : Int := 10 * 1024 * 1024

/-- What the app logs. -/
structure LogSettings where
  level : Value := .text "INFO"
  format : Value := .text defaultLogFormat
  /-- The file that is written to, if there is one. -/
  file : Value := .null
  maxSize : Value := .int defaultLogSize
  /-- The number of full files that are kept. -/
  backups : Value := .int 5
deriving Repr

/-- What is set for the app. -/
structure Settings where
  service : ServiceSettings := {}
  server : ServerSettings := {}
  log : LogSettings := {}
  debug : Value := .bool false
deriving Repr

/-- The section with the field of a name set, if it has one. -/
def ServiceSettings.set? (name : String) (value : Value) (s : ServiceSettings) :
    Option ServiceSettings :=
  match name with
  | "token" => some { s with token := value }
  | "api_base_url" => some { s with base := value }
  | "timeout_seconds" => some { s with timeout := value }
  | "app_identifier" => some { s with app := value }
  | "webhook_secret" => some { s with secret := value }
  | "app_name" => some { s with name := value }
  | _ => none

/-- The section with the field of a name set, if it has one. -/
def ServerSettings.set? (name : String) (value : Value) (s : ServerSettings) :
    Option ServerSettings :=
  match name with
  | "host" => some { s with host := value }
  | "port" => some { s with port := value }
  | _ => none

/-- The section with the field of a name set, if it has one. -/
def LogSettings.set? (name : String) (value : Value) (s : LogSettings) : Option LogSettings :=
  match name with
  | "level" => some { s with level := value }
  | "format" => some { s with format := value }
  | "file_path" => some { s with file := value }
  | "max_file_size" => some { s with maxSize := value }
  | "backup_count" => some { s with backups := value }
  | _ => none

namespace Settings

/-- A field of a name that a section does not have. -/
structure UnknownField where
  name : String
deriving Repr, DecidableEq

/-- A section with fields set one after the other. -/
def setAll {σ : Type} (set? : String → Value → σ → Option σ) :
    List (String × Value) → σ → Except UnknownField σ
  | [], s => .ok s
  | (name, value) :: rest, s =>
    match set? name value s with
    | some s => setAll set? rest s
    | none => .error ⟨name⟩

/-- The fields of the service that are shown to anyone. -/
def publicFields (s : ServiceSettings) : List (String × Value) :=
  [("api_base_url", s.base), ("timeout_seconds", s.timeout), ("app_identifier", s.app),
    ("app_name", s.name)]

/-- The fields of the service that are not shown. -/
def secretFields (s : ServiceSettings) : List (String × Value) :=
  [("token", s.token), ("webhook_secret", s.secret)]

/-- Settings as a document with some fields of the service. -/
def documentWith (fields : ServiceSettings → List (String × Value)) (s : Settings) : Value :=
  .object [
    ("github", .object (fields s.service)),
    ("server", .object [("host", s.server.host), ("port", s.server.port)]),
    ("logging", .object [("level", s.log.level), ("format", s.log.format),
      ("file_path", s.log.file), ("max_file_size", s.log.maxSize),
      ("backup_count", s.log.backups)]),
    ("debug", s.debug)]

/-- Settings as a document. -/
def document (s : Settings) : Value := documentWith (fun g => publicFields g ++ secretFields g) s

/-- Settings as a document without the secrets. -/
def publicDocument (s : Settings) : Value := documentWith publicFields s

end Settings

end ActionItems
