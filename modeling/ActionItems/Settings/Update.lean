import ActionItems.Keyed
import ActionItems.Settings.LogFile

/-!
# Changing settings

A `Manager` holds valid settings and the log files that they led to. A `Change` gives a field a
value or puts a section in place; `Change.ofName` reads one from a name, with a section before a
point. `Manager.update` makes several changes, all of them or none, and only if the settings stay
valid. Then the log file is opened anew; the new settings stay in place even if that fails.
-/

namespace ActionItems.Settings

/-- Why settings are not changed. -/
inductive UpdateError where
  | unknownSection (name : String)
  /-- What has this name is no section. -/
  | noSection (name : String)
  | field (error : UnknownField)
  | validity (error : ValidityError)
  | log (error : LogError)
deriving Repr

/-- The wording of a section that is not known. -/
def unknownSectionMessage (name : String) : String := "Unknown config section: " ++ name

/-- The names of the sections. -/
def sectionNames : List String := ["github", "server", "logging"]

/-- The names of what settings have beside their sections. -/
def otherNames : List String := ["debug", "validate", "to_dict", "from_env", "from_yaml"]

/-- The names of what settings have as every record of fields has it. -/
def recordNames : List String :=
  ["annotations", "class", "dataclass_fields", "dataclass_params", "delattr", "dict", "dir", "doc",
    "eq", "format", "ge", "getattribute", "getstate", "gt", "hash", "init", "init_subclass", "le",
    "lt", "match_args", "module", "ne", "new", "reduce", "reduce_ex", "repr", "setattr", "sizeof",
    "str", "subclasshook", "weakref"].map
    fun name => "__" ++ name ++ "__"

/-- Whether settings have something of a name. -/
def knows (name : String) : Bool :=
  sectionNames.contains name || otherNames.contains name || recordNames.contains name

/-- A change of settings. -/
inductive Change where
  /-- Gives what has a name in the settings themselves a value. -/
  | own (name : String) (value : Value)
  /-- Gives a field of a section a value. -/
  | inSection (part field : String) (value : Value)
  /-- Puts a section in place of the one that there is. -/
  | service (s : ServiceSettings)
  | server (s : ServerSettings)
  | log (s : LogSettings)
deriving Repr

/-- The change that gives a name a value: the part before its first point, if it has one, is the
name of a section. -/
def Change.ofName (name : String) (value : Value) : Change :=
  match name.toList.span (· ≠ '.') with
  | (part, _ :: field) => .inSection (String.ofList part) (String.ofList field) value
  | (_, []) => .own name value

/-- Fields of sections with their values, by section. -/
abbrev SectionFields := Keyed (List (String × Value))

/-- The fields with those of one more change. -/
def SectionFields.add (fields : SectionFields) : Change → Except UpdateError SectionFields
  | .inSection part field value =>
    if knows part then
      .ok (fields.put part ((fields.find? part).getD [] ++ [(field, value)]))
    else .error (.unknownSection part)
  | _ => .ok fields

/-- The fields of sections that are changed, in order. -/
def SectionFields.ofChanges (changes : List Change) : Except UpdateError SectionFields :=
  changes.foldlM SectionFields.add []

/-- The settings with the fields of a section changed. -/
def changeSection (s : Settings) (name : String) (fields : List (String × Value)) :
    Except UpdateError Settings :=
  match name with
  | "github" => do
    return { s with service := ← (setAll ServiceSettings.set? fields s.service).mapError .field }
  | "server" => do
    return { s with server := ← (setAll ServerSettings.set? fields s.server).mapError .field }
  | "logging" => do
    return { s with log := ← (setAll LogSettings.set? fields s.log).mapError .field }
  | _ => .error (.noSection name)

/-- A draft with a part put in place, unless fields of it are changed. -/
def Draft.put (fields : SectionFields) (part : String) (set : Draft → Draft) (d : Draft) : Draft :=
  if (fields.find? part).isSome then d else set d

/-- A draft after a change of what the settings have themselves. A section that is given a value
that is no section is lost. -/
def Draft.apply (fields : SectionFields) (d : Draft) : Change → Except UpdateError Draft
  | .inSection .. => .ok d
  | .service s => .ok (Draft.put fields "github" (fun d => { d with service? := some s }) d)
  | .server s => .ok (Draft.put fields "server" (fun d => { d with server? := some s }) d)
  | .log s => .ok (Draft.put fields "logging" (fun d => { d with log? := some s }) d)
  | .own "github" _ => .ok (Draft.put fields "github" (fun d => { d with service? := none }) d)
  | .own "server" _ => .ok (Draft.put fields "server" (fun d => { d with server? := none }) d)
  | .own "logging" _ => .ok (Draft.put fields "logging" (fun d => { d with log? := none }) d)
  | .own "debug" value => .ok { d with debug := value }
  | .own name _ => .error (.field ⟨name⟩)

/-- The draft that changes make of settings. -/
def makeDraft (s : Settings) (changes : List Change) : Except UpdateError Draft := do
  let fields ← SectionFields.ofChanges changes
  let changed ← fields.foldlM (fun s (part, values) => changeSection s part values) s
  changes.foldlM (Draft.apply fields) changed.draft

/-- The settings after changes, if they are valid. -/
def change (s : Settings) (changes : List Change) : Except UpdateError Settings := do
  (← makeDraft s changes).validate.mapError .validity

/-- Valid settings and the log files that they led to. -/
structure Manager where
  settings : Settings
  logs : Logs := {}
deriving Repr

namespace Manager

/-- The manager with settings that are in use from now on. -/
def use (m : Manager) (s : Settings) : Manager × Except UpdateError Settings :=
  match m.logs.add s.log with
  | (logs, .ok ()) => (⟨s, logs⟩, .ok s)
  | (logs, .error e) => (⟨s, logs⟩, .error (.log e))

/-- The manager of settings, which must be valid. -/
def start (s : Settings) : Except UpdateError Manager := do
  let valid ← s.validate.mapError .validity
  let (manager, result) := (Manager.mk valid {}).use valid
  let _ ← result
  return manager

/-- **The manager after changes**, and the settings that are then in use. -/
def update (m : Manager) (changes : List Change) : Manager × Except UpdateError Settings :=
  match change m.settings changes with
  | .ok s => m.use s
  | .error e => (m, .error e)

end Manager

end ActionItems.Settings
