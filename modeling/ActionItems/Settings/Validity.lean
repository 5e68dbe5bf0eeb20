import ActionItems.Settings.Basic

/-!
# Valid settings

`Draft.validate` says whether settings can be used: the service needs a token, an app and a secret,
the timeout must be positive, the port must be one and the log level must be known. All faults are
told together, in this order. Values that cannot be compared at all are refused at once. A `Draft`
is what an update makes of settings; a section of it may be lost to a value that is no section.
-/

namespace ActionItems.Settings

/-- What makes settings useless. -/
inductive Fault where
  | token
  | app
  | secret
  | timeout
  | port (value : Value)
  | level (value : Value)
deriving Repr

/-- The wording of a fault. -/
def Fault.message : Fault → String
  | .token => "GitHub token is required"
  | .app => "GitHub App identifier is required"
  | .secret => "GitHub webhook secret is required"
  | .timeout => "Timeout must be positive"
  | .port v => "Invalid port: " ++ v.display
  | .level v => "Invalid log level: " ++ v.display

/-- Why settings are refused. -/
inductive ValidityError where
  | faults (faults : List Fault)
  /-- A value that has to be a number is none. -/
  | noNumber
  /-- The log level is no text. -/
  | noText
  /-- A section is none. -/
  | noSection
deriving Repr

/-- The wording of the faults of settings. -/
def faultsMessage (faults : List Fault) : String :=
  "Configuration validation failed: " ++ "; ".intercalate (faults.map Fault.message)

/-- How a number compares with an integer; not a number compares with none. -/
def compareWith (v : Value) (i : Int) : Except ValidityError (Option Ordering) :=
  match v, v.asInt? with
  | _, some n => .ok (some (compare n i))
  | .float x, _ => .ok (x.compareInt? i)
  | _, _ => .error .noNumber

/-- Whether a number is at most zero. -/
def isAtMostZero (v : Value) : Except ValidityError Bool := do
  return (← compareWith v 0).any (· != .gt)

/-- The number of ports, with the one that cannot be used. -/
def portLimit : Int := 65536

/-- Whether a number is between zero and the number of ports. -/
def isPort (v : Value) : Except ValidityError Bool := do
  if (← compareWith v 0) != some .gt then return false
  return (← compareWith v portLimit) == some .lt

/-- The capital of a letter whose capital is in ASCII; any other character stays as it is. -/
def capital (c : Char) : Char :=
  match c with
  | 'ı' => 'I'
  | 'ſ' => 'S'
  | _ => c.toUpper

/-- The log levels. -/
def levels : List String := ["DEBUG", "INFO", "WARNING", "ERROR", "CRITICAL"]

/-- Whether a value is the name of a log level, in letters of any case. -/
def isLevel : Value → Except ValidityError Bool
  | .text s => .ok (levels.contains (String.ofList (s.toList.map capital)))
  | .loose _ | .bytes _ => .ok false
  | _ => .error .noText

/-- A fault if a condition holds. -/
def faultIf (condition : Bool) (fault : Fault) : List Fault := if condition then [fault] else []

/-- The faults in how the app talks to the service. -/
def serviceFaults (s : ServiceSettings) : Except ValidityError (List Fault) := do
  return faultIf (!s.token.isTruthy) .token ++ faultIf (s.app matches .null) .app ++
    faultIf (!s.secret.isTruthy) .secret ++ faultIf (← isAtMostZero s.timeout) .timeout

/-- The faults in where the app listens. -/
def serverFaults (s : ServerSettings) : Except ValidityError (List Fault) := do
  return faultIf (!(← isPort s.port)) (.port s.port)

/-- The faults in what the app logs. -/
def logFaults (s : LogSettings) : Except ValidityError (List Fault) := do
  return faultIf (!(← isLevel s.level)) (.level s.level)

/-- Settings of which a section may be none. -/
structure Draft where
  service? : Option ServiceSettings
  server? : Option ServerSettings
  log? : Option LogSettings
  debug : Value
deriving Repr

/-- Settings as a draft. -/
def draft (s : Settings) : Draft := ⟨some s.service, some s.server, some s.log, s.debug⟩

/-- A section that is there. -/
def present {σ : Type} : Option σ → Except ValidityError σ
  | some s => .ok s
  | none => .error .noSection

/-- The settings of a draft that can be used. -/
def Draft.validate (d : Draft) : Except ValidityError Settings := do
  let service ← present d.service?
  let first ← serviceFaults service
  let server ← present d.server?
  let second ← serverFaults server
  let log ← present d.log?
  let third ← logFaults log
  match first ++ second ++ third with
  | [] => return ⟨service, server, log, d.debug⟩
  | faults => throw (.faults faults)

/-- Checks that settings can be used. -/
def validate (s : Settings) : Except ValidityError Settings := s.draft.validate

end ActionItems.Settings
