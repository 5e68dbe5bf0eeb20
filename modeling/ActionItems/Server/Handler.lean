import ActionItems.Server.Address
import ActionItems.Settings.Connection
import ActionItems.Webhook.Signature

/-!
# The server

The service delivers events to the server as requests. `handle` answers one: it checks the signature
of the body, reads the event, and does what `Webhook.route` says. A request that is not signed is
refused before its body is read, and one at another place or with another method before anything
else. As the answer depends on calls of the service, it is a program.
-/

namespace ActionItems.Server

open ActionItems.GitHub (Program Task settle)
open ActionItems.Webhook (Event Reaction)

/-- A request to the server. -/
structure Request where
  method : String
  address : String
  headers : List (String × String)
  body : List UInt8
deriving Repr

/-- The answer to a request; it may have a document. -/
structure Response where
  status : Nat
  document? : Option Value
deriving Repr

/-- What the server needs to know. -/
structure App where
  checks : CheckRun.App
  /-- The secret that deliveries are signed with. -/
  secret : Value
deriving Repr

/-- The app that settings describe. -/
def App.ofSettings (s : ServiceSettings) : App := ⟨Settings.app s, s.secret⟩

/-! ### Answers -/

/-- The name of the service. -/
def serviceName : String := "todo-pr-checker"

/-- The version of the service. -/
def version : String := "1.0.0"

/-- An answer without a document. -/
def Response.empty (status : Nat) : Response := ⟨status, none⟩

/-- An answer with a document. -/
def Response.object (status : Nat) (fields : List (String × Value)) : Response :=
  ⟨status, some (.object fields)⟩

/-- The answer about the health of the server. -/
def Response.healthy : Response :=
  .object 200 [("status", .text "healthy"), ("service", .text serviceName),
    ("version", .text version)]

/-- The answer to a request that is refused for a reason. -/
def Response.refused (status : Nat) (reason : String) : Response :=
  .object status [("error", .text reason)]

/-- The answer if a check run was created. -/
def Response.created : Response := .object 200 [("status", .text "check_run_created")]

/-- The answer if a check run was carried out. -/
def Response.completed (outcome : CheckRun.Outcome) : Response :=
  .object 200 [("status", .text "completed"), ("conclusion", .text outcome.conclusion.word),
    ("total_matches", .int outcome.total)]

/-! ### Signed deliveries -/

/-- A letter of the name of a header, in which case and the two kinds of dashes do not count. -/
def headerLetter (c : Char) : Char := if c = '-' then '_' else c.toUpper

/-- The name of a header in its plain form. -/
def headerName (name : String) : List Char := name.toList.map headerLetter

/-- The values of a header, joined by commas. -/
def Request.header? (r : Request) (name : String) : Option String :=
  match (r.headers.filter fun (n, _) => headerName n == headerName name).map Prod.snd with
  | [] => none
  | values => some (", ".intercalate values)

/-- The signature of a request: the one by the newer method, unless it is missing or empty. -/
def Request.signature (r : Request) : String :=
  match (r.header? "X-Hub-Signature-256").getD "" with
  | "" => (r.header? "X-Hub-Signature").getD ""
  | signature => signature

/-- The kind of event that a request announces. -/
def Request.eventKind (r : Request) : String := (r.header? "X-GitHub-Event").getD ""

/-- Why a delivery cannot be answered. -/
inductive Fault where
  /-- The digest of the signature is not ASCII. -/
  | digest (error : Webhook.ForeignDigest)
  /-- The secret is no text. -/
  | secret
  /-- The body has a number of too many digits. -/
  | number (error : Number.IntegerError)
  | request (error : Webhook.RequestError)
  /-- The event has no commit. -/
  | target
  | call (failure : GitHub.Failure)
deriving Repr

/-- Whether a signature names a method that is known. -/
def namesMethod (signature : String) : Bool :=
  match Webhook.signatureParts? signature.toList with
  | some (name, _) => (Webhook.methodNamed? name).isSome
  | none => false

/-- Whether a request is signed with the secret. -/
def App.accepts (app : App) (r : Request) : Except Fault Bool :=
  match app.secret with
  | .text secret => (Webhook.verify r.body r.signature secret).mapError .digest
  | secret => if secret.isTruthy && namesMethod r.signature then .error .secret else .ok false

/-! ### Deliveries -/

variable [CharNames]

/-- What a reaction to an event leads to. -/
def App.react (app : App) (pages : Nat) (kind : String) (event : Event) :
    Reaction → Task Fault Response
  | .createCheckRun => do
    match Webhook.checkTarget kind event with
    | none => throw .target
    | some target =>
      let _ ← (CheckRun.create app.checks target).mapError .call
      return .created
  | .runCheck => do
    let request ← settle ((Webhook.CheckRequest.ofEvent event).mapError .request)
    let outcome ← ExceptT.lift (CheckRun.run app.checks pages request)
    return .completed outcome
  | .ignore => return .empty 204

/-- The answer to a delivery that is signed. -/
def App.deliver (app : App) (pages : Nat) (r : Request) : Task Fault Response := do
  match Event.ofBytes r.body with
  | .error (.number e) => throw (.number e)
  | .error e => return .refused 400 e.message
  | .ok event =>
    match Webhook.route r.eventKind event app.checks.identifier with
    | .error e => return .refused 400 e.message
    | .ok reaction => app.react pages r.eventKind event reaction

/-- The answer to a delivery. -/
def App.receive (app : App) (pages : Nat) (r : Request) : Task Fault Response := do
  if ← settle (app.accepts r) then app.deliver pages r
  else return .refused 401 "Invalid signature"

/-- The answer of an endpoint to a method that it allows. -/
def App.answer (app : App) (pages : Nat) (r : Request) (method : String) :
    Endpoint → Program Response
  | .health => return if method = "GET" then .healthy else .empty 200
  | .files => return .empty (if method = "OPTIONS" then 200 else 404)
  | .events => do
    if method = "OPTIONS" then return .empty 200
    match ← (app.receive pages r).run with
    | .ok response => return response
    | .error _ => return .empty 500

/-- **The answer to a request.** -/
def handle (app : App) (pages : Nat) (r : Request) : Program Response := do
  let method := r.method.toUpper
  match locate r.address with
  | .nowhere => return .empty 404
  | .moved e => return .empty (if e.allows method then 308 else 405)
  | .endpoint e => if e.allows method then app.answer pages r method e else return .empty 405

end ActionItems.Server
