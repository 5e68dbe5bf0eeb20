import ActionItems.Text.Blank
import ActionItems.Value.Equality

/-!
# Calls of the service

What is asked of the service that keeps the repositories: a `Call` names a repository and an action
in it, such as reading a diff or creating a comment. `Client.request` writes a call as a request
with a method, an address and a document.
-/

namespace ActionItems.GitHub

/-- What is done in a repository. Numbers and identifiers may be any values, as a document may hold
them. -/
inductive Action where
  /-- Reads the diff of a pull request. -/
  | fetchDiff (number : Value)
  /-- Reads a file at a commit. -/
  | fetchFile (path : String) (commit : Value)
  /-- Lists a page of the comments on a pull request; the first page is page one. -/
  | listComments (number : Value) (page : Nat)
  | createComment (number body : Value)
  | updateComment (id body : Value)
  | createCheckRun (name commit status : Value)
  /-- Sets fields of a check run. -/
  | updateCheckRun (id : Value) (fields : List (String × Value))
deriving Repr, DecidableEq

/-- What is done, and the repository in which it is done. -/
structure Call where
  repository : String
  action : Action
deriving Repr, DecidableEq

/-- The method of a request. -/
inductive Method where
  | get
  | post
  | patch
deriving Repr, DecidableEq

/-- The word for a method. -/
def Method.word : Method → String
  | .get => "GET"
  | .post => "POST"
  | .patch => "PATCH"

/-- The kind of document that is accepted where nothing else is said. -/
def documentMediaType : String := "application/vnd.github+json"

/-- The kind of document that is accepted as a diff. -/
def diffMediaType : String := "application/vnd.github.v3.diff"

/-- The name that the client goes by. -/
def userAgent : String := "Todo-PR-Checker/1.0"

/-- The greatest number of comments on a page. -/
def pageSize : Nat := 100

namespace Action

/-- The method of an action. -/
def method : Action → Method
  | fetchDiff .. | fetchFile .. | listComments .. => .get
  | createComment .. | createCheckRun .. => .post
  | updateComment .. | updateCheckRun .. => .patch

/-- The place of an action within a repository. -/
def path : Action → String
  | fetchDiff number => "/pulls/" ++ number.display
  | fetchFile path _ => "/contents/" ++ path
  | listComments number _ => "/issues/" ++ number.display ++ "/comments"
  | createComment number _ => "/issues/" ++ number.display ++ "/comments"
  | updateComment id _ => "/issues/comments/" ++ id.display
  | createCheckRun .. => "/check-runs"
  | updateCheckRun id _ => "/check-runs/" ++ id.display

/-- The kind of document that an action asks for, if it is not the usual one. -/
def accept? : Action → Option String
  | fetchDiff .. => some diffMediaType
  | _ => none

/-- The parameters behind the address. -/
def parameters : Action → List (String × Value)
  | fetchFile _ commit => [("ref", commit)]
  | listComments _ page => [("page", .int page), ("per_page", .int pageSize)]
  | _ => []

/-- The document that is sent. -/
def document? : Action → Option Value
  | createComment _ body => some (.object [("body", body)])
  | updateComment _ body => some (.object [("body", body)])
  | createCheckRun name commit status =>
    some (.object [("name", name), ("head_sha", commit), ("status", status)])
  | updateCheckRun _ fields => some (.object fields)
  | _ => none

end Action

/-- A request as it is sent. -/
structure Request where
  method : Method
  address : String
  /-- The kind of document that is accepted, if it is not the usual one. -/
  accept? : Option String
  authorization : String
  timeout : Value
  parameters : List (String × Value)
  document? : Option Value
deriving Repr

/-- Where requests go and how long they may take. -/
structure Client where
  base : String
  timeout : Value
deriving Repr

/-- The address of the service. -/
def defaultBase : String := "https://api.github.com"

/-- The address of the service without slashes at its end. -/
def Client.ofBase (base : String) (timeout : Value) : Client :=
  ⟨String.ofList (Text.stripEndWhile (· == '/') base.toList), timeout⟩

/-- A call as a request that is made in the name of `token`. -/
def Client.request (client : Client) (token : String) (call : Call) : Request where
  method := call.action.method
  address := client.base ++ "/repos/" ++ call.repository ++ call.action.path
  accept? := call.action.accept?
  authorization := "token " ++ token
  timeout := client.timeout
  parameters := call.action.parameters
  document? := call.action.document?

end ActionItems.GitHub
