import ActionItems.Webhook.Event

/-!
# What is done about an event

`route` says what a delivery asks for, by the kind of event that it announces: a pull request that
is opened, or a check suite with pull requests that is asked for, gets a check run, and a check run
that is created for a pull request is carried out. Events of checks that belong to another app are
refused. `checkTarget` and `CheckRequest.ofEvent` take from the event what is needed for that.
-/

namespace ActionItems.Webhook

/-- What an event asks for. -/
inductive Reaction where
  | createCheckRun
  | runCheck
  | ignore
deriving Repr, DecidableEq

/-- The word for a reaction. -/
def Reaction.word : Reaction → String
  | .createCheckRun => "create_check_run"
  | .runCheck => "run_check"
  | .ignore => "ignore"

/-- An event of a check of another app. -/
structure ForeignEvent where
  kind : String
deriving Repr, DecidableEq

/-- The wording of a refusal. -/
def ForeignEvent.message (e : ForeignEvent) : String :=
  "Event '" ++ e.kind ++ "' is not meant for this app"

/-- The check that an event of a kind is about. -/
def Event.check? (event : Event) (kind : String) : Option Check :=
  if kind = "check_run" then event.checkRun?
  else if kind = "check_suite" then event.checkSuite?
  else none

/-- The app that the check of an event belongs to. -/
def Event.appFor? (event : Event) (kind : String) : Option Int :=
  (event.check? kind).bind Check.app?

/-- Whether an app is the one of a configuration; no app is the one of a configuration without
one. -/
def isSameApp (app? : Option Int) (configured : Value) : Bool :=
  Value.same (app?.elim .null .int) configured

/-- Whether a check has pull requests. -/
def Check.hasPullRequest (c : Check) : Bool := !c.pullRequests.isEmpty

/-- Whether what happened is one of `actions`. -/
def Event.didOneOf (event : Event) (actions : List String) : Bool :=
  event.action?.any (actions.contains ·)

/-- What an event of a kind asks of an app. -/
def route (kind : String) (event : Event) (configured : Value) : Except ForeignEvent Reaction :=
  if kind = "pull_request" then
    .ok (if event.didOneOf ["opened"] && event.pullRequest?.isSome then .createCheckRun
      else .ignore)
  else if isSameApp (event.appFor? kind) configured then
    let ready := (event.check? kind).any Check.hasPullRequest
    if kind = "check_suite" && event.didOneOf ["requested", "rerequested"] && ready then
      .ok .createCheckRun
    else if kind = "check_run" && event.didOneOf ["created", "rerequested"] && ready then
      .ok .runCheck
    else .ok .ignore
  else .error ⟨kind⟩

/-- A commit in a repository. -/
structure Target where
  repository : String
  commit : String
deriving Repr, DecidableEq

/-- The commit that an event of a kind is about, if the event has the part that tells it. -/
def checkTarget (kind : String) (event : Event) : Option Target :=
  let commit? :=
    if kind = "pull_request" then event.pullRequest?.map Subject.headSha
    else (event.check? kind).map Check.headSha
  commit?.map fun commit => ⟨event.repository.fullName, commit⟩

/-- A check run to be carried out. -/
structure CheckRequest where
  repository : String
  pullRequest : Int
  commit : String
  id : Int
deriving Repr, DecidableEq

/-- Why a check run cannot be carried out. -/
inductive RequestError where
  | notPositive
  | noOwner
  | noPullRequest
deriving Repr, DecidableEq

/-- The wording of a request that cannot be. -/
def RequestError.message : RequestError → String
  | .notPositive => "PR number must be positive"
  | .noOwner => "Repository must be in format 'owner/repo'"
  | .noPullRequest => "Check run event has no associated pull request"

/-- A request for a pull request of a positive number, in a repository with an owner. -/
def CheckRequest.make (repository : String) (pullRequest : Int) (commit : String) (id : Int) :
    Except RequestError CheckRequest :=
  if pullRequest ≤ 0 then .error .notPositive
  else if !repository.toList.contains '/' then .error .noOwner
  else .ok ⟨repository, pullRequest, commit, id⟩

/-- The request that an event makes, for the first pull request of its check run. -/
def CheckRequest.ofEvent (event : Event) : Except RequestError CheckRequest :=
  match event.checkRun? with
  | some ⟨id, commit, pullRequest :: _, _⟩ =>
    CheckRequest.make event.repository.fullName pullRequest.number commit id
  | _ => .error .noPullRequest

end ActionItems.Webhook
