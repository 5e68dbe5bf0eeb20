import ActionItems.Analysis
import ActionItems.GitHub.Task
import ActionItems.Options.File
import ActionItems.Webhook.Route

/-!
# Check runs

A check run is carried out on a pull request: it is marked as in progress, the diff is analysed
under the options of the repository, the comment of the app is written, and the check run is
completed with a verdict. `Plan.make` decides what is written from what was found; `carryOut` makes
the calls in order, and `run` completes the check run as neutral if anything fails on the way. So a
run always has an `Outcome`.
-/

namespace ActionItems.CheckRun

open ActionItems.GitHub (Program Task settle)
open ActionItems.Webhook (CheckRequest)

/-- An app of the service: what it is known by, and the name that its checks show. -/
structure App where
  identifier : Value
  name : Value
deriving Repr

/-! ### Verdicts -/

/-- How a check run ends. -/
inductive Conclusion where
  | success
  | failure
  | neutral
deriving Repr, DecidableEq

/-- The word for a conclusion. -/
def Conclusion.word : Conclusion → String
  | .success => "success"
  | .failure => "failure"
  | .neutral => "neutral"

/-- What is shown with a conclusion. -/
structure Output where
  title : String
  summary : String
  text? : Option String
deriving Repr, DecidableEq

/-- An output as a document. -/
def Output.document (o : Output) : Value :=
  .object ([("title", .text o.title), ("summary", .text o.summary)] ++
    (o.text?.map fun text => ("text", .text text)).toList)

/-- A conclusion and what is shown with it. -/
structure Verdict where
  conclusion : Conclusion
  output : Output
deriving Repr, DecidableEq

/-- The verdict on a change set with action items. -/
def Verdict.failing (report : Report) : Verdict :=
  ⟨.failure, ⟨report.title, report.summary, some (report.body ++ Report.footer)⟩⟩

/-- The verdict on a change set without action items, under a title. -/
def Verdict.passing (title : String) : Verdict :=
  ⟨.success, ⟨title, Report.noItemsSummary ++ Report.footer, none⟩⟩

/-- The verdict if the check could not be carried out, for a reason. -/
def Verdict.broken (reason : String) : Verdict :=
  ⟨.neutral, ⟨Report.errorTitle, Report.errorSummary, some reason⟩⟩

/-- The fields of a check run in progress. -/
def startedFields : List (String × Value) := [("status", .text "in_progress")]

/-- The fields of a check run that is completed with a verdict. -/
def Verdict.fields (v : Verdict) : List (String × Value) :=
  [("status", .text "completed"), ("conclusion", .text v.conclusion.word),
    ("output", v.output.document)]

/-! ### Plans -/

/-- What is written about a change set: the text of the app's comment, if it is to be written, and
the verdict. -/
structure Plan where
  comment? : Option String
  verdict : Verdict
deriving Repr, DecidableEq

/-- The text of a comment with its footer. -/
def withFooter (text : String) : String := text ++ Report.footer

/-- The plan for a change set with action items. -/
def Plan.ofReport (post : PostComment) (report : Report) : Plan :=
  ⟨if post = .never then none else some (withFooter report.commentText), .failing report⟩

/-- The plan for a change set without action items; `commented` says that the app has a comment. -/
def Plan.ofNothing (post : PostComment) (commented : Bool) : Plan :=
  let title := if commented then Report.resolvedTitle else Report.noItemsTitle
  ⟨if commented || post == .always then some (withFooter title) else none, .passing title⟩

/-- The plan for an analysed change set. There is none if its report cannot be written. -/
def Plan.make (request : CheckRequest) (options : Options) (analysis : Analysis)
    (commented : Bool) : Except Number.IntegerError Plan :=
  if analysis.hasItems then
    (analysis.report? options request.repository request.commit).map (.ofReport options.postComment)
  else .ok (.ofNothing options.postComment commented)

/-! ### Carrying out -/

/-- Why a check run is not carried out. -/
inductive Failure where
  | call (failure : GitHub.Failure)
  | options (error : Options.LoadError)
  | analysis (error : AnalysisError)
  /-- The report has a number of too many digits. -/
  | report (error : Number.IntegerError)
  /-- The comment of the app has no identifier. -/
  | comment
deriving Repr

/-- The wording of a failure. -/
def Failure.message : Failure → String
  | .call f => f.message
  | .options e => e.message
  | .analysis e => e.message
  | .report e => e.message
  | .comment => "'id'"

/-- What was done with the comment of the app. -/
inductive CommentAction where
  | created
  | updated
deriving Repr, DecidableEq

/-- The word for what was done. -/
def CommentAction.word : CommentAction → String
  | .created => "created"
  | .updated => "updated"

/-- What comes of a check run: the number of action items and what was done with the comment, or the
failure that stopped it. -/
inductive Outcome where
  | completed (items : Nat) (comment? : Option CommentAction)
  | broken (failure : Failure)
deriving Repr

namespace Outcome

/-- The conclusion that an outcome means. -/
def conclusion : Outcome → Conclusion
  | completed 0 _ => .success
  | completed (_ + 1) _ => .failure
  | broken _ => .neutral

/-- The number of action items; none are known of if the check failed. -/
def total : Outcome → Nat
  | completed items _ => items
  | broken _ => 0

/-- What was done with the comment. -/
def comment? : Outcome → Option CommentAction
  | completed _ action? => action?
  | broken _ => none

/-- The wording of the failure that stopped the check. -/
def error? : Outcome → Option String
  | completed .. => none
  | broken failure => some failure.message

end Outcome

/-- A task of the service as part of a check run. -/
def call {α : Type} (t : Task GitHub.Failure α) : Task Failure α := t.mapError .call

/-- Sets fields of the check run. -/
def update (request : CheckRequest) (fields : List (String × Value)) : Task Failure Unit := do
  let _ ← call (GitHub.updateCheckRun request.repository (.int request.id) fields)

/-- The text of the first of some files that is there. -/
def firstFile (request : CheckRequest) : List String → Task Failure (Option String)
  | [] => return none
  | path :: rest => do
    match ← call (GitHub.fetchFile request.repository path (.text request.commit)) with
    | some text => return some text
    | none => firstFile request rest

/-- The options of the repository at the commit. -/
def loadOptions (request : CheckRequest) : Task Failure Options := do
  settle ((Options.load (← firstFile request Options.filePaths)).mapError .options)

/-- The comment of the app on the pull request, if it has any content. -/
def findComment (app : App) (pages : Nat) (request : CheckRequest) :
    Task Failure (Option Value) := do
  let found? ← call <|
    GitHub.findComment pages request.repository (.int request.pullRequest) app.identifier
  return found?.filter Value.isTruthy

/-- The identifier of a comment. -/
def commentId (comment : Value) : Except Failure Value :=
  match comment.get? "id" with
  | some id => .ok id
  | none => .error .comment

/-- Writes the comment of the app: into the one that it has, or as a new one. -/
def writeComment (request : CheckRequest) (own? : Option Value) (body : String) :
    Task Failure CommentAction := do
  match own? with
  | some comment =>
    let id ← settle (commentId comment)
    let _ ← call (GitHub.updateComment request.repository id (.text body))
    return .updated
  | none =>
    let _ ← call (GitHub.createComment request.repository (.int request.pullRequest) (.text body))
    return .created

/-- Writes what a plan says, and tells what was done with the comment. -/
def Plan.write (plan : Plan) (request : CheckRequest) (own? : Option Value) :
    Task Failure (Option CommentAction) := do
  let action? ← plan.comment?.mapM (writeComment request own?)
  update request plan.verdict.fields
  return action?

/-- Carries out a check run, as far as nothing fails. A listing of comments reads at most `pages`
pages. -/
def carryOut [CharNames] (app : App) (pages : Nat) (request : CheckRequest) :
    Task Failure Outcome := do
  update request startedFields
  let options ← loadOptions request
  let diff ← call (GitHub.fetchDiff request.repository (.int request.pullRequest))
  let analysis ← settle ((analyze options diff).mapError .analysis)
  let own? ← findComment app pages request
  let plan ← settle ((Plan.make request options analysis own?.isSome).mapError .report)
  return .completed analysis.total (← plan.write request own?)

/-- **Carries out a check run.** If anything fails, the check run is completed as neutral, as far as
that can be done. -/
def run [CharNames] (app : App) (pages : Nat) (request : CheckRequest) : Program Outcome := do
  match ← (carryOut app pages request).run with
  | .ok outcome => return outcome
  | .error failure =>
    let _ ← (update request (Verdict.broken failure.message).fields).run
    return .broken failure

/-- The word for a check run that waits to be carried out. -/
def queued : String := "queued"

/-- Creates a check run on a commit, to be carried out when the service says that it is there. -/
def create (app : App) (target : Webhook.Target) : Task GitHub.Failure Value :=
  GitHub.createCheckRun target.repository app.name (.text target.commit) (.text queued)

end ActionItems.CheckRun
