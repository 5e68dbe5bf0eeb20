import ActionItems.Proofs.CheckRun.Host
import ActionItems.Proofs.GitHub.Limit
import ActionItems.Proofs.GitHub.Reply

/-!
# Check runs whose calls are all answered

A host answers the calls of a check run if every one of them comes to something and no reply says
anything about limits (`Source.Tells`). The diff and the option files then come from a `Source`, the
comments from the host, and an open session stays as it is. So what a check run does is a function
of the source and the comments: `Source.intent?` is what it means to write, or why it fails, and
`run_of_tells` says that it writes just that.

Programs are followed through their calls with `Leads`, for the outcomes that they have under such
circumstances, and with `Reads` for the ones that write no comment.
-/

namespace ActionItems

namespace GitHub

/-! ### Open sessions -/

/-- A session that takes every call along a clock: it has a token that stays the same, and calls are
left. -/
structure Session.IsOpen (s : Session) (clock : Clock) : Prop where
  token : ∃ token, s.tokens = .fixed token
  calls : ∀ n, s.closedUntil? (clock n) = none

theorem Session.IsOpen.later {s : Session} {clock : Clock} (h : s.IsOpen clock) :
    s.IsOpen clock.later :=
  ⟨h.token, fun n => h.calls (n + 1)⟩

theorem Session.IsOpen.run {σ α : Type} {s : Session} {clock : Clock} (h : s.IsOpen clock)
    (service : Service σ) (p : Program α) (session : Session) (state : σ) :
    s.IsOpen (p.run clock service session state).clock := by
  obtain ⟨calls, hclock⟩ := Program.exists_clock_run clock service p session state
  exact ⟨h.token, fun n => by rw [hclock]; exact h.calls _⟩

end GitHub

namespace CheckRun

open ActionItems.GitHub
open ActionItems.Webhook (CheckRequest)

/-! ### What is told -/

/-- What the calls for the diff and for the option files come to. -/
structure Source where
  diff : String
  file : String → Except GitHub.Failure (Option String)

/-- A call comes to what a source has, or to some document, and its reply says nothing about
limits. -/
def Source.Tells (source : Source) (x : Exchange) : Prop :=
  x.reply.IsSilent ∧
    match x.call.action with
    | .fetchDiff _ => x.outcome.map Bytes.decodeLossy = .ok source.diff
    | .fetchFile path _ => fileOutcome x.outcome = source.file path
    | _ => ∃ document, x.outcome.bind readDocument = .ok document

/-- A host, a source and a session. -/
structure Circumstances (σ : Type) (t : Thread) where
  host : Host σ t
  source : Source
  session : Session

namespace Circumstances

variable {σ ε ε' α β : Type} {t : Thread} {c : Circumstances σ t} {comments : List Value}

/-- A run of a program in some state. -/
def run (c : Circumstances σ t) (p : Program α) (clock : Clock) (state : σ) : Run σ α :=
  p.run clock c.host.service c.session state

/-- A program that begins with some comments, while the session is open, and of which all calls are
answered leaves the session, and its result, its exchanges and the comments that it leaves are some
that are meant. -/
def Leads (c : Circumstances σ t) (comments : List Value) (p : Program α)
    (post : α → List Exchange → List Value → Prop) : Prop :=
  ∀ clock state, c.session.IsOpen clock → c.host.comments state = comments →
    (∀ x ∈ (c.run p clock state).exchanges, c.source.Tells x) →
      (c.run p clock state).session = c.session ∧
        post (c.run p clock state).result (c.run p clock state).exchanges
          (c.host.comments (c.run p clock state).service)

theorem Leads.done {a : α} {post : α → List Exchange → List Value → Prop} (h : post a [] comments) :
    c.Leads comments (.done a) post := by
  rintro clock state - rfl -
  exact ⟨rfl, h⟩

theorem Leads.mono {p : Program α} {post post' : α → List Exchange → List Value → Prop}
    (h : c.Leads comments p post) (hpost : ∀ a xs later, post a xs later → post' a xs later) :
    c.Leads comments p post' := by
  intro clock state hopen hstate htells
  obtain ⟨hsession, hresult⟩ := h clock state hopen hstate htells
  exact ⟨hsession, hpost _ _ _ hresult⟩

theorem Leads.ask {call : Call} {next : Except GitHub.Failure (List UInt8) → Program α}
    {post : α → List Exchange → List Value → Prop}
    (h : ∀ token reply time later, c.source.Tells ⟨call, token, reply, time⟩ →
      Serves t comments call reply later →
        c.Leads later (next (reply.outcome time)) fun a xs =>
          post a (⟨call, token, reply, time⟩ :: xs)) :
    c.Leads comments (.ask call next) post := by
  rintro clock state hopen rfl htells
  obtain ⟨token, htoken⟩ := hopen.token
  unfold Circumstances.run at htells ⊢
  rw [Program.run_ask_of_ok (Session.accept_of_fixed htoken (hopen.calls 0))] at htells ⊢
  simp only [Run.prepend, List.singleton_append, List.forall_mem_cons] at htells ⊢
  obtain ⟨hreply, hrest⟩ := htells
  rw [← Session.settle_fst c.session (clock 0), Session.settle_of_isSilent hreply.1] at hrest ⊢
  exact h token _ _ _ hreply (c.host.serves state call) _ _ hopen.later rfl hrest

theorem Leads.bind {p : Program α} {f : α → Program β} {mid : α → List Exchange → List Value → Prop}
    {post : β → List Exchange → List Value → Prop} (hp : c.Leads comments p mid)
    (hf : ∀ a xs later, mid a xs later → c.Leads later (f a) fun b ys => post b (xs ++ ys)) :
    c.Leads comments (p.bind f) post := by
  intro clock state hopen hstate htells
  unfold Circumstances.run at htells ⊢
  rw [Program.run_bind] at htells ⊢
  simp only [Run.prepend, List.forall_mem_append] at htells ⊢
  obtain ⟨hsession, hmid⟩ := hp clock state hopen hstate htells.1
  unfold Circumstances.run at hsession hmid
  rw [hsession] at htells ⊢
  exact hf _ _ _ hmid _ _ (hopen.run _ _ _ _) rfl htells.2

/-! ### Tasks that write no comment -/

/-- A task yields a result, whatever it shows on the way, and leaves the comments. -/
def Reads (c : Circumstances σ t) (comments : List Value) (task : Task ε α) (result : Except ε α) :
    Prop :=
  c.Leads comments task.run fun r _ later => r = result ∧ later = comments

theorem Reads.leads {task : Task ε α} {result : Except ε α} {f : α → Task ε β}
    {post : Except ε β → List Exchange → List Value → Prop} (h : c.Reads comments task result)
    (herror : ∀ e xs, result = .error e → post (.error e) xs comments)
    (hok : ∀ a xs, result = .ok a → c.Leads comments (f a).run fun b ys => post b (xs ++ ys)) :
    c.Leads comments (task >>= f).run post := by
  refine Leads.bind h ?_
  rintro r xs later ⟨rfl, rfl⟩
  cases r with
  | error e => exact .done (by simpa using herror e xs rfl)
  | ok a => exact hok a xs rfl

theorem Reads.bind {task : Task ε α} {result : Except ε α} {f : α → Task ε β} {g : α → Except ε β}
    (h : c.Reads comments task result) (hf : ∀ a, result = .ok a → c.Reads comments (f a) (g a)) :
    c.Reads comments (task >>= f) (result >>= g) := by
  refine h.leads ?_ ?_
  · rintro e xs rfl
    exact ⟨rfl, rfl⟩
  · rintro a xs rfl
    exact hf a rfl

theorem Reads.then {task : Task ε α} {a : α} {f : α → Task ε β} {result : Except ε β}
    (h : c.Reads comments task (.ok a)) (hf : c.Reads comments (f a) result) :
    c.Reads comments (task >>= f) result :=
  h.bind fun _ ha => Except.ok.inj ha ▸ hf

theorem Reads.pure (a : α) : c.Reads comments (pure a : Task ε α) (.ok a) := .done ⟨rfl, rfl⟩

theorem Reads.settle (result : Except ε α) : c.Reads comments (settle result) result :=
  .done ⟨rfl, rfl⟩

theorem Reads.mapError {task : Task ε α} {result : Except ε α} (h : c.Reads comments task result)
    (f : ε → ε') : c.Reads comments (task.mapError f) (result.mapError f) := by
  refine Leads.bind h ?_
  rintro r xs later ⟨rfl, rfl⟩
  exact .done ⟨rfl, rfl⟩

end Circumstances

/-! ### What a check run reads -/

/-- The text of the first of some files that is there. -/
def Source.firstFile (source : Source) : List String → Except Failure (Option String)
  | [] => .ok none
  | path :: rest => do
    match ← (source.file path).mapError .call with
    | some text => return some text
    | none => source.firstFile rest

/-- The options that a check run loads. -/
def Source.options (source : Source) : Except Failure Options := do
  (Options.load (← source.firstFile Options.filePaths)).mapError .options

/-- The comment of an app that a check run takes up. -/
def ownComment (app : App) (comments : List Value) : Except Failure (Option Value) := do
  let found? ← (firstOfApp app.identifier comments).mapError .call
  return found?.filter Value.isTruthy

/-- What a check run finds out from a source and some comments: the options, the action items and
the comment of the app. -/
def Source.findings [CharNames] (source : Source) (app : App) (comments : List Value) :
    Except Failure (Options × Analysis × Option Value) := do
  let options ← source.options
  let analysis ← (analyze options source.diff).mapError .analysis
  return (options, analysis, ← ownComment app comments)

namespace Circumstances

variable {σ : Type} {t : Thread} {c : Circumstances σ t} {comments : List Value}
  {request : CheckRequest}

theorem run_call_document {α : Type} (call : Call) (a : α) :
    (do let _ ← CheckRun.call call.document; return a : Task Failure α).run =
      .ask call fun outcome =>
        .done (((outcome.bind readDocument).mapError .call).map fun _ => a) := by
  refine congrArg (Program.ask call) (funext fun outcome => ?_)
  cases outcome with
  | error f => rfl
  | ok body =>
    show Program.bind (Program.bind (.done (readDocument body)) _) _ = _
    simp only [Except.bind]
    cases readDocument body <;> rfl

theorem leads_call {α : Type} {call : Call} (a : α)
    (hdocument : ∀ token reply time, c.source.Tells ⟨call, token, reply, time⟩ →
      ∃ document, (reply.outcome time).bind readDocument = .ok document) :
    c.Leads comments (do let _ ← CheckRun.call call.document; return a : Task Failure α).run
      fun r xs later => r = .ok a ∧ ∃ x : Exchange, xs = [x] ∧ x.call = call ∧
        (∃ body, x.outcome = .ok body) ∧ Serves t comments call x.reply later := by
  rw [run_call_document]
  refine .ask fun token reply time later htells hserves => ?_
  obtain ⟨document, hdocument⟩ := hdocument token reply time htells
  obtain ⟨body, hbody, -⟩ := Except.of_bind_ok hdocument
  rw [hdocument]
  exact .done ⟨rfl, _, rfl, rfl, ⟨body, hbody⟩, hserves⟩

theorem leads_update (fields : List (String × Value)) :
    c.Leads comments (update request fields).run fun r xs later => r = .ok () ∧
      (∃ x : Exchange, xs = [x] ∧ x.call = updateCall request fields) ∧ later = comments := by
  refine (leads_call () fun _ _ _ h => h.2).mono ?_
  rintro r xs later ⟨hr, x, hxs, hcall, -, hserves⟩
  exact ⟨hr, ⟨x, hxs, hcall⟩, hserves.eq_of_not_writes id⟩

theorem reads_fetchFile (path : String) (commit : Value) (repository : String) :
    c.Reads comments (fetchFile repository path commit) (c.source.file path) := by
  unfold Reads
  rw [run_fetchFile]
  refine .ask fun token reply time later htells hserves => .done ⟨htells.2, ?_⟩
  exact hserves.eq_of_not_writes id

theorem reads_fetchDiff (repository : String) (number : Value) :
    c.Reads comments (fetchDiff repository number) (.ok c.source.diff) := by
  unfold Reads
  rw [run_fetchDiff]
  refine .ask fun token reply time later htells hserves => .done ⟨htells.2, ?_⟩
  exact hserves.eq_of_not_writes id

theorem reads_firstFile (paths : List String) :
    c.Reads comments (firstFile request paths) (c.source.firstFile paths) := by
  induction paths with
  | nil => exact .pure none
  | cons path paths ih =>
    refine Reads.bind ((reads_fetchFile path _ _).mapError _) fun found? _ => ?_
    cases found? with
    | none => exact ih
    | some text => exact .pure (some text)

theorem reads_commentsFrom {pages page : Nat}
    (hpages : comments.length < pageSize * (page + pages)) :
    c.Reads comments (commentsFrom t.repository (.int t.number) pages (page + 1))
      (.ok (comments.drop (pageSize * page))) := by
  induction pages generalizing page with
  | zero =>
    rw [Nat.add_zero] at hpages
    rw [List.drop_eq_nil_of_le (Nat.le_of_lt hpages)]
    exact .pure []
  | succ pages ih =>
    unfold Reads
    rw [run_commentsFrom_succ]
    refine .ask fun token reply time later htells hserves => ?_
    obtain ⟨rfl, hpage⟩ := hserves.page htells.2
    rw [hpage]
    cases hmore : !decide ((pageOf later (page + 1)).length < pageSize) with
    | false =>
      have short : (pageOf later (page + 1)).length < pageSize := by simpa using hmore
      refine .done ⟨?_, rfl⟩
      rw [pageOf_eq_drop short]
    | true =>
      have rest : later.length < pageSize * (page + 1 + pages) := by rwa [Nat.add_right_comm]
      refine Leads.bind (ih rest) ?_
      rintro rest xs final ⟨rfl, rfl⟩
      refine .done ⟨?_, rfl⟩
      simp [Except.map, pageOf_append_drop]

theorem reads_findComment {app : App} {pages : Nat}
    (hrepository : request.repository = t.repository) (hnumber : request.pullRequest = t.number)
    (hpages : comments.length < pageSize * pages) :
    c.Reads comments (findComment app pages request) (ownComment app comments) := by
  unfold findComment
  rw [hrepository, hnumber]
  refine Reads.bind ?_ fun found? _ => .pure _
  refine Reads.mapError ?_ _
  have few : comments.length < pageSize * (0 + pages) := by rwa [Nat.zero_add]
  have whole : c.Reads comments (listComments pages t.repository (.int t.number)) (.ok comments) :=
    reads_commentsFrom few
  exact whole.bind fun comments _ => .settle _

/-- **What a check run reads** is what there is to be found out. -/
theorem reads_gather [CharNames] {app : App} {pages : Nat}
    (hrepository : request.repository = t.repository) (hnumber : request.pullRequest = t.number)
    (hpages : comments.length < pageSize * pages) :
    c.Reads comments (gather app pages request) (c.source.findings app comments) := by
  have started : c.Reads comments (update request startedFields) (.ok ()) :=
    (leads_update startedFields).mono fun _ _ _ h => ⟨h.1, h.2.2⟩
  have loaded : c.Reads comments (loadOptions request) c.source.options :=
    (reads_firstFile _).bind fun text? _ => .settle _
  have fetched :
      c.Reads comments (CheckRun.call (fetchDiff request.repository (.int request.pullRequest)))
      (.ok c.source.diff) := (reads_fetchDiff _ _).mapError Failure.call
  unfold gather Source.findings
  refine started.then (loaded.bind fun options _ => fetched.then ?_)
  refine (Reads.settle _).bind fun analysis _ => ?_
  exact (reads_findComment hrepository hnumber hpages).bind fun own? _ => .pure _

end Circumstances

/-! ### What a check run writes -/

/-- What becomes of the comments if a text is written into a comment of the app or, if it has none,
as a new one. -/
inductive Writes (t : Thread) : Option Value → Option String → List Value → List Value → Prop
  | nothing {own? : Option Value} {comments : List Value} : Writes t own? none comments comments
  | created {text : String} {comments : List Value} (comment : Value)
    (happ : IsBy (.int t.app) comment) (hbody : comment.get? "body" = some (.text text))
    (fresh : ∀ other ∈ comments, shownId? other ≠ shownId? comment) :
    Writes t none (some text) comments (comments ++ [comment])
  | updated {text : String} {own id : Value} {comments : List Value} (hid : own.get? "id" = some id)
    (edit : Value → Value)
    (hedit : ∀ c ∈ comments, shownId? c = some id.display → Edits (.text text) c (edit c)) :
    Writes t (some own) (some text) comments
      (comments.map fun c => if shownId? c = some id.display then edit c else c)

/-- What a check run means to write, and into which comment. -/
structure Intent where
  total : Nat
  plan : Plan
  own? : Option Value

/-- A comment that is written into has an identifier. -/
def checkId : Option Value → Except Failure Unit
  | none => .ok ()
  | some own => (commentId own).map fun _ => ()

/-- The comment that a plan is written into has an identifier. -/
def Plan.checkTarget (plan : Plan) (own? : Option Value) : Except Failure Unit :=
  match plan.comment? with
  | none => .ok ()
  | some _ => checkId own?

/-- What a check run means to write, or why it fails. -/
def Source.intent? [CharNames] (source : Source) (app : App) (request : CheckRequest)
    (comments : List Value) : Except Failure Intent := do
  let (options, analysis, own?) ← source.findings app comments
  let plan ← (Plan.make request options analysis own?.isSome).mapError .report
  plan.checkTarget own?
  return ⟨analysis.total, plan, own?⟩

/-- The outcome of a check run with an intent. -/
def Intent.outcome (intent : Intent) : Outcome :=
  .completed intent.total (intent.plan.comment?.map fun _ => actionOn intent.own?)

/-- The outcome of a check run with an intent, or of one that fails. -/
def outcomeOf : Except Failure Intent → Outcome
  | .ok intent => intent.outcome
  | .error failure => .broken failure

/-- The verdict that a check run ends with. -/
def verdictOf : Except Failure Intent → Verdict
  | .ok intent => intent.plan.verdict
  | .error failure => .broken failure.message

/-- What a check run leaves of the comments. -/
def Leaves (t : Thread) (intent? : Except Failure Intent) (comments later : List Value) : Prop :=
  match intent? with
  | .ok intent => Writes t intent.own? intent.plan.comment? comments later
  | .error _ => later = comments

/-- Some exchanges end with a call. -/
def EndsIn (call : Call) (xs : List Exchange) : Prop :=
  ∃ before x, xs = before ++ [x] ∧ x.call = call

theorem EndsIn.append {call : Call} {ys : List Exchange} (h : EndsIn call ys) (xs : List Exchange) :
    EndsIn call (xs ++ ys) := by
  obtain ⟨before, x, rfl, hx⟩ := h
  exact ⟨xs ++ before, x, (List.append_assoc ..).symm, hx⟩

namespace Circumstances

variable {σ : Type} {t : Thread} {c : Circumstances σ t} {comments : List Value}
  {request : CheckRequest}

theorem leads_writeComment {own? : Option Value} (text : String)
    (hrepository : request.repository = t.repository) (hnumber : request.pullRequest = t.number) :
    c.Leads comments (writeComment request own? text).run fun r _ later =>
      r = (checkId own?).map (fun _ => actionOn own?) ∧
        (checkId own? = .ok () → Writes t own? (some text) comments later) ∧
        ∀ f, checkId own? = .error f → later = comments := by
  cases own? with
  | none =>
    refine (leads_call _ fun _ _ _ h => h.2).mono ?_
    rintro r xs later ⟨rfl, x, -, -, ⟨body, hbody⟩, hserves⟩
    refine ⟨rfl, fun _ => ?_, nofun⟩
    rw [hrepository, hnumber] at hserves
    cases hserves with
    | created comment hnumber happ hbody fresh => exact .created comment happ hbody fresh
    | other h => exact absurd ⟨rfl, rfl⟩ h
    | failed h =>
      obtain ⟨f, hf⟩ := h x.time
      rw [Exchange.outcome, hf] at hbody
      cases hbody
  | some own =>
    refine Reads.leads (Reads.settle (commentId own)) ?_ ?_
    · intro f xs hf
      have checked : checkId (some own) = .error f := by rw [checkId, hf]; rfl
      rw [checked]
      exact ⟨rfl, nofun, fun _ _ => rfl⟩
    · intro id xs hid
      have checked : checkId (some own) = .ok () := by rw [checkId, hid]; rfl
      have found : own.get? "id" = some id := by
        unfold commentId at hid
        split at hid
        · next hget => cases hid; exact hget
        · cases hid
      rw [checked]
      refine (leads_call _ fun _ _ _ h => h.2).mono ?_
      rintro r xs later ⟨rfl, x, -, -, ⟨body, hbody⟩, hserves⟩
      refine ⟨rfl, fun _ => ?_, nofun⟩
      rw [hrepository] at hserves
      cases hserves with
      | updated edit hedit => exact .updated found edit hedit
      | other h => exact absurd ⟨rfl, trivial⟩ h
      | failed h =>
        obtain ⟨f, hf⟩ := h x.time
        rw [Exchange.outcome, hf] at hbody
        cases hbody

theorem leads_comment (plan : Plan) (own? : Option Value)
    (hrepository : request.repository = t.repository) (hnumber : request.pullRequest = t.number) :
    c.Leads comments (plan.comment?.mapM (writeComment request own?)).run fun r _ later =>
      r = (plan.checkTarget own?).map (fun _ => plan.comment?.map fun _ => actionOn own?) ∧
        (plan.checkTarget own? = .ok () → Writes t own? plan.comment? comments later) ∧
        ∀ f, plan.checkTarget own? = .error f → later = comments := by
  unfold Plan.checkTarget
  cases plan.comment? with
  | none => exact .done ⟨rfl, fun _ => .nothing, nofun⟩
  | some text =>
    refine Leads.bind (leads_writeComment text hrepository hnumber) ?_
    rintro r xs later ⟨rfl, hwritten⟩
    dsimp only
    generalize checkId own? = checked at hwritten ⊢
    cases checked with
    | ok u => exact .done ⟨rfl, hwritten⟩
    | error f => exact .done ⟨rfl, hwritten⟩

/-- **A plan is written as it is meant to be**: its comment, and then its verdict. -/
theorem leads_write (plan : Plan) (own? : Option Value)
    (hrepository : request.repository = t.repository) (hnumber : request.pullRequest = t.number) :
    c.Leads comments (plan.write request own?).run fun r xs later =>
      r = (plan.checkTarget own?).map (fun _ => plan.comment?.map fun _ => actionOn own?) ∧
        (plan.checkTarget own? = .ok () → EndsIn (updateCall request plan.verdict.fields) xs ∧
          Writes t own? plan.comment? comments later) ∧
        ∀ f, plan.checkTarget own? = .error f → later = comments := by
  refine Leads.bind (leads_comment plan own? hrepository hnumber) ?_
  rintro r ws later ⟨rfl, hwritten, hfailed⟩
  cases hc : plan.checkTarget own? with
  | error f => exact .done ⟨rfl, nofun, fun _ _ => hfailed f hc⟩
  | ok checked =>
    refine Leads.bind (leads_update plan.verdict.fields) ?_
    rintro r us final ⟨rfl, ⟨u, rfl, hu⟩, rfl⟩
    refine .done ⟨rfl, fun _ => ⟨?_, hwritten hc⟩, nofun⟩
    exact ⟨ws, u, by simp, hu⟩

/-- What a check run writes is what it means to write, or it fails. -/
theorem leads_carryOut [CharNames] {app : App} {pages : Nat}
    (hrepository : request.repository = t.repository) (hnumber : request.pullRequest = t.number)
    (hpages : comments.length < pageSize * pages) :
    c.Leads comments (carryOut app pages request).run fun r xs later =>
      let intent? := c.source.intent? app request comments
      r = intent?.map Intent.outcome ∧ Leaves t intent? comments later ∧
        ∀ intent, intent? = .ok intent →
          EndsIn (updateCall request intent.plan.verdict.fields) xs := by
  rw [carryOut_eq]
  unfold Source.intent?
  refine Reads.leads (reads_gather hrepository hnumber hpages) ?_ ?_
  · intro f xs hf
    rw [hf]
    exact ⟨rfl, rfl, nofun⟩
  rintro ⟨options, analysis, own?⟩ xs hfound
  rw [hfound]
  refine Reads.leads
    (Reads.settle ((Plan.make request options analysis own?.isSome).mapError Failure.report)) ?_ ?_
  · intro f ys hf
    simp only [bind, Except.bind, hf]
    exact ⟨rfl, rfl, nofun⟩
  intro plan ys hplan
  refine Leads.bind (leads_write plan own? hrepository hnumber) ?_
  rintro r ws later ⟨rfl, hwritten, hfailed⟩
  simp only [bind, Except.bind, hplan]
  generalize plan.checkTarget own? = checked at hwritten hfailed ⊢
  cases checked with
  | error f => exact .done ⟨rfl, hfailed f rfl, nofun⟩
  | ok u =>
    obtain ⟨hends, hwrites⟩ := hwritten rfl
    refine .done ⟨rfl, hwrites, ?_⟩
    rintro intent ⟨⟩
    simpa using (hends.append ys).append xs

/-- A check run ends with the verdict and leaves the comments that it means to. -/
theorem leads_run [CharNames] {app : App} {pages : Nat}
    (hrepository : request.repository = t.repository) (hnumber : request.pullRequest = t.number)
    (hpages : comments.length < pageSize * pages) :
    c.Leads comments (CheckRun.run app pages request) fun outcome xs later =>
      let intent? := c.source.intent? app request comments
      outcome = outcomeOf intent? ∧ Leaves t intent? comments later ∧
        EndsIn (updateCall request (verdictOf intent?).fields) xs := by
  rw [run_eq]
  refine Leads.bind (leads_carryOut hrepository hnumber hpages) ?_
  rintro r xs later ⟨rfl, hleaves, hends⟩
  cases hi : c.source.intent? app request comments with
  | ok intent =>
    rw [hi] at hleaves
    refine .done ⟨rfl, hleaves, ?_⟩
    rw [List.append_nil]
    exact hends intent hi
  | error failure =>
    rw [hi] at hleaves
    obtain rfl := hleaves
    refine .ask fun token reply time final htells hserves => .done ⟨rfl, ?_, _, _, rfl, rfl⟩
    exact hserves.eq_of_not_writes id

end Circumstances

/-- **A check run of which all calls are answered** does what it means to do: it leaves the session,
writes the comment and ends with the verdict, and its outcome tells so. -/
theorem run_of_tells [CharNames] {σ : Type} {t : Thread} (host : Host σ t) (source : Source)
    {clock : Clock} {session : Session} (hopen : session.IsOpen clock) {app : App}
    {request : CheckRequest} {pages : Nat} {state : σ}
    (hrepository : request.repository = t.repository) (hnumber : request.pullRequest = t.number)
    (hpages : (host.comments state).length < pageSize * pages) {r : Run σ Outcome}
    (hr : r = (run app pages request).run clock host.service session state)
    (htells : ∀ x ∈ r.exchanges, source.Tells x) :
    let intent? := source.intent? app request (host.comments state)
    r.session = session ∧ r.result = outcomeOf intent? ∧
      Leaves t intent? (host.comments state) (host.comments r.service) ∧
        EndsIn (updateCall request (verdictOf intent?).fields) r.exchanges := by
  subst hr
  let c : Circumstances σ t := ⟨host, source, session⟩
  have leads : c.Leads (host.comments state) (run app pages request) _ :=
    Circumstances.leads_run hrepository hnumber hpages
  exact leads clock state hopen rfl htells

end CheckRun

end ActionItems
