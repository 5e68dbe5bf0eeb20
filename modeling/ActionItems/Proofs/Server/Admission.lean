import ActionItems.Proofs.CheckRun.Phases
import ActionItems.Proofs.Webhook.Route
import ActionItems.Server.Handler

/-!
# What reaches the service

The server makes calls for a request only if it is a delivery (`IsDelivery`) that is signed with the
secret (`IsSigned`) and tells of an event that the app may react to (`IsMeantFor`). Which calls
these are depends on what `Webhook.route` says about the event (`MayMake`): one that creates a check
run, or those of the check run that the event names.

A request passes through `handle`, `App.receive`, `App.deliver` and `App.react`, and each of them
either lets it through or ends without a call (`of_handle`, `of_receive`, `of_deliver`, `of_react`).
`admitted_of_calls` puts them together.
-/

namespace ActionItems.Server

open ActionItems.GitHub
open ActionItems.Webhook (Event Reaction)

variable {app : App} {pages : Nat} {r : Request} {xs : List Exchange}
  {kind : String} {event : Event} {reaction : Reaction}

/-! ### Requests that get through -/

/-- A request with the method and at the path of deliveries. Slashes at the beginning of a path
count as one, and its escapes are resolved. -/
structure IsDelivery (r : Request) : Prop where
  method : r.method.toUpper = "POST"
  path : plainPath (pathOf (pathOf r.address.toList)) = ['/']

/-- The signature that a request carries: that of the older header only if the newer one is missing
or empty. -/
inductive Carries (r : Request) (signature : String) : Prop
  | newer (h : r.header? "X-Hub-Signature-256" = some signature) (hne : signature ≠ "")
  | older (hnewer : r.header? "X-Hub-Signature-256" = none ∨
    r.header? "X-Hub-Signature-256" = some "")
    (h : r.header? "X-Hub-Signature" = some signature)

/-- The body of a request is signed with the secret of an app. -/
def IsSigned (app : App) (r : Request) : Prop :=
  ∃ secret signature, app.secret = .text secret ∧ Carries r signature ∧
    Webhook.verify r.body signature secret = .ok true

/-- An event of a kind that an app may react to: one of a pull request, or of a check that names the
app. -/
def IsMeantFor (n : Int) (kind : String) (event : Event) : Prop :=
  kind = "pull_request" ∨
    kind = "check_run" ∧ (∃ check, event.checkRun? = some check ∧ check.app? = some n) ∨
    kind = "check_suite" ∧ ∃ check, event.checkSuite? = some check ∧ check.app? = some n

/-- The commit at the head of what an event of a kind is about. -/
def IsHead (kind : String) (event : Event) (commit : String) : Prop :=
  kind = "pull_request" ∧ (∃ subject, event.pullRequest? = some subject ∧
    subject.headSha = commit) ∨
    kind = "check_suite" ∧ ∃ check, event.checkSuite? = some check ∧ check.headSha = commit

/-- The exchanges that a reaction may lead to, for an app with a name. -/
def MayMake (name : Value) (kind : String) (event : Event) (xs : List Exchange) : Reaction → Prop
  | .createCheckRun => xs.length ≤ 1 ∧ ∃ commit, IsHead kind event commit ∧ ∀ x ∈ xs,
      x.call = ⟨event.repository.fullName, .createCheckRun name (.text commit) (.text "queued")⟩
  | .runCheck => ∃ check, event.checkRun? = some check ∧ ∀ x ∈ xs,
      x.call.repository = event.repository.fullName ∧
        ∀ id fields, x.call.action = .updateCheckRun id fields → id = .int check.id
  | .ignore => xs = []

/-! ### Signatures -/

theorem verify_empty (body : List UInt8) (secret : String) :
    Webhook.verify body "" secret = .ok false := by
  unfold Webhook.verify
  split
  · rfl
  · rfl

theorem carries_signature (h : r.signature ≠ "") : Carries r r.signature := by
  have older : (r.header? "X-Hub-Signature").getD "" ≠ "" →
      r.header? "X-Hub-Signature" = some ((r.header? "X-Hub-Signature").getD "") := by
    cases r.header? "X-Hub-Signature" with
    | none => exact fun hne => absurd rfl hne
    | some signature => exact fun _ => rfl
  unfold Request.signature at h ⊢
  cases hnewer : r.header? "X-Hub-Signature-256" with
  | none =>
    rw [hnewer] at h
    exact .older (.inl hnewer) (older h)
  | some signature =>
    rw [hnewer, Option.getD_some] at h
    rw [Option.getD_some]
    split at h
    · exact .older (.inr hnewer) (older h)
    · next hne => exact .newer hnewer hne

theorem isSigned_of_accepts (h : app.accepts r = .ok true) : IsSigned app r := by
  unfold App.accepts at h
  split at h
  · next secret hsecret =>
    have verified := Except.of_mapError_ok h
    refine ⟨secret, r.signature, hsecret, carries_signature fun hs => ?_, verified⟩
    rw [hs, verify_empty] at verified
    cases verified
  · split at h <;> cases h

/-! ### Events -/

theorem isMeantFor_of_route {n : Int} (h : Webhook.route kind event (.int n) = .ok reaction) :
    IsMeantFor n kind event := by
  by_cases hkind : kind = "pull_request"
  · exact .inl hkind
  obtain ⟨check, hcheck, happ⟩ := Webhook.exists_check_of_route hkind h
  rcases Webhook.check?_eq_some_iff.1 hcheck with ⟨hrun, hcheck⟩ | ⟨hsuite, hcheck⟩
  · exact .inr (.inl ⟨hrun, check, hcheck, happ⟩)
  · exact .inr (.inr ⟨hsuite, check, hcheck, happ⟩)

/-- Only the kinds of event that a check run is created for lead to one. -/
theorem kind_of_createCheckRun {configured : Value}
    (h : Webhook.route kind event configured = .ok .createCheckRun) :
    kind = "pull_request" ∨ kind = "check_suite" := by
  unfold Webhook.route at h
  split at h
  · next hkind => exact .inl hkind
  split at h
  · dsimp only at h
    split at h
    · next hready =>
      simp only [Bool.and_eq_true, decide_eq_true_eq] at hready
      exact .inr hready.1.1
    · split at h <;> cases h
  · cases h

theorem isHead_of_checkTarget {target : Webhook.Target}
    (hkind : kind = "pull_request" ∨ kind = "check_suite")
    (h : Webhook.checkTarget kind event = some target) :
    target.repository = event.repository.fullName ∧ IsHead kind event target.commit := by
  obtain ⟨commit, hcommit, rfl⟩ := Option.map_eq_some_iff.1 h
  refine ⟨rfl, ?_⟩
  rcases hkind with rfl | rfl
  · obtain ⟨subject, hsubject, rfl⟩ := Option.map_eq_some_iff.1 hcommit
    exact .inl ⟨rfl, subject, hsubject, rfl⟩
  · obtain ⟨check, hcheck, rfl⟩ := Option.map_eq_some_iff.1 hcommit
    exact .inr ⟨rfl, check, hcheck, rfl⟩

theorem check_of_ofEvent {request : Webhook.CheckRequest}
    (h : Webhook.CheckRequest.ofEvent event = .ok request) :
    ∃ check, event.checkRun? = some check ∧ request.repository = event.repository.fullName ∧
      request.id = check.id := by
  unfold Webhook.CheckRequest.ofEvent at h
  split at h
  · next hcheck =>
    unfold Webhook.CheckRequest.make at h
    split at h
    · cases h
    split at h
    · cases h
    · cases h
      exact ⟨_, hcheck, rfl, rfl⟩
  · cases h

/-! ### Calls -/

theorem of_document {c : Call} {result : Except Failure Value}
    (h : Task.Trace c.document xs result) : xs.length ≤ 1 ∧ ∀ x ∈ xs, x.call = c := by
  unfold Task.Trace at h
  rw [run_document] at h
  obtain ⟨f, -, rfl, -⟩ | ⟨x, rfl, hx, -⟩ := h.of_ask
  · exact ⟨Nat.zero_le 1, by simp⟩
  · exact ⟨Nat.le_refl 1, by simp [hx]⟩

/-- The calls of a check run are in the repository of its request, and they set fields of no other
check run. -/
theorem asks_run_belongs [CharNames] {checks : CheckRun.App} {request : Webhook.CheckRequest} :
    (CheckRun.run checks pages request).Asks fun call => call.repository = request.repository ∧
      ∀ id fields, call.action = .updateCheckRun id fields → id = .int request.id := by
  refine CheckRun.asks_run (fun action hget => ⟨rfl, ?_⟩) (fun action hwrites => ⟨rfl, ?_⟩)
    fun fields => ⟨rfl, ?_⟩
  · rintro id fields rfl
    cases hget
  · rintro id fields rfl
    cases hwrites
  · rintro id fields' h
    cases h
    rfl

/-! ### The way of a request -/

theorem path_of_locate {address : String} (h : locate address = .endpoint .events) :
    plainPath (pathOf (pathOf address.toList)) = ['/'] := by
  unfold locate at h
  split at h
  · cases h
  dsimp only at h
  split at h
  · next e hpath =>
    cases h
    unfold Endpoint.ofPath? at hpath
    split at hpath
    · next hroot => exact hroot
    · split at hpath
      · cases hpath
      · split at hpath
        · split at hpath <;> cases hpath
        · cases hpath
  · cases h
  · cases h

theorem of_handle [CharNames] {response : Response} (h : (handle app pages r).Trace xs response) :
    xs = [] ∨ IsDelivery r ∧ ∃ c, Task.Trace (app.receive pages r) xs c := by
  unfold handle at h
  dsimp only at h
  split at h
  · exact .inl h.of_done.1
  · exact .inl h.of_done.1
  next e hlocate =>
  split at h
  · next hallows =>
    cases e with
    | health => exact .inl h.of_done.1
    | files => exact .inl h.of_done.1
    | events =>
      unfold App.answer at h
      dsimp only at h
      split at h
      · exact .inl h.of_done.1
      · next hoptions =>
        have method : r.method.toUpper = "POST" := by
          simpa [Endpoint.allows, hoptions] using hallows
        obtain ⟨ys, zs, c, rfl, hreceive, hanswer⟩ := h.of_bind
        have last : zs = [] := by
          cases c with
          | ok response => exact hanswer.of_done.1
          | error fault => exact hanswer.of_done.1
        rw [last, List.append_nil]
        exact .inr ⟨⟨method, path_of_locate hlocate⟩, c, hreceive⟩
  · exact .inl h.of_done.1

theorem of_receive [CharNames] {c : Except Fault Response}
    (h : Task.Trace (app.receive pages r) xs c) :
    xs = [] ∨ IsSigned app r ∧ Task.Trace (app.deliver pages r) xs c := by
  obtain ⟨e, rfl, hsettle⟩ | ⟨ys, zs, accepted, rfl, hsettle, hrest⟩ := Task.of_bind h
  · exact .inl (Task.of_settle hsettle).1
  obtain ⟨rfl, haccepts⟩ := Task.of_settle hsettle
  cases accepted with
  | false => exact .inl (Task.of_pure hrest).1
  | true => exact .inr ⟨isSigned_of_accepts haccepts.symm, hrest⟩

theorem of_deliver [CharNames] {c : Except Fault Response}
    (h : Task.Trace (app.deliver pages r) xs c) :
    xs = [] ∨ ∃ event reaction, Event.ofBytes r.body = .ok event ∧
      Webhook.route r.eventKind event app.checks.identifier = .ok reaction ∧
      Task.Trace (app.react pages r.eventKind event reaction) xs c := by
  unfold App.deliver at h
  split at h
  · exact .inl (Program.Trace.of_done h).1
  · exact .inl (Task.of_pure h).1
  · next event hevent =>
    split at h
    · exact .inl (Task.of_pure h).1
    · next reaction hroute => exact .inr ⟨event, reaction, hevent, hroute, h⟩

/-- A reaction leads to the calls that it may make. -/
theorem of_react [CharNames] {c : Except Fault Response} {configured : Value}
    (hroute : Webhook.route kind event configured = .ok reaction)
    (h : Task.Trace (app.react pages kind event reaction) xs c) :
    xs = [] ∨ MayMake app.checks.name kind event xs reaction := by
  cases reaction with
  | ignore => exact .inl (Task.of_pure h).1
  | createCheckRun =>
    unfold App.react at h
    dsimp only at h
    split at h
    · exact .inl (Program.Trace.of_done h).1
    · next target htarget =>
      obtain ⟨hrepository, hhead⟩ := isHead_of_checkTarget (kind_of_createCheckRun hroute) htarget
      have create : ∀ {ys result},
          Task.Trace ((CheckRun.create app.checks target).mapError Fault.call) ys result →
          MayMake app.checks.name kind event ys .createCheckRun := by
        intro ys result hcreate
        obtain ⟨r', htrace, -⟩ := Task.of_mapError hcreate
        obtain ⟨hone, hcall⟩ := of_document htrace
        exact ⟨hone, target.commit, hhead, fun x hx => by rw [hcall x hx, hrepository]; rfl⟩
      obtain ⟨e, rfl, hcreate⟩ | ⟨ys, zs, v, rfl, hcreate, hdone⟩ := Task.of_bind h
      · exact .inr (create hcreate)
      · obtain ⟨rfl, -⟩ := Task.of_pure hdone
        rw [List.append_nil]
        exact .inr (create hcreate)
  | runCheck =>
    unfold App.react at h
    obtain ⟨e, rfl, hsettle⟩ | ⟨ys, zs, request, rfl, hsettle, hrest⟩ := Task.of_bind h
    · exact .inl (Task.of_settle hsettle).1
    obtain ⟨rfl, hrequest⟩ := Task.of_settle hsettle
    obtain ⟨check, hcheck, hrepository, hid⟩ :=
      check_of_ofEvent (Except.of_mapError_ok hrequest.symm)
    have asks : Task.Asks (fun call => call.repository = request.repository ∧
        ∀ id fields, call.action = .updateCheckRun id fields → id = .int request.id)
        (do let outcome ← ExceptT.lift (CheckRun.run app.checks pages request)
            return .completed outcome : Task Fault Response) :=
      Task.asks_bind (Program.Asks.bind asks_run_belongs fun _ => trivial) fun _ => Task.asks_pure _
    refine .inr ⟨check, hcheck, fun x hx => ?_⟩
    rw [← hrepository, ← hid]
    exact asks.of_trace hrest x hx

/-- **Nothing but an admitted request reaches the service.** For an app with a number, a request
that leads to a call is a delivery, it is signed, and its event is meant for the app; the calls are
those that its reaction may make. -/
theorem admitted_of_calls [CharNames] {σ : Type} {n : Int} (happ : app.checks.identifier = .int n)
    (pages : Nat) (r : Request) (clock : Clock) (service : Service σ) (session : Session)
    (state : σ) :
    let xs := ((handle app pages r).run clock service session state).exchanges
    xs = [] ∨ IsDelivery r ∧ IsSigned app r ∧ ∃ event reaction, Event.ofBytes r.body = .ok event ∧
      IsMeantFor n r.eventKind event ∧
      Webhook.route r.eventKind event app.checks.identifier = .ok reaction ∧
      MayMake app.checks.name r.eventKind event xs reaction := by
  intro xs
  obtain hnone | ⟨hdelivery, c, hreceive⟩ :=
    of_handle (Program.trace_run clock service _ session state)
  · exact .inl hnone
  obtain hnone | ⟨hsigned, hdeliver⟩ := of_receive hreceive
  · exact .inl hnone
  obtain hnone | ⟨event, reaction, hevent, hroute, hreact⟩ := of_deliver hdeliver
  · exact .inl hnone
  obtain hnone | hcalls := of_react hroute hreact
  · exact .inl hnone
  have meant : IsMeantFor n r.eventKind event := isMeantFor_of_route (happ ▸ hroute)
  exact .inr ⟨hdelivery, hsigned, event, reaction, hevent, meant, hroute, hcalls⟩

attribute [local instance] CharNames.ascii

/-- A signed delivery about a pull request that was opened leads to a call. -/
theorem admitted_of_calls_opened :
    let body := Bytes.encode ("\x7b\"action\": \"opened\", " ++
      "\"repository\": \x7b\"name\": \"r\", \"full_name\": \"o/r\"\x7d, " ++
      "\"pull_request\": \x7b\"number\": 5, \"head\": \x7b\"sha\": \"abc\"\x7d\x7d\x7d")
    let r : Request := ⟨"POST", "/", [("X-GitHub-Event", "pull_request"), ("X-Hub-Signature-256",
      "sha256=02898dde9cb80c7d2f6dc22f71d2a92496bc808f6d9707ce90d0abbac1f29975")], body⟩
    let app : App := ⟨⟨.int 7, .text "app"⟩, .text "s"⟩
    let xs := ((handle app 1 r).run (fun n => ⟨n⟩) Service.script { tokens := .fixed "t" }
      [.answer 201 [] (Bytes.encode "\x7b\x7d")]).exchanges
    xs.length = 1 ∧ IsDelivery r ∧ IsSigned app r ∧ ∃ event reaction, Event.ofBytes r.body =
      .ok event ∧
      IsMeantFor 7 r.eventKind event ∧ Webhook.route r.eventKind event (.int 7) = .ok reaction ∧
      MayMake (.text "app") r.eventKind event xs reaction := by
  intro body r app xs
  have one : xs.length = 1 := by decide +kernel
  have known : app.checks.identifier = .int 7 := rfl
  obtain hnone | admitted :=
    admitted_of_calls known 1 r (fun n => ⟨n⟩) Service.script { tokens := .fixed "t" }
    [.answer 201 [] (Bytes.encode "\x7b\x7d")]
  · rw [show xs = [] from hnone] at one
    cases one
  · exact ⟨one, admitted⟩

end ActionItems.Server
