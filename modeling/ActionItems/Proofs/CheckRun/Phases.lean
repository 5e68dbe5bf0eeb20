import ActionItems.Proofs.CheckRun.Findings
import ActionItems.Proofs.Except

/-!
# The phases of a check run

A check run reads, then writes the comment of the app, then completes the check run, and if anything
fails on the way, reports the failure. A trace of a run is taken apart along these phases:
`run_cases` splits off the report of a failure, `carryOut_cases` what is read before anything is
written, and `write_cases` the comment and the verdict.

Calls are told apart by what they write: `WritesComment` and `Completes`; the others are `IsQuiet`.
-/

namespace ActionItems.CheckRun

open ActionItems.GitHub
open ActionItems.Webhook (CheckRequest)

variable {request : CheckRequest} {app : App} {pages : Nat} {xs : List Exchange}

/-! ### Kinds of calls -/

/-- A call that writes a comment. -/
def WritesComment (call : Call) : Prop :=
  match call.action with
  | .createComment .. => True
  | .updateComment .. => True
  | _ => False

/-- A call that completes a check run. -/
def Completes (call : Call) : Prop :=
  ∃ id fields, call.action = .updateCheckRun id fields ∧ ("status", .text "completed") ∈ fields

/-- A call that neither writes a comment nor completes a check run. -/
def IsQuiet (call : Call) : Prop := ¬ WritesComment call ∧ ¬ Completes call

/-- The call that sets fields of the check run of a request. -/
def updateCall (request : CheckRequest) (fields : List (String × Value)) : Call :=
  ⟨request.repository, .updateCheckRun (.int request.id) fields⟩

/-- The call completes the check run of a request with a conclusion. -/
def CompletesWith (request : CheckRequest) (conclusion : Conclusion) (call : Call) : Prop :=
  ∃ fields, call = updateCall request fields ∧ ("status", .text "completed") ∈ fields ∧
    ("conclusion", .text conclusion.word) ∈ fields

theorem completesWith_fields (request : CheckRequest) (v : Verdict) :
    CompletesWith request v.conclusion (updateCall request v.fields) :=
  ⟨v.fields, rfl, by simp [Verdict.fields], by simp [Verdict.fields]⟩

theorem eq_of_completesWith {conclusion : Conclusion} {v : Verdict}
    (h : CompletesWith request conclusion (updateCall request v.fields)) :
    conclusion = v.conclusion := by
  obtain ⟨fields, hcall, -, hword⟩ := h
  cases hcall
  have word : conclusion.word = v.conclusion.word := by simpa [Verdict.fields] using hword
  cases hc : v.conclusion <;> rw [hc] at word <;> cases conclusion <;> simp [Conclusion.word]
    at word ⊢

theorem CompletesWith.completes {conclusion : Conclusion} {call : Call}
    (h : CompletesWith request conclusion call) : Completes call ∧ ¬ WritesComment call := by
  obtain ⟨fields, rfl, hstatus, -⟩ := h
  exact ⟨⟨_, fields, rfl, hstatus⟩, id⟩

theorem isQuiet_started (request : CheckRequest) : IsQuiet (updateCall request startedFields) := by
  refine ⟨id, ?_⟩
  rintro ⟨id, fields, h, hstatus⟩
  cases h
  simp [startedFields] at hstatus

theorem isQuiet_of_get {call : Call} (h : call.action.method = .get) : IsQuiet call := by
  obtain ⟨repository, action⟩ := call
  cases action with
  | fetchDiff number => exact ⟨id, fun ⟨_, _, h, _⟩ => nomatch h⟩
  | fetchFile path commit => exact ⟨id, fun ⟨_, _, h, _⟩ => nomatch h⟩
  | listComments number page => exact ⟨id, fun ⟨_, _, h, _⟩ => nomatch h⟩
  | _ => cases h

/-! ### What is read -/

/-- What a check run finds out before anything is written. -/
structure Findings where
  options : Options
  diff : String
  comments : List Value

/-- The exchanges of a check run that go before anything is written, and what they tell. -/
inductive Gathers (request : CheckRequest) : List Exchange → Findings → Prop
  | intro {start fetch : Exchange} {files pages : List Exchange} {text? : Option String}
    {f : Findings} (hstart : start.call = updateCall request startedFields)
    (hfiles : FindsFile request Options.filePaths files text?)
    (hoptions : Options.load text? = .ok f.options)
    (hfetch : fetch.call = ⟨request.repository, .fetchDiff (.int request.pullRequest)⟩)
    (hdiff : fetch.outcome.map Bytes.decodeLossy = .ok f.diff)
    (hpages : Lists request.repository (.int request.pullRequest) 1 pages f.comments) :
    Gathers request (start :: (files ++ fetch :: pages)) f

theorem FindsFile.isQuiet {paths : List String} {text? : Option String}
    (h : FindsFile request paths xs text?) : ∀ x ∈ xs, IsQuiet x.call := by
  induction h with
  | nothing => simp
  | absent hcall hreply h ih =>
    rw [List.forall_mem_cons]
    exact ⟨isQuiet_of_get (by rw [hcall]; rfl), ih⟩
  | found hcall hreply =>
    rw [List.forall_mem_cons]
    exact ⟨isQuiet_of_get (by rw [hcall]; rfl), by simp⟩

theorem Lists.isQuiet {repository : String} {number : Value} {page : Nat} {items : List Value}
    (h : Lists repository number page xs items) : ∀ x ∈ xs, IsQuiet x.call := by
  induction h with
  | last hcall hreply =>
    rw [List.forall_mem_cons]
    exact ⟨isQuiet_of_get (by rw [hcall]; rfl), by simp⟩
  | more hcall hreply h ih =>
    rw [List.forall_mem_cons]
    exact ⟨isQuiet_of_get (by rw [hcall]; rfl), ih⟩

/-- A listing of comments among some exchanges, after quiet ones, stops at a number of pages with
the last of them still full. -/
def CutShort (request : CheckRequest) (pages : Nat) (xs : List Exchange) : Prop :=
  ∃ before full after, xs = before ++ (full ++ after) ∧ (∀ x ∈ before, IsQuiet x.call) ∧
    full.length = pages ∧ FullPages request.repository (.int request.pullRequest) 1 full

theorem CutShort.append (h : CutShort request pages xs) (ys : List Exchange) :
    CutShort request pages (xs ++ ys) := by
  obtain ⟨before, full, after, rfl, hbefore, hlength, hfull⟩ := h
  exact ⟨before, full, after ++ ys, by simp, hbefore, hlength, hfull⟩

/-- A listing that is cut short has an answer for every page. -/
theorem not_cutShort (h : xs.countP (·.reply.isAnswer) < pages) : ¬ CutShort request pages xs := by
  rintro ⟨before, full, after, rfl, -, hlength, hfull⟩
  have answers := hfull.countP_isAnswer
  rw [List.countP_append, List.countP_append] at h
  omega

theorem Gathers.isQuiet {f : Findings} (h : Gathers request xs f) : ∀ x ∈ xs, IsQuiet x.call := by
  obtain ⟨hstart, hfiles, -, hfetch, -, hpages⟩ := h
  rw [List.forall_mem_cons, List.forall_mem_append, List.forall_mem_cons]
  exact ⟨by rw [hstart]; exact isQuiet_started request, hfiles.isQuiet,
    isQuiet_of_get (by rw [hfetch]; rfl), hpages.isQuiet⟩

/-! ### What is written -/

/-- What a call for a document comes to as part of a check run. -/
def documentOutcome (x : Exchange) : Except Failure Value :=
  (x.outcome.bind readDocument).mapError .call

theorem call_cases {c : Call} {r : Except Failure Value} (h : Task.Trace (call c.document) xs r) :
    (xs = [] ∧ ∃ e, r = .error e) ∨
      ∃ x : Exchange, xs = [x] ∧ x.call = c ∧ r = documentOutcome x := by
  obtain ⟨r', htrace, rfl⟩ := Task.of_mapError h
  unfold Task.Trace at htrace
  rw [run_document] at htrace
  obtain ⟨f, -, rfl, rfl⟩ | ⟨x, rfl, hcall, rfl⟩ := htrace.of_ask
  · exact .inl ⟨rfl, .call f, rfl⟩
  · exact .inr ⟨x, rfl, hcall, rfl⟩

theorem document_cases {α : Type} {c : Call} {a : α} {r : Except Failure α}
    (h : Task.Trace (do let _ ← call c.document; return a) xs r) :
    (xs = [] ∧ ∃ e, r = .error e) ∨
      ∃ x : Exchange, xs = [x] ∧ x.call = c ∧ r = (documentOutcome x).map fun _ => a := by
  obtain ⟨e, rfl, hcall⟩ | ⟨ys, zs, v, rfl, hcall, hdone⟩ := Task.of_bind h
  · obtain ⟨rfl, -⟩ | ⟨x, rfl, hx, he⟩ := call_cases hcall
    · exact .inl ⟨rfl, e, rfl⟩
    · exact .inr ⟨x, rfl, hx, by rw [← he]; rfl⟩
  · obtain ⟨rfl, rfl⟩ := Task.of_pure hdone
    obtain ⟨rfl, e, he⟩ | ⟨x, rfl, hx, he⟩ := call_cases hcall
    · cases he
    · exact .inr ⟨x, rfl, hx, by rw [← he]; rfl⟩

theorem asks_call {α : Type} {P : Call → Prop} {c : Call} (h : P c) (a : α) :
    Task.Asks P (do let _ ← call c.document; return a) :=
  Task.asks_bind (Task.asks_mapError _ (Task.asks_document h)) fun _ => Task.asks_pure a

theorem update_cases {fields : List (String × Value)} {r : Except Failure Unit}
    (h : Task.Trace (update request fields) xs r) :
    (xs = [] ∧ ∃ e, r = .error e) ∨ ∃ x : Exchange, xs = [x] ∧ x.call = updateCall request fields ∧
      r = (documentOutcome x).map fun _ => () :=
  document_cases h

/-- What is done with the comment of the app, depending on whether there is one. -/
def actionOn (own? : Option Value) : CommentAction := if own?.isSome then .updated else .created

/-- The call that writes the comment of the app; there is none into a comment without an
identifier. -/
def writeCall? (request : CheckRequest) (own? : Option Value) (text : String) : Option Call :=
  match own? with
  | none => some ⟨request.repository, .createComment (.int request.pullRequest) (.text text)⟩
  | some own => (own.get? "id").map fun id => ⟨request.repository, .updateComment id (.text text)⟩

theorem writesComment_of_writeCall? {own? : Option Value} {text : String} {c : Call}
    (h : writeCall? request own? text = some c) : WritesComment c := by
  unfold writeCall? at h
  cases own? with
  | none => cases h; trivial
  | some own =>
    obtain ⟨id, -, rfl⟩ := Option.map_eq_some_iff.1 h
    trivial

theorem writeComment_cases {own? : Option Value} {text : String} {r : Except Failure CommentAction}
    (h : Task.Trace (writeComment request own? text) xs r) :
    (xs = [] ∧ ∃ e, r = .error e) ∨ ∃ x :
    Exchange, xs = [x] ∧ writeCall? request own? text = some x.call ∧
      r = (documentOutcome x).map fun _ => actionOn own? := by
  cases own? with
  | none =>
    obtain h | ⟨x, rfl, hx, hr⟩ := document_cases h
    · exact .inl h
    · exact .inr ⟨x, rfl, congrArg some hx.symm, hr⟩
  | some own =>
    obtain ⟨e, rfl, hid⟩ | ⟨ys, zs, id, rfl, hid, hrest⟩ := Task.of_bind h
    · exact .inl ⟨(Task.of_settle hid).1, e, rfl⟩
    obtain ⟨rfl, hfound⟩ := Task.of_settle hid
    obtain h | ⟨x, rfl, hx, hr⟩ := document_cases hrest
    · exact .inl h
    · refine .inr ⟨x, rfl, ?_, hr⟩
      unfold commentId at hfound
      unfold writeCall?
      rw [hx]
      split at hfound
      · next id' hid' =>
        cases hfound
        dsimp only
        rw [hid']
        rfl
      · cases hfound

/-- The exchanges for the comment of a plan: the call that writes it, unless there is nothing to
write or the call is not made. -/
inductive PutsComment (request : CheckRequest) (own? : Option Value) (comment? : Option String) :
    List Exchange → Prop
  | nothing : PutsComment request own? comment? []
  | made {text : String} {w : Exchange} (htext : comment? = some text)
    (hcall : writeCall? request own? text = some w.call) : PutsComment request own? comment? [w]

theorem PutsComment.cases {own? : Option Value} {comment? : Option String}
    (h : PutsComment request own? comment? xs) :
    xs = [] ∨ ∃ w : Exchange, xs = [w] ∧ WritesComment w.call := by
  cases h with
  | nothing => exact .inl rfl
  | made htext hcall => exact .inr ⟨_, rfl, writesComment_of_writeCall? hcall⟩

theorem comment_cases {plan : Plan} {own? : Option Value}
    {r : Except Failure (Option CommentAction)}
    (h : Task.Trace (plan.comment?.mapM (writeComment request own?)) xs r) :
    PutsComment request own? plan.comment? xs ∧ ∀ action?, r = .ok action? →
      (action? = plan.comment?.map fun _ => actionOn own?) ∧ (xs = [] → plan.comment? = none) ∧
        ∀ x ∈ xs, ∃ v, documentOutcome x = .ok v := by
  cases hc : plan.comment? with
  | none =>
    rw [hc] at h
    obtain ⟨rfl, rfl⟩ := Task.of_pure h
    exact ⟨.nothing, fun action? ha => ⟨(Except.ok.inj ha).symm, fun _ => rfl, by simp⟩⟩
  | some text =>
    rw [hc] at h
    obtain ⟨r, htrace, rfl⟩ := Task.of_map h
    obtain ⟨rfl, e, rfl⟩ | ⟨w, rfl, hw, rfl⟩ := writeComment_cases htrace
    · exact ⟨.nothing, fun action? ha => nomatch ha⟩
    · refine ⟨.made rfl hw, fun action? ha => ?_⟩
      cases ho : documentOutcome w with
      | error e => rw [ho] at ha; cases ha
      | ok v =>
        rw [ho] at ha
        exact ⟨(Except.ok.inj ha).symm, fun hn => (nomatch hn), by simp [ho]⟩

/-- **What a plan writes**: its comment, if it has one, and then the verdict, with which it succeeds
or fails. Nothing is written after a call that fails. -/
theorem write_split {plan : Plan} {own? : Option Value} {r : Except Failure (Option CommentAction)}
    (h : Task.Trace (plan.write request own?) xs r) :
    ∃ ws us, xs = ws ++ us ∧ PutsComment request own? plan.comment? ws ∧
      (us = [] ∧ (∃ e, r = .error e) ∨
        ∃ u : Exchange, us = [u] ∧ u.call = updateCall request plan.verdict.fields ∧
          (ws = [] → plan.comment? = none) ∧ (∀ w ∈ ws, ∃ v, documentOutcome w = .ok v) ∧
          r = (documentOutcome u).map fun _ => plan.comment?.map fun _ => actionOn own?) := by
  obtain ⟨e, rfl, hw⟩ | ⟨ws, us, action?, rfl, hw, hrest⟩ := Task.of_bind h
  · exact ⟨xs, [], (List.append_nil xs).symm, (comment_cases hw).1, .inl ⟨rfl, e, rfl⟩⟩
  obtain ⟨hws, haction⟩ := comment_cases hw
  obtain ⟨rfl, hall, hreplies⟩ := haction action? rfl
  refine ⟨ws, us, rfl, hws, ?_⟩
  obtain ⟨e, rfl, hu⟩ | ⟨us, vs, ⟨⟩, rfl, hu, hdone⟩ := Task.of_bind hrest
  · obtain ⟨rfl, -⟩ | ⟨u, rfl, hcall, he⟩ := update_cases hu
    · exact .inl ⟨rfl, e, rfl⟩
    · refine .inr ⟨u, rfl, hcall, hall, hreplies, ?_⟩
      cases ho : documentOutcome u with
      | error f => rw [ho] at he; cases he; rfl
      | ok v => rw [ho] at he; cases he
  · obtain ⟨rfl, rfl⟩ := Task.of_pure hdone
    rw [List.append_nil]
    obtain ⟨-, e, he⟩ | ⟨u, rfl, hcall, he⟩ := update_cases hu
    · cases he
    · refine .inr ⟨u, rfl, hcall, hall, hreplies, ?_⟩
      cases ho : documentOutcome u with
      | error f => rw [ho] at he; cases he
      | ok v => rfl

/-- What a plan writes if nothing is said about the reply to its verdict. -/
theorem write_cases {plan : Plan} {own? : Option Value} {r : Except Failure (Option CommentAction)}
    (h : Task.Trace (plan.write request own?) xs r) :
    ∃ ws zs, xs = ws ++ zs ∧ PutsComment request own? plan.comment? ws ∧
      (zs = [] ∨ ∃ z : Exchange, zs = [z] ∧ z.call = updateCall request plan.verdict.fields) ∧
      ∀ action?, r = .ok action? → zs ≠ [] ∧ (action? = plan.comment?.map fun _ => actionOn own?) ∧
        (ws = [] → plan.comment? = none) ∧ ∀ w ∈ ws, ∃ v, documentOutcome w = .ok v := by
  obtain ⟨ws, us, rfl, hws, ⟨rfl, e, rfl⟩ | ⟨u, rfl, hu, hall, hreplies, rfl⟩⟩ := write_split h
  · exact ⟨ws, [], rfl, hws, .inl rfl, fun action? ha => nomatch ha⟩
  · refine ⟨ws, [u], rfl, hws, .inr ⟨u, rfl, hu⟩,
      fun action? ha => ⟨List.cons_ne_nil _ _, ?_, hall, hreplies⟩⟩
    cases ho : documentOutcome u with
    | error f => rw [ho] at ha; cases ha
    | ok v => rw [ho] at ha; exact (Except.ok.inj ha).symm

theorem asks_write {P : Call → Prop} {plan : Plan} {own? : Option Value}
    (hcomment : ∀ action, WritesComment ⟨request.repository, action⟩ →
      P ⟨request.repository, action⟩)
    (hverdict : P (updateCall request plan.verdict.fields)) :
    Task.Asks P (plan.write request own?) := by
  refine Task.asks_bind ?_ fun _ => Task.asks_bind ?_ fun _ => Task.asks_pure _
  · cases plan.comment? with
    | none => exact Task.asks_pure _
    | some body =>
      refine Task.asks_map _ ?_
      cases own? with
      | none => exact asks_call (hcomment (.createComment _ _) trivial) _
      | some comment =>
        exact Task.asks_bind (Task.asks_settle _) fun _ =>
          asks_call (hcomment (.updateComment _ _) trivial) _
  · exact asks_call hverdict _

/-! ### Whole check runs -/

theorem asks_loadOptions {P : Call → Prop}
    (hget : ∀ action : Action, action.method = .get → P ⟨request.repository, action⟩) :
    Task.Asks P (loadOptions request) := by
  refine Task.asks_bind ?_ fun _ => Task.asks_settle _
  induction Options.filePaths with
  | nil => exact Task.asks_pure _
  | cons path paths ih =>
    refine Task.asks_bind (Task.asks_mapError _ (Task.asks_fetchFile (hget _ rfl))) fun found? => ?_
    cases found? with
    | some text => exact Task.asks_pure _
    | none => exact ih

variable [CharNames]

/-- What a check run reads before it writes: the options, the action items, and the comment of the
app. -/
def gather (app : App) (pages : Nat) (request : CheckRequest) :
    Task Failure (Options × Analysis × Option Value) := do
  update request startedFields
  let options ← loadOptions request
  let diff ← call (GitHub.fetchDiff request.repository (.int request.pullRequest))
  let analysis ← settle ((analyze options diff).mapError .analysis)
  return (options, analysis, ← findComment app pages request)

/-- What a check run writes about what it has read, if that can be planned. -/
def conclude (request : CheckRequest) (options : Options) (analysis : Analysis)
    (own? : Option Value) : Task Failure Outcome := do
  let plan ← settle ((Plan.make request options analysis own?.isSome).mapError .report)
  return .completed analysis.total (← plan.write request own?)

/-- A check run reads, and then it writes. -/
theorem carryOut_eq (app : App) (pages : Nat) (request : CheckRequest) :
    carryOut app pages request = (do
      let (options, analysis, own?) ← gather app pages request
      conclude request options analysis own?) := by
  unfold carryOut gather conclude
  simp only [bind_assoc, pure_bind]

/-- A check run reads with calls that get something, once it is marked as in progress. -/
theorem asks_gather_of {P : Call → Prop} (hstart : P (updateCall request startedFields))
    (hget : ∀ action : Action, action.method = .get → P ⟨request.repository, action⟩) :
    Task.Asks P (gather app pages request) := by
  refine Task.asks_bind (asks_call hstart _) fun _ => ?_
  refine Task.asks_bind (asks_loadOptions hget) fun _ => ?_
  refine Task.asks_bind (Task.asks_mapError _ (Task.asks_fetchDiff (hget _ rfl))) fun _ => ?_
  refine Task.asks_bind (Task.asks_settle _) fun _ => ?_
  refine Task.asks_bind ?_ fun _ => Task.asks_pure _
  refine Task.asks_bind (Task.asks_mapError _ ?_) fun _ => Task.asks_pure _
  exact Task.asks_bind (Task.asks_commentsFrom (fun _ => hget _ rfl) pages 1) fun _ =>
    Task.asks_settle _

theorem asks_gather : Task.Asks IsQuiet (gather app pages request) :=
  asks_gather_of (isQuiet_started request) fun _ h => isQuiet_of_get h

theorem asks_carryOut_of {P : Call → Prop} (hstart : P (updateCall request startedFields))
    (hget : ∀ action : Action, action.method = .get → P ⟨request.repository, action⟩)
    (hcomment : ∀ action, WritesComment ⟨request.repository, action⟩ →
      P ⟨request.repository, action⟩)
    (hverdict : ∀ {options analysis commented plan}, Plan.make request options analysis commented =
      .ok plan →
      P (updateCall request plan.verdict.fields)) : Task.Asks P (carryOut app pages request) := by
  rw [carryOut_eq]
  refine Task.asks_bind (asks_gather_of hstart hget) fun g => ?_
  obtain ⟨options, analysis, own?⟩ := g
  show Task.Asks P (conclude request options analysis own?)
  unfold conclude
  cases hplan : Plan.make request options analysis own?.isSome with
  | error e => trivial
  | ok plan =>
    show Task.Asks P (plan.write request own? >>= fun action? =>
      (pure (Outcome.completed analysis.total action?) : Task Failure Outcome))
    exact Task.asks_bind (asks_write hcomment (hverdict hplan)) fun _ => Task.asks_pure _

/-- **What is read is gathered completely**, unless a listing stopped at its bound. -/
theorem gathers_of_trace {options : Options} {analysis : Analysis} {own? : Option Value}
    (h : Task.Trace (gather app pages request) xs (.ok (options, analysis, own?)))
    (hcut : ¬ CutShort request pages xs) :
    ∃ diff comments found?, Gathers request xs ⟨options, diff, comments⟩ ∧
      analyze options diff = .ok analysis ∧ firstOfApp app.identifier comments = .ok found? ∧
      own? = found?.filter Value.isTruthy := by
  obtain ⟨x₁, y₁, ⟨⟩, rfl, hstart, h⟩ := Task.of_bind_ok h
  obtain ⟨x₂, y₂, options', rfl, hoptions, h⟩ := Task.of_bind_ok h
  obtain ⟨x₃, y₃, diff, rfl, hdiff, h⟩ := Task.of_bind_ok h
  obtain ⟨x₄, y₄, analysis', rfl, hanalysis, h⟩ := Task.of_bind_ok h
  obtain ⟨x₅, y₅, own', rfl, hown, h⟩ := Task.of_bind_ok h
  obtain ⟨rfl, hresult⟩ := Task.of_pure h
  cases hresult
  -- the check run is marked as in progress
  obtain ⟨-, e, he⟩ | ⟨start, rfl, hstarted, -⟩ := update_cases hstart
  · cases he
  -- the options
  obtain ⟨x₂, z₂, text?, rfl, hfile, hload⟩ := Task.of_bind_ok hoptions
  obtain ⟨rfl, load_eq⟩ := Task.of_settle hload
  -- the diff
  have hfetch := Task.of_mapError_ok hdiff
  unfold Task.Trace at hfetch
  rw [run_fetchDiff] at hfetch
  obtain ⟨f, -, -, he⟩ | ⟨fetch, rfl, hcall, hbody⟩ := hfetch.of_ask
  · cases he
  obtain ⟨rfl, analysis_eq⟩ := Task.of_settle hanalysis
  -- the comment
  obtain ⟨x₅, z₅, found?, rfl, hfind, hfilter⟩ := Task.of_bind_ok hown
  obtain ⟨rfl, filter_eq⟩ := Task.of_pure hfilter
  obtain ⟨x₅, z₅, comments, rfl, hlist, hfirst⟩ := Task.of_bind_ok (Task.of_mapError_ok hfind)
  obtain ⟨rfl, first_eq⟩ := Task.of_settle hfirst
  have files := findsFile_of_trace hfile
  simp only [List.append_nil, List.nil_append, List.singleton_append] at hcut ⊢
  refine ⟨diff, comments, found?, ?_, Except.of_mapError_ok analysis_eq.symm, first_eq.symm,
    Except.ok.inj filter_eq⟩
  refine .intro hstarted files (Except.of_mapError_ok load_eq.symm) hcall hbody.symm ?_
  obtain hlists | ⟨hlength, hfull⟩ := lists_of_trace hlist
  · exact hlists
  · refine absurd ⟨start :: (x₂ ++ [fetch]), x₅, [], by simp, ?_, hlength, hfull⟩ hcut
    rw [List.forall_mem_cons, List.forall_mem_append, List.forall_mem_singleton, hstarted, hcall]
    exact ⟨isQuiet_started request, files.isQuiet, isQuiet_of_get rfl⟩

omit [CharNames] in
/-- **What a check run writes** is what it has planned; if there is no plan, it fails before it
writes. -/
theorem conclude_cases {options : Options} {analysis : Analysis} {own? : Option Value}
    {r : Except Failure Outcome} (h : Task.Trace (conclude request options analysis own?) xs r) :
    (∃ e, r = .error e ∧ xs = []) ∨
      ∃ plan r', Plan.make request options analysis own?.isSome = .ok plan ∧
        Task.Trace (plan.write request own?) xs r' ∧
        r = r'.map (Outcome.completed analysis.total) := by
  obtain ⟨e, rfl, ht⟩ | ⟨ys, zs, plan, rfl, ht, hrest⟩ := Task.of_bind h
  · exact .inl ⟨e, rfl, (Task.of_settle ht).1⟩
  obtain ⟨rfl, hplan⟩ := Task.of_settle ht
  refine .inr ⟨plan, ?_⟩
  obtain ⟨e, rfl, ht⟩ | ⟨ys, zs, action?, rfl, ht, hdone⟩ := Task.of_bind hrest
  · exact ⟨_, Except.of_mapError_ok hplan.symm, ht, rfl⟩
  · obtain ⟨rfl, rfl⟩ := Task.of_pure hdone
    rw [List.append_nil]
    exact ⟨_, Except.of_mapError_ok hplan.symm, ht, rfl⟩

/-- **A check run that is carried out** fails before it writes, or writes what it has planned from
what it has found out. -/
theorem carryOut_cases {r : Except Failure Outcome}
    (h : Task.Trace (carryOut app pages request) xs r) (hcut : ¬ CutShort request pages xs) :
    (∃ e, r = .error e ∧ ∀ x ∈ xs, IsQuiet x.call) ∨
      ∃ before after f analysis found? plan r', xs = before ++ after ∧ Gathers request before f ∧
        analyze f.options f.diff = .ok analysis ∧
        firstOfApp app.identifier f.comments = .ok found? ∧
        Plan.make request f.options analysis (found?.filter Value.isTruthy).isSome = .ok plan ∧
        Task.Trace (plan.write request (found?.filter Value.isTruthy)) after r' ∧
        r = r'.map (Outcome.completed analysis.total) := by
  rw [carryOut_eq] at h
  obtain ⟨e, rfl, ht⟩ | ⟨before, after, ⟨options, analysis, own?⟩, rfl, hg, hrest⟩ := Task.of_bind h
  · exact .inl ⟨e, rfl, asks_gather.of_trace ht⟩
  obtain ⟨diff, comments, found?, hgathers, hanalysis, hfirst, rfl⟩ :=
    gathers_of_trace hg fun h => hcut (h.append after)
  obtain ⟨e, rfl, rfl⟩ | ⟨plan, r', hplan, hwrite, rfl⟩ := conclude_cases hrest
  · rw [List.append_nil]
    exact .inl ⟨e, rfl, asks_gather.of_trace hg⟩
  · exact .inr ⟨before, after, ⟨options, diff, comments⟩, analysis, found?, plan, r', rfl, hgathers,
      hanalysis, hfirst, hplan, hwrite, rfl⟩

/-- What a check run does when it was carried out or has failed: nothing, or the report of the
failure, of which nothing depends on what comes back. -/
def finish (request : CheckRequest) : Except Failure Outcome → Program Outcome
  | .ok outcome => .done outcome
  | .error failure =>
    .ask (updateCall request (Verdict.broken failure.message).fields) fun _ =>
      .done (.broken failure)

theorem run_eq (app : App) (pages : Nat) (request : CheckRequest) :
    run app pages request = (carryOut app pages request).run.bind (finish request) := by
  refine congrArg (Program.bind _) (funext fun c => ?_)
  cases c with
  | ok outcome => rfl
  | error failure =>
    refine congrArg (Program.ask _) (funext fun reply => ?_)
    cases reply with
    | error f => rfl
    | ok body =>
      show Program.bind (Program.bind (Program.bind (.done (readDocument body)) _) _) _ = _
      cases readDocument body <;> rfl

/-- **A check run and the report of a failure.** -/
theorem run_cases {outcome : Outcome} (h : (run app pages request).Trace xs outcome) :
    ∃ ys zs c, xs = ys ++ zs ∧ Task.Trace (carryOut app pages request) ys c ∧
      (c = .ok outcome ∧ zs = [] ∨
        ∃ f, c = .error f ∧ outcome = .broken f ∧
          ∀ z ∈ zs, z.call = updateCall request (Verdict.broken f.message).fields) := by
  rw [run_eq] at h
  obtain ⟨ys, zs, c, rfl, hcarry, hrest⟩ := h.of_bind
  refine ⟨ys, zs, c, rfl, hcarry, ?_⟩
  cases c with
  | ok o =>
    obtain ⟨rfl, rfl⟩ := hrest.of_done
    exact .inl ⟨rfl, rfl⟩
  | error f =>
    obtain ⟨-, -, rfl, rfl⟩ | ⟨x, rfl, hx, rfl⟩ := hrest.of_ask
    · exact .inr ⟨f, rfl, rfl, by simp⟩
    · exact .inr ⟨f, rfl, rfl, by simp [hx]⟩

omit [CharNames] in
theorem not_writes_of_report {zs : List Exchange} {c : Except Failure Outcome} {outcome : Outcome}
    (h : c = .ok outcome ∧ zs = [] ∨ ∃ f, c = .error f ∧ outcome = .broken f ∧
      ∀ z ∈ zs, z.call = updateCall request (Verdict.broken f.message).fields) :
    ∀ z ∈ zs, ¬ WritesComment z.call := by
  obtain ⟨-, rfl⟩ | ⟨f, -, -, hz⟩ := h
  · simp
  · intro z hz'
    rw [hz z hz']
    exact id

/-- All calls of a check run are of three kinds: they get something, write a comment or set fields
of the check run. -/
theorem asks_run {P : Call → Prop}
    (hget : ∀ action : Action, action.method = .get → P ⟨request.repository, action⟩)
    (hcomment : ∀ action, WritesComment ⟨request.repository, action⟩ →
      P ⟨request.repository, action⟩)
    (hupdate : ∀ fields, P (updateCall request fields)) : (run app pages request).Asks P := by
  rw [run_eq]
  refine Program.Asks.bind (asks_carryOut_of (hupdate _) hget hcomment fun _ => hupdate _)
    fun c => ?_
  cases c with
  | ok outcome => trivial
  | error failure => exact ⟨hupdate _, fun _ => trivial⟩

end ActionItems.CheckRun
