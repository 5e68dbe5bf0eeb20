import ActionItems.Proofs.CheckRun.Protocol
import ActionItems.Proofs.GitHub.Reply

/-!
# Calls that the service accepts

A reply that accepts a call (`Reply.isAccepted`) does not make it succeed yet: the reply must also
be readable, with headers about limits that are numbers and a document as its body
(`Reply.IsReadable`, `documentOutcome_ok_iff`). A check run goes on after a call that succeeds and
reports a failure after any other one.

So what the service has accepted and what a check run reports may differ, in two ways:

* the verdict is the last word on the check run exactly if its reply is readable (`verdict_final`);
* what was done with the comment is reported exactly if nothing failed later on
  (`comment?_eq_some_iff`).
-/

namespace ActionItems.CheckRun

open ActionItems.GitHub
open ActionItems.Webhook (CheckRequest)

variable {σ : Type} {request : CheckRequest} {app : App} {pages : Nat} {xs : List Exchange}
  {outcome : Outcome}

/-- **When a call for a document succeeds** in a check run: its reply accepts it and is readable. -/
theorem documentOutcome_ok_iff (x : Exchange) :
    (∃ document, documentOutcome x = .ok document) ↔
      x.reply.isAccepted = true ∧ x.reply.IsReadable := by
  unfold documentOutcome Exchange.outcome
  constructor
  · rintro ⟨document, h⟩
    obtain ⟨body, hbody, hdocument⟩ := Except.of_bind_ok (Except.of_mapError_ok h)
    obtain ⟨accepted, status, headers, hreply, given⟩ := outcome_eq_ok_iff.1 hbody
    exact ⟨accepted, status, headers, body, document, hreply, given, hdocument⟩
  · rintro ⟨accepted, status, headers, body, document, hreply, given, hdocument⟩
    have hbody : x.reply.outcome x.time = .ok body :=
      outcome_eq_ok_iff.2 ⟨accepted, status, headers, hreply, given⟩
    rw [hbody]
    exact ⟨document, by simp [Except.bind, Except.mapError, hdocument]⟩

/-! ### Phases of a run -/

/-- The report of a failure: one call, if it is made. -/
def Reports (request : CheckRequest) (failure : Failure) (xs : List Exchange) : Prop :=
  xs = [] ∨ ∃ x : Exchange, xs = [x] ∧
    x.call = updateCall request (Verdict.broken failure.message).fields

/-- What becomes of the check run after a task of it: the outcome of the task, or the report of its
failure. -/
inductive Ends (request : CheckRequest) : Except Failure Outcome → List Exchange → Outcome → Prop
  | completed {outcome : Outcome} : Ends request (.ok outcome) [] outcome
  | broken {failure : Failure} {xs : List Exchange} (h : Reports request failure xs) :
    Ends request (.error failure) xs (.broken failure)

theorem ends_of_trace {c : Except Failure Outcome} (h : (finish request c).Trace xs outcome) :
    Ends request c xs outcome := by
  cases c with
  | ok o =>
    obtain ⟨rfl, rfl⟩ := h.of_done
    exact .completed
  | error failure =>
    obtain ⟨-, -, rfl, rfl⟩ | ⟨x, rfl, hx, rfl⟩ := h.of_ask
    · exact .broken (.inl rfl)
    · exact .broken (.inr ⟨x, rfl, hx⟩)

/-- The course of a check run, by its exchanges and its outcome: it reads quietly, and it writes its
comment. -/
inductive Course (request : CheckRequest) : List Exchange → Outcome → Prop
  /-- It is stopped before its verdict. -/
  | stopped {quiet ws zs : List Exchange} {own? : Option Value} {comment? : Option String}
    {failure : Failure} (hquiet : ∀ x ∈ quiet, IsQuiet x.call)
    (hws : PutsComment request own? comment? ws) (hzs : Reports request failure zs) :
    Course request (quiet ++ (ws ++ zs)) (.broken failure)
  /-- Its verdict is given, and succeeds or fails. -/
  | judged {quiet ws zs : List Exchange} {u : Exchange} {own? : Option Value} {plan : Plan}
    {total : Nat} {outcome : Outcome} (hquiet : ∀ x ∈ quiet, IsQuiet x.call)
    (hplan : plan.verdict.conclusion = if 0 < total then .failure else .success)
    (hws : PutsComment request own? plan.comment? ws)
    (hu : u.call = updateCall request plan.verdict.fields) (hall : ws = [] → plan.comment? = none)
    (hreplies : ∀ w ∈ ws, ∃ v, documentOutcome w = .ok v)
    (hzs : Ends request ((documentOutcome u).map fun _ =>
      .completed total (plan.comment?.map fun _ => actionOn own?)) zs outcome) :
    Course request (quiet ++ (ws ++ u :: zs)) outcome

/-- **Every run takes such a course.** -/
theorem course_of_trace [CharNames] (h : (run app pages request).Trace xs outcome) :
    Course request xs outcome := by
  rw [run_eq] at h
  obtain ⟨ys, zs, c, rfl, hcarry, hend⟩ := h.of_bind
  replace hend := ends_of_trace hend
  have quietly : ∀ {quiet : List Exchange}, (∀ x ∈ quiet, IsQuiet x.call) →
      (∃ failure, c = .error failure) → Course request (quiet ++ zs) outcome := by
    rintro quiet hquiet ⟨failure, rfl⟩
    cases hend with
    | broken hzs =>
      have unwritten : PutsComment request none none [] := .nothing
      exact .stopped hquiet unwritten hzs
  rw [carryOut_eq] at hcarry
  obtain ⟨failure, hc, hg⟩ | ⟨quiet, rest, ⟨options, analysis, own?⟩, rfl, hg, hrest⟩ :=
    Task.of_bind hcarry
  · exact quietly (asks_gather.of_trace hg) ⟨failure, hc⟩
  have hquiet : ∀ x ∈ quiet, IsQuiet x.call := asks_gather.of_trace hg
  obtain ⟨failure, hc, rfl⟩ | ⟨plan, r, hplan, hwrite, rfl⟩ := conclude_cases hrest
  · rw [List.append_nil]
    exact quietly hquiet ⟨failure, hc⟩
  obtain ⟨ws, us, rfl, hws, ⟨rfl, failure, rfl⟩ | ⟨u, rfl, hu, hall, hreplies, rfl⟩⟩ :=
    write_split hwrite
  · cases hend with
    | broken hzs =>
      have stopped : Course request (quiet ++ (ws ++ zs)) (.broken failure) :=
        .stopped hquiet hws hzs
      simpa using stopped
  · have judged : Course request (quiet ++ (ws ++ u :: zs)) outcome := by
      refine .judged hquiet (conclusion_make hplan) hws hu hall hreplies ?_
      cases ho : documentOutcome u <;> rw [ho] at hend <;> exact hend
    simpa using judged

theorem Reports.completesWith {failure : Failure} (h : Reports request failure xs) :
    ∀ x ∈ xs, CompletesWith request .neutral x.call := by
  obtain rfl | ⟨x, rfl, hx⟩ := h
  · simp
  · rw [List.forall_mem_singleton, hx]
    exact completesWith_fields request (Verdict.broken failure.message)

theorem Ends.reports {c : Except Failure Outcome} (h : Ends request c xs outcome) :
    ∃ failure, Reports request failure xs := by
  cases h with
  | completed => exact ⟨.comment, .inl rfl⟩
  | broken h => exact ⟨_, h⟩

/-- A verdict on a change set: the check run of a request is completed, and not as neutral. -/
def Judges (request : CheckRequest) (call : Call) : Prop :=
  ∃ conclusion, conclusion ≠ .neutral ∧ CompletesWith request conclusion call

theorem not_judges_of_reports {failure : Failure} (h : Reports request failure xs) :
    ∀ x ∈ xs, ¬ Judges request x.call := by
  rintro x hx ⟨conclusion, hne, hcompletes⟩
  obtain ⟨fields, hcall, -, hword⟩ := h.completesWith x hx
  obtain rfl | ⟨y, rfl, hy⟩ := h
  · cases hx
  · obtain rfl := List.mem_singleton.1 hx
    rw [hy] at hcompletes
    exact hne (eq_of_completesWith hcompletes)

theorem not_judges_of_quiet {call : Call} (h : IsQuiet call) : ¬ Judges request call := by
  rintro ⟨conclusion, -, hcompletes⟩
  exact h.2 hcompletes.completes.1

theorem PutsComment.not_judges {own? : Option Value} {comment? : Option String}
    (h : PutsComment request own? comment? xs) : ∀ x ∈ xs, ¬ Judges request x.call := by
  rintro x hx ⟨conclusion, -, hcompletes⟩
  obtain rfl | ⟨w, rfl, hw⟩ := h.cases
  · cases hx
  · obtain rfl := List.mem_singleton.1 hx
    exact hcompletes.completes.2 hw

theorem not_judges_of_phases {quiet ws zs : List Exchange} {own? : Option Value}
    {comment? : Option String} {failure : Failure} (hquiet : ∀ x ∈ quiet, IsQuiet x.call)
    (hws : PutsComment request own? comment? ws) (hzs : Reports request failure zs) :
    ∀ x ∈ quiet ++ (ws ++ zs), ¬ Judges request x.call := by
  simp only [List.forall_mem_append]
  exact ⟨fun x hx => not_judges_of_quiet (hquiet x hx), hws.not_judges, not_judges_of_reports hzs⟩

/-! ### Telling calls apart -/

instance (request : CheckRequest) (conclusion : Conclusion) (call : Call) :
    Decidable (CompletesWith request conclusion call) :=
  match call with
  | ⟨repository, .updateCheckRun id fields⟩ =>
    decidable_of_iff (repository = request.repository ∧ id = .int request.id ∧
      ("status", .text "completed") ∈ fields ∧ ("conclusion", .text conclusion.word) ∈ fields)
      ⟨fun ⟨hrepository, hid, hstatus, hword⟩ =>
        ⟨fields, by rw [hrepository, hid]; rfl, hstatus, hword⟩,
        fun ⟨_, h, hstatus, hword⟩ => by cases h; exact ⟨rfl, rfl, hstatus, hword⟩⟩
  | ⟨_, .fetchDiff _⟩ => .isFalse fun ⟨_, h, _⟩ => nomatch h
  | ⟨_, .fetchFile _ _⟩ => .isFalse fun ⟨_, h, _⟩ => nomatch h
  | ⟨_, .listComments _ _⟩ => .isFalse fun ⟨_, h, _⟩ => nomatch h
  | ⟨_, .createComment _ _⟩ => .isFalse fun ⟨_, h, _⟩ => nomatch h
  | ⟨_, .updateComment _ _⟩ => .isFalse fun ⟨_, h, _⟩ => nomatch h
  | ⟨_, .createCheckRun _ _ _⟩ => .isFalse fun ⟨_, h, _⟩ => nomatch h

/-- What a call does with a comment, if it writes one. -/
def commentAction? (call : Call) : Option CommentAction :=
  match call.action with
  | .createComment .. => some .created
  | .updateComment .. => some .updated
  | _ => none

theorem writesComment_of_commentAction? {call : Call} {action : CommentAction}
    (h : commentAction? call = some action) : WritesComment call := by
  obtain ⟨repository, performed⟩ := call
  cases performed with
  | createComment => trivial
  | updateComment => trivial
  | _ => cases h

theorem commentAction?_of_writeCall? {own? : Option Value} {text : String} {c : Call}
    (h : writeCall? request own? text = some c) : commentAction? c = some (actionOn own?) := by
  unfold writeCall? at h
  cases own? with
  | none => cases h; rfl
  | some own =>
    obtain ⟨id, -, rfl⟩ := Option.map_eq_some_iff.1 h
    rfl

/-! ### The verdict -/

theorem Course.verdict_cases {x : Exchange} {before after : List Exchange}
    (h : Course request xs outcome) (hxs : xs = before ++ x :: after) (hx : Judges request x.call) :
    ∃ (total : Nat) (action? : Option CommentAction) (verdict : Verdict),
      x.call = updateCall request verdict.fields ∧
      verdict.conclusion = (if 0 < total then .failure else .success) ∧
      Ends request ((documentOutcome x).map fun _ => .completed total action?) after outcome := by
  cases h with
  | @stopped quiet ws zs own? comment? failure hquiet hws hzs =>
    exact absurd hx (not_judges_of_phases hquiet hws hzs x (by rw [hxs]; simp))
  | @judged quiet ws zs u own? plan total _ hquiet hplan hws hu hall hreplies hzs =>
    obtain ⟨failure, reports⟩ := hzs.reports
    have others : x ∉ quiet ++ (ws ++ zs) :=
      fun hmem => not_judges_of_phases hquiet hws reports x hmem hx
    rw [← List.append_assoc] at others
    have before_none : x ∉ quiet ++ ws := fun hmem => others (List.mem_append_left zs hmem)
    have after_none : x ∉ zs := fun hmem => others (List.mem_append_right (quiet ++ ws) hmem)
    rw [← List.append_assoc, List.append_cons_inj_of_notMem before_none after_none] at hxs
    obtain ⟨-, rfl, rfl⟩ := hxs
    exact ⟨total, _, plan.verdict, hu, hplan, hzs⟩

/-- **The verdict that the service has accepted is final exactly if its reply is readable.** Then it
is the last call and the conclusion that is reported. Otherwise the check run ends as neutral, and
the call that says so, if it is made, is the only one that follows. -/
theorem verdict_final [CharNames] (clock : Clock) (service : Service σ) (app : App) (pages : Nat)
    (request : CheckRequest) (session : Session) (state : σ) {before after : List Exchange}
    {x : Exchange} {conclusion : Conclusion}
    (hx : ((run app pages request).run clock service session state).exchanges =
      before ++ x :: after)
    (hverdict : CompletesWith request conclusion x.call) (hne : conclusion ≠ .neutral)
    (haccepted : x.reply.isAccepted = true) :
    let outcome := ((run app pages request).run clock service session state).result
    (x.reply.IsReadable → after = [] ∧ outcome.conclusion = conclusion) ∧
      (¬ x.reply.IsReadable → outcome.conclusion = .neutral ∧
        (after = [] ∨ ∃ y, after = [y] ∧ CompletesWith request .neutral y.call)) := by
  intro outcome
  have course : Course request _ outcome :=
    course_of_trace (Program.trace_run clock service _ session state)
  obtain ⟨total, action?, verdict, hcall, hmeans, hend⟩ :=
    course.verdict_cases hx ⟨conclusion, hne, hverdict⟩
  have readable := documentOutcome_ok_iff x
  cases ho : documentOutcome x with
  | ok document =>
    have hreadable : x.reply.IsReadable := (readable.1 ⟨document, ho⟩).2
    rw [ho] at hend
    refine ⟨fun _ => ?_, fun h => absurd hreadable h⟩
    generalize outcome = o at hend
    cases hend with
    | completed =>
      rw [hcall] at hverdict
      rw [conclusion_completed, ← hmeans]
      exact ⟨rfl, (eq_of_completesWith hverdict).symm⟩
  | error failure =>
    have hbroken : ¬ x.reply.IsReadable := fun h => by
      obtain ⟨document, hdocument⟩ := readable.2 ⟨haccepted, h⟩
      rw [ho] at hdocument
      cases hdocument
    rw [ho] at hend
    refine ⟨fun h => absurd h hbroken, fun _ => ?_⟩
    generalize outcome = o at hend
    cases hend with
    | broken hreports =>
      refine ⟨rfl, ?_⟩
      have neutral := hreports.completesWith
      obtain rfl | ⟨y, rfl, -⟩ := hreports
      · exact .inl rfl
      · exact .inr ⟨y, rfl, neutral y (List.mem_singleton_self y)⟩

section

attribute [local instance] CharNames.ascii

/-- The verdict of a check run without action items is accepted, and can be read. -/
theorem verdict_final_passed :
    let request : CheckRequest := ⟨"o/r", 5, "abc", 99⟩
    let script : List Reply :=
      [.answer 200 [] (Bytes.encode "\x7b\x7d"), .answer 404 [] [], .answer 404 [] [],
      .answer 200 [] [], .answer 200 [] (Bytes.encode "[]"),
      .answer 200 [] (Bytes.encode "\x7b\x7d")]
    let r :=
      (run ⟨.int 7, .text "app"⟩ (pageBound script) request).run (fun n => ⟨n⟩) Service.script
      { tokens := .fixed "t" } script
    ∃ before x, r.exchanges = before ++ [x] ∧ CompletesWith request .success x.call ∧
      x.reply.isAccepted = true ∧ x.reply.IsReadable ∧ r.result.conclusion = .success := by
  intro request script r
  obtain ⟨x, hmem, hcompletes, hsucceeds⟩ :
      ∃ x ∈ r.exchanges, CompletesWith request .success x.call ∧
      (documentOutcome x).toOption.isSome = true := by decide +kernel
  obtain ⟨haccepted, hreadable⟩ : x.reply.isAccepted = true ∧ x.reply.IsReadable := by
    refine (documentOutcome_ok_iff x).1 ?_
    cases ho : documentOutcome x with
    | error e => rw [ho] at hsucceeds; cases hsucceeds
    | ok document => exact ⟨document, rfl⟩
  obtain ⟨before, after, hx⟩ := List.append_of_mem hmem
  obtain ⟨final, -⟩ :=
    verdict_final (fun n => ⟨n⟩) Service.script ⟨.int 7, .text "app"⟩ (pageBound script) request
    { tokens := .fixed "t" } script hx hcompletes (by decide) haccepted
  obtain ⟨rfl, hconclusion⟩ := final hreadable
  exact ⟨before, x, hx, hcompletes, haccepted, hreadable, hconclusion⟩

/-- **A verdict that is accepted can be overwritten**: the reply to it has a body that is no
document, so the check run ends as neutral. -/
theorem verdict_overwritten :
    let request : CheckRequest := ⟨"o/r", 5, "abc", 99⟩
    let script : List Reply :=
      [.answer 200 [] (Bytes.encode "\x7b\x7d"), .answer 404 [] [], .answer 404 [] [],
      .answer 200 [] (Bytes.encode "+++ b/f.py\n@@ -0,0 +1 @@\n+# TODO x\n"),
      .answer 200 [] (Bytes.encode "[]"), .answer 201 [] (Bytes.encode "\x7b\x7d"),
      .answer 200 [] (Bytes.encode "ok"), .answer 200 [] (Bytes.encode "\x7b\x7d")]
    let r :=
      (run ⟨.int 7, .text "app"⟩ (pageBound script) request).run (fun n => ⟨n⟩) Service.script
      { tokens := .fixed "t" } script
    r.result.conclusion = .neutral ∧ ∃ before x after, r.exchanges = before ++ x :: after ∧
      CompletesWith request .failure x.call ∧ x.reply.isAccepted = true ∧
        ∃ y ∈ after, CompletesWith request .neutral y.call := by
  intro request script r
  obtain ⟨x, hmem, hcompletes, haccepted⟩ : ∃ x ∈ r.exchanges.take 7,
      CompletesWith request .failure x.call ∧ x.reply.isAccepted = true := by decide +kernel
  obtain ⟨y, hlast, hneutral⟩ : ∃ y ∈ r.exchanges.drop 7,
      CompletesWith request .neutral y.call := by
    decide +kernel
  obtain ⟨before, after, hx⟩ := List.append_of_mem hmem
  refine ⟨by decide +kernel, before, x, after ++ r.exchanges.drop 7, ?_, hcompletes, haccepted, y,
    List.mem_append_right after hlast, hneutral⟩
  rw [← List.cons_append, ← List.append_assoc, ← hx, List.take_append_drop]

end

/-! ### The comment -/

/-- The calls of a run that write a comment are the ones that put the comment of its plan. -/
theorem mem_of_commentAction? {quiet ws rest : List Exchange} {x : Exchange}
    {action : CommentAction} (hquiet : ∀ x ∈ quiet, IsQuiet x.call)
    (hrest : ∀ x ∈ rest, ¬ WritesComment x.call) (hx : x ∈ quiet ++ (ws ++ rest))
    (haction : commentAction? x.call = some action) : x ∈ ws := by
  have writes := writesComment_of_commentAction? haction
  simp only [List.mem_append] at hx
  obtain hx | hx | hx := hx
  · exact absurd writes (hquiet x hx).1
  · exact hx
  · exact absurd writes (hrest x hx)

theorem PutsComment.map_eq_some_iff {own? : Option Value} {comment? : Option String}
    (h : PutsComment request own? comment? xs) (hall : xs = [] → comment? = none)
    (action : CommentAction) : (comment?.map fun _ => actionOn own?) = some action ↔
      ∃ x ∈ xs, commentAction? x.call = some action := by
  cases h with
  | nothing => simp [hall rfl]
  | made htext hcall => simp [htext, commentAction?_of_writeCall? hcall]

/-- What a course reports about the comment, by the call that wrote it and the call with the
verdict. -/
theorem Course.comment_iff (h : Course request xs outcome) (action : CommentAction) :
    (outcome.comment? = some action ↔ outcome.error? = none ∧
      ∃ x ∈ xs, commentAction? x.call = some action ∧ x.reply.isAccepted = true) ∧
    ∀ x ∈ xs, commentAction? x.call = some action → x.reply.isAccepted = true →
      (outcome.comment? = some action ↔ x.reply.IsReadable ∧
        ∃ y ∈ xs, Judges request y.call ∧ y.reply.isAccepted = true ∧ y.reply.IsReadable) := by
  cases h with
  | @stopped quiet ws zs own? comment? failure hquiet hws hzs =>
    refine ⟨by simp [Outcome.comment?, Outcome.error?], fun x hx hwrites haccepted => ?_⟩
    refine iff_of_false (by simp [Outcome.comment?]) ?_
    rintro ⟨-, y, hy, hjudges, -⟩
    exact not_judges_of_phases hquiet hws hzs y hy hjudges
  | @judged quiet ws zs u own? plan total _ hquiet hplan hws hu hall hreplies hzs =>
    obtain ⟨failure, reports⟩ := hzs.reports
    have rest : ∀ x ∈ u :: zs, ¬ WritesComment x.call := by
      rw [List.forall_mem_cons, hu]
      exact ⟨id, fun x hx hwrites => (reports.completesWith x hx).completes.2 hwrites⟩
    have replied : ∀ x ∈ ws, x.reply.isAccepted = true ∧ x.reply.IsReadable :=
      fun x hx => (documentOutcome_ok_iff x).1 (hreplies x hx)
    have judges : Judges request u.call := by
      refine ⟨plan.verdict.conclusion, ?_,
        by rw [hu]; exact completesWith_fields request plan.verdict⟩
      rw [hplan]
      split <;> simp
    have only : ∀ y ∈ quiet ++ (ws ++ u :: zs), Judges request y.call → y = u := by
      intro y hy hjudges
      by_contra hne
      exact not_judges_of_phases hquiet hws reports y (by simpa [hne] using hy) hjudges
    have verdict := documentOutcome_ok_iff u
    cases ho : documentOutcome u with
    | ok document =>
      rw [ho] at hzs verdict
      obtain ⟨haccepted, hreadable⟩ := verdict.1 ⟨document, rfl⟩
      cases hzs with
      | completed =>
        have reported := hws.map_eq_some_iff hall action
        refine ⟨reported.trans ⟨?_, ?_⟩,
          fun x hx haction _ => reported.trans (iff_of_true ⟨x, ?_, haction⟩ ?_)⟩
        · rintro ⟨x, hx, haction⟩
          exact ⟨rfl, x, by simp [hx], haction, (replied x hx).1⟩
        · rintro ⟨-, x, hx, haction, -⟩
          exact ⟨x, mem_of_commentAction? hquiet rest hx haction, haction⟩
        · exact mem_of_commentAction? hquiet rest hx haction
        · have written := mem_of_commentAction? hquiet rest hx haction
          exact ⟨(replied x written).2, u, by simp, judges, haccepted, hreadable⟩
    | error e =>
      rw [ho] at hzs verdict
      cases hzs with
      | broken =>
        refine ⟨by simp [Outcome.comment?, Outcome.error?], fun x hx _ _ =>
          iff_of_false (by simp [Outcome.comment?]) ?_⟩
        rintro ⟨-, y, hy, hjudges, hy'⟩
        obtain rfl := only y hy hjudges
        obtain ⟨document, hdocument⟩ := verdict.2 hy'
        cases hdocument

/-- **What was done with the comment is reported exactly if nothing fails**: a check run that
reports no error reports the call that was made and accepted, if there is one, and a check run that
reports an error reports none. So what was accepted is reported exactly if its reply is readable and
the verdict after it is accepted with a readable reply. -/
theorem comment?_eq_some_iff [CharNames] (clock : Clock) (service : Service σ) (app : App)
    (pages : Nat) (request : CheckRequest) (session : Session) (state : σ)
    (action : CommentAction) :
    let r := (run app pages request).run clock service session state
    (r.result.comment? = some action ↔ r.result.error? = none ∧
      ∃ x ∈ r.exchanges, commentAction? x.call = some action ∧ x.reply.isAccepted = true) ∧
    ∀ x ∈ r.exchanges, commentAction? x.call = some action → x.reply.isAccepted = true →
      (r.result.comment? = some action ↔ x.reply.IsReadable ∧
        ∃ y ∈ r.exchanges, Judges request y.call ∧ y.reply.isAccepted = true ∧
          y.reply.IsReadable) :=
  (course_of_trace (Program.trace_run clock service _ session state)).comment_iff action

attribute [local instance] CharNames.ascii

/-- A comment that is created and reported: nothing fails. -/
theorem created_reported :
    let request : CheckRequest := ⟨"o/r", 5, "abc", 99⟩
    let script : List Reply :=
      [.answer 200 [] (Bytes.encode "\x7b\x7d"), .answer 404 [] [], .answer 404 [] [],
      .answer 200 [] (Bytes.encode "+++ b/f.py\n@@ -0,0 +1 @@\n+# TODO x\n"),
      .answer 200 [] (Bytes.encode "[]"), .answer 201 [] (Bytes.encode "\x7b\x7d"),
      .answer 200 [] (Bytes.encode "\x7b\x7d")]
    let r :=
      (run ⟨.int 7, .text "app"⟩ (pageBound script) request).run (fun n => ⟨n⟩) Service.script
      { tokens := .fixed "t" } script
    r.result.comment? = some .created ∧ ∃ x ∈ r.exchanges, commentAction? x.call = some .created ∧
      x.reply.isAccepted = true ∧ x.reply.IsReadable := by
  intro request script r
  obtain ⟨reported, readable⟩ :=
    comment?_eq_some_iff (fun n => ⟨n⟩) Service.script ⟨.int 7, .text "app"⟩
    (pageBound script) request { tokens := .fixed "t" } script .created
  have created : r.result.comment? = some .created := by decide +kernel
  obtain ⟨-, x, hx, haction, haccepted⟩ := reported.1 created
  exact ⟨created, x, hx, haction, haccepted, ((readable x hx haction haccepted).1 created).1⟩

/-- **A comment that was created can go unreported**: nothing comes back for the verdict after
it. -/
theorem created_unreported :
    let request : CheckRequest := ⟨"o/r", 5, "abc", 99⟩
    let script : List Reply :=
      [.answer 200 [] (Bytes.encode "\x7b\x7d"), .answer 404 [] [], .answer 404 [] [],
      .answer 200 [] (Bytes.encode "+++ b/f.py\n@@ -0,0 +1 @@\n+# TODO x\n"),
      .answer 200 [] (Bytes.encode "[]"), .answer 201 [] (Bytes.encode "\x7b\x7d"), .lost "timeout"]
    let r :=
      (run ⟨.int 7, .text "app"⟩ (pageBound script) request).run (fun n => ⟨n⟩) Service.script
      { tokens := .fixed "t" } script
    r.result.comment? = none ∧
      ∃ x ∈ r.exchanges, commentAction? x.call = some .created ∧ x.reply.isAccepted = true := by
  decide +kernel

end ActionItems.CheckRun
