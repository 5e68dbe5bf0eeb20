import ActionItems.Proofs.Webhook.Event
import ActionItems.Webhook.Route

/-!
# What a reaction rests on

`route` looks at the kind of an event, at the app of its check and at what happened. For an app with
a number it is known what leads to each of its answers: `route_eq_createCheckRun_iff`,
`route_eq_runCheck_iff` and, for events that are refused, `route_of_not_app`. The functions behind
it take the parts of the event that it has looked at, and so they find them. A check run that is
carried out needs more, an owner of the repository and a pull request with a positive number; both
were seen to when the event was read (`reaction_possible`).
-/

namespace ActionItems.Webhook

variable {kind : String} {event : Event} {n : Int}

/-! ### The app of an event -/

theorem isSameApp_int_iff {app? : Option Int} : isSameApp app? (.int n) = true ↔ app? = some n := by
  cases app? <;> simp [isSameApp, Value.same, Value.sameNumber?, Value.asInt?]

theorem check?_eq_some_iff {check : Check} : event.check? kind = some check ↔
    kind = "check_run" ∧ event.checkRun? = some check ∨
    kind = "check_suite" ∧ event.checkSuite? = some check := by
  unfold Event.check?
  split
  · next h => simp [h]
  · split
    · next h => simp [h]
    · next hrun hsuite => simp [hrun, hsuite]

theorem appFor?_eq_some_iff :
    event.appFor? kind = some n ↔ ∃ check, event.check? kind = some check ∧ check.app? = some n :=
  Option.bind_eq_some_iff

/-! ### Answers -/

theorem route_pullRequest : route "pull_request" event (.int n) =
    .ok (if event.didOneOf ["opened"] && event.pullRequest?.isSome then .createCheckRun
      else .ignore) :=
  if_pos rfl

/-- An event about a check of the app is reacted to if the check has pull requests. -/
theorem route_of_app {check : Check} (hcheck : event.check? kind = some check)
    (happ : check.app? = some n) :
    route kind event (.int n) =
      .ok (if kind = "check_suite" ∧ event.didOneOf ["requested", "rerequested"] ∧
        check.pullRequests ≠ [] then
          .createCheckRun
        else if kind = "check_run" ∧ event.didOneOf ["created", "rerequested"] ∧
          check.pullRequests ≠ [] then
          .runCheck
        else .ignore) := by
  have hkind : kind ≠ "pull_request" := by
    rintro rfl
    cases hcheck
  have same : isSameApp (event.appFor? kind) (.int n) = true :=
    isSameApp_int_iff.2 (appFor?_eq_some_iff.2 ⟨check, hcheck, happ⟩)
  have ready : (event.check? kind).any Check.hasPullRequest = decide (check.pullRequests ≠ []) := by
    cases hlist : check.pullRequests <;> simp [hcheck, Check.hasPullRequest, hlist]
  simp only [route, if_neg hkind, same, if_true, ready, Bool.and_eq_true,
    decide_eq_true_eq, and_assoc]
  split
  · rfl
  · split <;> rfl

theorem route_of_not_app (hkind : kind ≠ "pull_request") (h : event.appFor? kind ≠ some n) :
    route kind event (.int n) = .error ⟨kind⟩ := by
  have other : isSameApp (event.appFor? kind) (.int n) = false :=
    Bool.eq_false_iff.2 fun same => h (isSameApp_int_iff.1 same)
  simp only [route, if_neg hkind, other, Bool.false_eq_true, if_false]

/-- An event that is not refused is one of a pull request or names the app. -/
theorem exists_check_of_route {reaction : Reaction} (hkind : kind ≠ "pull_request")
    (h : route kind event (.int n) = .ok reaction) :
    ∃ check, event.check? kind = some check ∧ check.app? = some n := by
  by_contra hnone
  rw [route_of_not_app hkind (mt appFor?_eq_some_iff.1 hnone)] at h
  cases h

theorem route_eq_createCheckRun_iff : route kind event (.int n) = .ok .createCheckRun ↔
    kind = "pull_request" ∧ event.didOneOf ["opened"] ∧
    (∃ subject, event.pullRequest? = some subject) ∨
    kind = "check_suite" ∧ event.didOneOf ["requested", "rerequested"] ∧
      ∃ check, event.checkSuite? = some check ∧ check.app? = some n ∧ check.pullRequests ≠ [] := by
  constructor
  · intro h
    by_cases hkind : kind = "pull_request"
    · subst hkind
      simpa [route_pullRequest, Option.isSome_iff_exists] using h
    obtain ⟨check, hcheck, happ⟩ := exists_check_of_route hkind h
    rw [route_of_app hcheck happ] at h
    rcases check?_eq_some_iff.1 hcheck with ⟨rfl, -⟩ | ⟨rfl, hsuite⟩
    · simp [ite_eq_iff] at h
    · obtain ⟨hdid, hne⟩ : event.didOneOf ["requested", "rerequested"] ∧
          check.pullRequests ≠ [] := by simpa using h
      exact .inr ⟨rfl, hdid, check, hsuite, happ, hne⟩
  · rintro (⟨rfl, hdid, subject, hsubject⟩ | ⟨rfl, hdid, check, hsuite, happ, hne⟩)
    · simp [route_pullRequest, hdid, hsubject]
    · rw [route_of_app (check?_eq_some_iff.2 (.inr ⟨rfl, hsuite⟩)) happ, if_pos ⟨rfl, hdid, hne⟩]

theorem route_eq_runCheck_iff : route kind event (.int n) = .ok .runCheck ↔
    kind = "check_run" ∧ event.didOneOf ["created", "rerequested"] ∧
      ∃ check, event.checkRun? = some check ∧ check.app? = some n ∧ check.pullRequests ≠ [] := by
  constructor
  · intro h
    have hkind : kind ≠ "pull_request" := by
      rintro rfl
      simp [route_pullRequest, ite_eq_iff] at h
    obtain ⟨check, hcheck, happ⟩ := exists_check_of_route hkind h
    rw [route_of_app hcheck happ] at h
    rcases check?_eq_some_iff.1 hcheck with ⟨rfl, hrun⟩ | ⟨rfl, -⟩
    · obtain ⟨hdid, hne⟩ : event.didOneOf ["created", "rerequested"] ∧ check.pullRequests ≠ [] := by
        simpa using h
      exact ⟨rfl, hdid, check, hrun, happ, hne⟩
    · simp [ite_eq_iff] at h
  · rintro ⟨rfl, hdid, check, hrun, happ, hne⟩
    rw [route_of_app (check?_eq_some_iff.2 (.inl ⟨rfl, hrun⟩)) happ, if_neg (by simp),
      if_pos ⟨rfl, hdid, hne⟩]

/-! ### What the functions behind an answer find -/

theorem ofEvent_of_isValid {check : Check} {first : PullRequest} {rest : List PullRequest}
    (hevent : event.IsValid) (hcheck : event.checkRun? = some check)
    (hfirst : check.pullRequests = first :: rest) :
    CheckRequest.ofEvent event =
      .ok ⟨event.repository.fullName, first.number, check.headSha, check.id⟩ := by
  have positive : 0 < first.number :=
    hevent.checkRun check hcheck first (hfirst ▸ List.mem_cons_self)
  have owned : event.repository.fullName.toList.contains '/' = true :=
    List.contains_iff_mem.2 hevent.owner
  -- The request is read off the fields of the check, by a pattern for its first pull request.
  obtain ⟨id, headSha, pullRequests, app?⟩ := check
  obtain rfl : pullRequests = first :: rest := hfirst
  simp only [CheckRequest.ofEvent, hcheck, CheckRequest.make, if_neg (Int.not_le.2 positive), owned,
    Bool.not_true, Bool.false_eq_true, if_false]

/-- **A reaction can be carried out.** A check run is created at the commit of the pull request or
of the check suite of the app, and one of the app is carried out for its first pull request; the
event has all that is needed for it. An event of another kind is refused. -/
theorem reaction_possible {body : List UInt8} (h : Event.ofBytes body = .ok event) (kind : String)
    (n : Int) : (route kind event (.int n) = .ok .createCheckRun →
      kind = "pull_request" ∧ (∃ subject, event.pullRequest? = some subject ∧
        checkTarget kind event = some ⟨event.repository.fullName, subject.headSha⟩) ∨
      kind = "check_suite" ∧ ∃ check, event.checkSuite? = some check ∧ check.app? = some n ∧
        checkTarget kind event = some ⟨event.repository.fullName, check.headSha⟩) ∧
    (route kind event (.int n) = .ok .runCheck →
      kind = "check_run" ∧ ∃ check first rest, event.checkRun? = some check ∧ check.app? = some n ∧
        check.pullRequests = first :: rest ∧ 0 < first.number ∧ CheckRequest.ofEvent event =
          .ok ⟨event.repository.fullName, first.number, check.headSha, check.id⟩) ∧
    (kind ∉ ["pull_request", "check_suite", "check_run"] →
      route kind event (.int n) = .error ⟨kind⟩) := by
  refine ⟨fun hcreate => ?_, fun hrun => ?_, fun hkind => ?_⟩
  · rcases route_eq_createCheckRun_iff.1 hcreate with
      ⟨rfl, -, subject, hsubject⟩ | ⟨rfl, -, check, hcheck, happ, -⟩
    · exact .inl ⟨rfl, subject, hsubject, by simp [checkTarget, hsubject]⟩
    · exact .inr ⟨rfl, check, hcheck, happ, by simp [checkTarget, Event.check?, hcheck]⟩
  · obtain ⟨rfl, -, check, hcheck, happ, hne⟩ := route_eq_runCheck_iff.1 hrun
    obtain ⟨first, rest, hfirst⟩ := List.exists_cons_of_ne_nil hne
    have valid := Event.isValid_of_ofBytes h
    exact ⟨rfl, check, first, rest, hcheck, happ, hfirst,
      valid.checkRun check hcheck first (hfirst ▸ List.mem_cons_self),
      ofEvent_of_isValid valid hcheck hfirst⟩
  · simp only [List.mem_cons, List.not_mem_nil, or_false, not_or] at hkind
    obtain ⟨notPullRequest, notSuite, notRun⟩ := hkind
    refine route_of_not_app notPullRequest fun hown => ?_
    obtain ⟨check, hcheck, -⟩ := appFor?_eq_some_iff.1 hown
    rcases check?_eq_some_iff.1 hcheck with ⟨hrun, -⟩ | ⟨hsuite, -⟩
    · exact notRun hrun
    · exact notSuite hsuite

/-- A check run of the app is carried out for its pull request, and the same event under another
name is refused. -/
theorem reaction_possible_created :
    let body := Bytes.encode ("\x7b\"action\": \"created\", " ++
      "\"repository\": \x7b\"name\": \"r\", \"full_name\": \"o/r\"\x7d, " ++
      "\"check_run\": \x7b\"id\": 9, \"head_sha\": \"abc\", \"app\": \x7b\"id\": 7\x7d, " ++
      "\"pull_requests\": [\x7b\"number\": 5\x7d]\x7d\x7d")
    ∃ event, Event.ofBytes body = .ok event ∧ route "check_run" event (.int 7) = .ok .runCheck ∧
      CheckRequest.ofEvent event = .ok ⟨"o/r", 5, "abc", 9⟩ ∧
      route "push" event (.int 7) = .error ⟨"push"⟩ := by
  intro body
  let event : Event :=
    ⟨some "created", ⟨"r", "o/r"⟩, none, some ⟨9, "abc", [⟨5, none⟩], some 7⟩, none, none⟩
  have read : Event.ofBytes body = .ok event := Except.eq_ok_of_toOption (by decide +kernel)
  have answer : route "check_run" event (.int 7) = .ok .runCheck :=
    Except.eq_ok_of_toOption (by decide +kernel)
  obtain ⟨-, hrun, -⟩ := reaction_possible read "check_run" 7
  obtain ⟨-, -, hother⟩ := reaction_possible read "push" 7
  obtain ⟨-, check, first, rest, hcheck, -, hfirst, -, hrequest⟩ := hrun answer
  cases hcheck
  cases hfirst
  exact ⟨event, read, answer, hrequest, hother (by decide)⟩

end ActionItems.Webhook
