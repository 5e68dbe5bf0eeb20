import ActionItems.Proofs.Except
import ActionItems.Proofs.GitHub.Operation
import ActionItems.Proofs.GitHub.Reply

/-!
# Calls that the service refuses

A reply with the status of an error is the last one of an operation. What the operation comes to is
told by the body of the reply: a mapping, or anything that is no document, refuses the call under
the status, so a file that is not there is known by it. A document of any other kind has no fields
to look up, and then that is the failure and the status is lost (`refused_ends`), even that of a
file that is not there (`refused_ends_without_fields`).
-/

namespace ActionItems.GitHub

variable {now : Instant} {status : Int} {headers : List (String × String)} {body : List UInt8}

/-- What the status of an error makes of a call, if the headers about limits can be read. -/
theorem outcome_of_refused (hstatus : isErrorStatus status = true) (hne : status ≠ tooManyCalls)
    (hheaders : ReadableHeaders headers) :
    (Reply.answer status headers body).outcome now = .error (refusal status body) := by
  have readable := (Session.readHeaders_snd_eq_none_iff { tokens := .supply [] } headers).2 hheaders
  unfold Reply.outcome Session.settle
  dsimp only
  rcases hs : Session.readHeaders { tokens := .supply [] } headers with ⟨t, _ | f⟩
  · simp only [checkStatus, hne, hstatus, if_true, if_false]
  · rw [hs] at readable
    cases readable

/-! ### What a body says about a refusal -/

theorem readDocument_nil : ∃ e, readDocument [] = .error e := ⟨_, rfl⟩

theorem errorDocument_of_ok {v : Value} (h : readDocument body = .ok v) :
    errorDocument body = v := by
  unfold errorDocument
  cases body with
  | nil =>
    obtain ⟨e, he⟩ := readDocument_nil
    rw [he] at h
    cases h
  | cons b body => simp [h]

theorem errorDocument_of_error {e : Failure} (h : readDocument body = .error e) :
    errorDocument body = .map [] := by
  unfold errorDocument
  split
  · rfl
  · rw [h]

theorem refusal_of_map {entries : List (Value × Value)} (h : errorDocument body = .map entries) :
    refusal status body = .refused status (.map entries) := by
  simp only [refusal, h]

/-- A document without fields takes the place of the status. -/
theorem refusal_of_entries?_eq_none {v : Value} (h : readDocument body = .ok v)
    (hv : v.entries? = none) : refusal status body = .noFields v := by
  unfold refusal
  rw [errorDocument_of_ok h]
  cases v with
  | map entries => cases hv
  | _ => rfl

/-! ### Operations that are refused -/

/-- **A refused call ends an operation**: with the status and what the body says, if that is a
mapping or no document at all; a file that is not there is then no failure. Any other document ends
it as a value without fields, whatever the status is. -/
theorem refused_ends {σ : Type} (operation : Operation) (pages : Nat) (repository : String)
    (clock : Clock) (service : Service σ) (session : Session) (state : σ) {x : Exchange}
    (hx : x ∈
      (Program.run clock service (operation.task pages repository).run session state).exchanges)
    (hreply : x.reply = .answer status headers body) (hstatus : isErrorStatus status = true)
    (hne : status ≠ tooManyCalls) (hheaders : ReadableHeaders headers) :
    let r := Program.run clock service (operation.task pages repository).run session state
    (∃ before, r.exchanges = before ++ [x]) ∧
    (∀ entries, readDocument body = .ok (.map entries) →
      r.result = operation.onFailure (.refused status (.map entries))) ∧
    (∀ e, readDocument body = .error e →
      r.result = operation.onFailure (.refused status (.map []))) ∧
    ∀ v, readDocument body = .ok v → v.entries? = none → r.result = .error (.noFields v) := by
  intro r
  have trace := Program.trace_run clock service (operation.task pages repository).run session state
  have outcome : x.outcome = .error (refusal status body) := by
    rw [Exchange.outcome, hreply]
    exact outcome_of_refused hstatus hne hheaders
  obtain ⟨hresult, hlast⟩ := (operation.endsOnFailure pages repository).of_trace trace hx outcome
  replace hresult : r.result = operation.onFailure (refusal status body) := hresult
  refine ⟨hlast, fun entries h => ?_, fun e h => ?_, fun v h hv => ?_⟩
  · rw [hresult, refusal_of_map (errorDocument_of_ok h)]
  · rw [hresult, refusal_of_map (errorDocument_of_error h)]
  · rw [hresult, refusal_of_entries?_eq_none h hv]
    -- The status is lost, so that a file which is not there is not known from any other failure.
    cases operation <;> rfl

/-- **A file that is not there ends in a failure** if the body of the reply is a list. -/
theorem refused_ends_without_fields :
    let script : List Reply := [.answer 404 [] (Bytes.encode "[]")]
    let fetch : Operation := .fetchFile ".github/config.yml" (.text "abc")
    let r :=
      Program.run (fun n => ⟨n⟩) Service.script (fetch.task 1 "o/r").run
        { tokens := .fixed "t" } script
    isErrorStatus notFound = true ∧ notFound ≠ tooManyCalls ∧ ReadableHeaders [] ∧
      r.exchanges.map Exchange.reply = script ∧ r.result = .error (.noFields (.list [])) := by
  intro script fetch r
  have list : readDocument (Bytes.encode "[]") = .ok (.list []) :=
    Except.eq_ok_of_toOption (by decide +kernel)
  have none : ReadableHeaders [] := ⟨by rintro text ⟨⟩, by rintro text ⟨⟩⟩
  have replies : r.exchanges.map Exchange.reply = script := by decide +kernel
  obtain ⟨x, hx, hreply⟩ := List.map_eq_singleton_iff.1 replies
  obtain ⟨-, -, -, hresult⟩ :=
    refused_ends fetch 1 "o/r" (fun n => ⟨n⟩) Service.script { tokens := .fixed "t" } script
    (hx ▸ List.mem_singleton_self x) hreply (by decide) (by decide) none
  exact ⟨by decide, by decide, none, replies, hresult _ list rfl⟩

end ActionItems.GitHub
