import ActionItems.Proofs.GitHub.Trace
import Mathlib.Data.List.Basic

/-!
# Replies

A reply accepts a call if its status is not that of an error (`Reply.isAccepted`). The call comes to
something exactly if the reply accepts it and its headers about limits can be read
(`outcome_eq_ok_iff`). A reply without such headers leaves the session as it is
(`Session.settle_of_isSilent`).
-/

namespace ActionItems.GitHub

variable {now : Instant}

/-- A reply whose status is not that of an error. -/
def Reply.isAccepted : Reply → Bool
  | .answer status _ _ => !isErrorStatus status
  | .lost _ => false

/-- Headers about limits are absent or integers, and the time of the reset is a point in time. -/
structure ReadableHeaders (headers : List (String × String)) : Prop where
  remaining : ∀ text, header? Session.remainingHeader headers = some text →
    ∃ n, Number.readInteger 10 text = .ok n
  reset : ∀ text, header? Session.resetHeader headers = some text →
    ∃ n instant, Number.readInteger 10 text = .ok n ∧ Instant.ofSeconds n = .ok instant

/-- A reply with headers and a document that can be read. -/
def Reply.IsReadable (reply : Reply) : Prop :=
  ∃ status headers body document, reply = .answer status headers body ∧ ReadableHeaders headers ∧
    readDocument body = .ok document

theorem Session.readRemaining_ok_iff (s : Session) (headers : List (String × String)) :
    (∃ t, s.readRemaining headers = .ok t) ↔
      ∀ text, header? Session.remainingHeader headers = some text →
        ∃ n, Number.readInteger 10 text = .ok n := by
  unfold Session.readRemaining
  cases header? Session.remainingHeader headers with
  | none => simp
  | some text =>
    cases h : Number.readInteger 10 text with
    | error e => simp [h]
    | ok n => simp [h]

theorem Session.readReset_ok_iff (s : Session) (headers : List (String × String)) :
    (∃ t, s.readReset headers = .ok t) ↔ ∀ text, header? Session.resetHeader headers = some text →
      ∃ n instant, Number.readInteger 10 text = .ok n ∧ Instant.ofSeconds n = .ok instant := by
  unfold Session.readReset
  cases header? Session.resetHeader headers with
  | none => simp
  | some text =>
    cases h : Number.readInteger 10 text with
    | error e => simp [h]
    | ok n =>
      cases hn : Instant.ofSeconds n with
      | error e => simp [h, hn]
      | ok instant => simp [h, hn]

theorem Session.readHeaders_snd_eq_none_iff (s : Session) (headers : List (String × String)) :
    (s.readHeaders headers).2 = none ↔ ReadableHeaders headers := by
  unfold Session.readHeaders
  have remaining := s.readRemaining_ok_iff headers
  cases hs : s.readRemaining headers with
  | error f =>
    rw [hs] at remaining
    refine iff_of_false (by simp) fun readable => ?_
    obtain ⟨t, ht⟩ := remaining.2 readable.remaining
    cases ht
  | ok t =>
    rw [hs] at remaining
    have reset := t.readReset_ok_iff headers
    cases ht : t.readReset headers with
    | error f =>
      rw [ht] at reset
      refine iff_of_false (by simp [ht]) fun readable => ?_
      obtain ⟨u, hu⟩ := reset.2 readable.reset
      cases hu
    | ok u =>
      rw [ht] at reset
      exact iff_of_true (by simp [ht]) ⟨remaining.1 ⟨t, rfl⟩, reset.1 ⟨u, rfl⟩⟩

theorem checkStatus_eq_ok_iff {reset? : Option Instant} {status : Int} {body body' : List UInt8} :
    checkStatus now reset? status body = .ok body' ↔
      isErrorStatus status = false ∧ body = body' := by
  unfold checkStatus
  by_cases tooMany : status = tooManyCalls
  · have error : isErrorStatus status = true := by rw [tooMany]; decide
    rw [if_pos tooMany]
    simp [error]
  · cases hstatus : isErrorStatus status <;> simp [tooMany]

/-- **When a call comes to something**: its reply accepts it and has readable headers. -/
theorem outcome_eq_ok_iff {reply : Reply} {body : List UInt8} : reply.outcome now = .ok body ↔
    reply.isAccepted = true ∧ ∃ status headers, reply = .answer status headers body ∧
    ReadableHeaders headers := by
  cases reply with
  | lost reason => exact iff_of_false (by intro h; cases h) (by simp [Reply.isAccepted])
  | answer status headers body' =>
    have readable := Session.readHeaders_snd_eq_none_iff { tokens := .supply [] } headers
    unfold Reply.outcome Session.settle
    dsimp only
    rcases hs : Session.readHeaders { tokens := .supply [] } headers with ⟨t, _ | f⟩
    · rw [hs] at readable
      have given : ReadableHeaders headers := readable.1 rfl
      dsimp only
      rw [checkStatus_eq_ok_iff]
      simp [Reply.isAccepted, given]
    · rw [hs] at readable
      refine iff_of_false (by intro h; cases h) ?_
      rintro ⟨-, _, _, ⟨⟩, given⟩
      cases readable.2 given

/-! ### Replies that say nothing about limits -/

/-- A reply that says nothing about limits. -/
def Reply.IsSilent : Reply → Prop
  | .answer _ headers _ =>
    header? Session.remainingHeader headers = none ∧ header? Session.resetHeader headers = none
  | .lost _ => True

theorem Session.settle_of_isSilent {reply : Reply} (h : reply.IsSilent) (s : Session) :
    (s.settle now reply).1 = s := by
  cases reply with
  | lost reason => rfl
  | answer status headers body =>
    obtain ⟨hremaining, hreset⟩ := h
    have silent : s.readHeaders headers = (s, none) := by
      simp [Session.readHeaders, Session.readRemaining, Session.readReset, hremaining, hreset]
    unfold Session.settle
    dsimp only
    rw [silent]

end ActionItems.GitHub
