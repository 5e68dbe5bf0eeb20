import ActionItems.GitHub.Task

/-!
# Traces of programs

What can be seen of a run from outside: its exchanges and its result. `Program.Trace` says which
exchanges and which result a program can show against any service and in any session, and every run
shows one of these (`Program.trace_run`). A trace has the times of its exchanges, but no clock:
calls that are not made leave no time in it. The trace of a program after another is taken apart
into the traces of both (`Program.Trace.of_bind`, `Task.of_bind`), down to single calls
(`Program.Trace.of_ask`).

`Program.Asks` bounds the calls that a program can make (`Program.Asks.of_trace`). A session that
stays closed makes none at all (`exchanges_of_closed`), and a script is the only source of answers
(`answers_run`).
-/

namespace ActionItems.GitHub

variable {σ ε ε' α β : Type} {now : Instant} {clock : Clock}

/-! ### What a call comes to -/

/-- What a call comes to by its reply. The session that it is made in makes no difference
(`Session.settle_snd`). -/
def Reply.outcome (now : Instant) (reply : Reply) : Except Failure (List UInt8) :=
  (Session.settle { tokens := .supply [] } now reply).2

/-- What the call of an exchange comes to. -/
def Exchange.outcome (x : Exchange) : Except Failure (List UInt8) := x.reply.outcome x.time

/-- Why a call is not made: the session is closed, or there is no token. -/
def Failure.isUnmade : Failure → Bool
  | .closed _ => true
  | .noToken => true
  | _ => false

/-- Whether anything came back for a call. -/
def Reply.isAnswer : Reply → Bool
  | .answer .. => true
  | .lost _ => false

theorem Session.readRemaining_spec (s t : Session) (headers : List (String × String)) :
    (∃ f, s.readRemaining headers = .error f ∧ t.readRemaining headers = .error f) ∨
      ∃ s' t', s.readRemaining headers = .ok s' ∧ t.readRemaining headers = .ok t' := by
  unfold Session.readRemaining
  cases header? Session.remainingHeader headers with
  | none => exact .inr ⟨s, t, rfl, rfl⟩
  | some text =>
    dsimp only
    cases Number.readInteger 10 text with
    | error e => exact .inl ⟨_, rfl, rfl⟩
    | ok n => exact .inr ⟨_, _, rfl, rfl⟩

theorem Session.readReset_spec (s t : Session) (headers : List (String × String)) :
    (∃ f, s.readReset headers = .error f ∧ t.readReset headers = .error f) ∨
      ∃ s' t', s.readReset headers = .ok s' ∧ t.readReset headers = .ok t' ∧
        (header? Session.resetHeader headers = none ∨ s'.reset? = t'.reset?) := by
  unfold Session.readReset
  cases header? Session.resetHeader headers with
  | none => exact .inr ⟨s, t, rfl, rfl, .inl rfl⟩
  | some text =>
    dsimp only
    cases Number.readInteger 10 text with
    | error e => exact .inl ⟨_, rfl, rfl⟩
    | ok n =>
      dsimp only
      cases Instant.ofSeconds n with
      | error e => exact .inl ⟨_, rfl, rfl⟩
      | ok reset => exact .inr ⟨_, _, rfl, rfl, .inr rfl⟩

/-- **What a call comes to does not depend on the session.** -/
theorem Session.settle_snd (s : Session) (now : Instant) (reply : Reply) :
    (s.settle now reply).2 = reply.outcome now := by
  unfold Reply.outcome
  cases reply with
  | lost reason => rfl
  | answer status headers body =>
    simp only [Session.settle, Session.readHeaders]
    obtain ⟨f, hs, ht⟩ | ⟨s', t', hs, ht⟩ :=
      Session.readRemaining_spec s { tokens := .supply [] } headers
    · rw [hs, ht]
    rw [hs, ht]
    obtain ⟨f, hs', ht'⟩ | ⟨s'', t'', hs', ht', same⟩ := Session.readReset_spec s' t' headers
    · simp only [hs', ht']
    simp only [hs', ht']
    obtain none | same := same
    · rw [none]; rfl
    · rw [same]

theorem Reply.isAnswer_of_outcome {reply : Reply} {body : List UInt8}
    (h : reply.outcome now = .ok body) : reply.isAnswer = true := by
  cases reply with
  | answer status headers body => rfl
  | lost reason => cases h

theorem Session.tokens_of_readRemaining {s t : Session} {headers : List (String × String)}
    (h : s.readRemaining headers = .ok t) : t.tokens = s.tokens := by
  unfold Session.readRemaining at h
  split at h
  · cases h; rfl
  · split at h
    · cases h; rfl
    · cases h

theorem Session.tokens_of_readReset {s t : Session} {headers : List (String × String)}
    (h : s.readReset headers = .ok t) : t.tokens = s.tokens := by
  unfold Session.readReset at h
  split at h
  · cases h; rfl
  · split at h
    · cases h
    · split at h
      · cases h; rfl
      · cases h

theorem Session.tokens_settle (s : Session) (now : Instant) (reply : Reply) :
    (s.settle now reply).1.tokens = s.tokens := by
  cases reply with
  | lost reason => rfl
  | answer status headers body =>
    simp only [Session.settle, Session.readHeaders]
    cases hr : s.readRemaining headers with
    | error f => rfl
    | ok t =>
      dsimp only
      cases hs : t.readReset headers with
      | error f => exact Session.tokens_of_readRemaining hr
      | ok u => exact (Session.tokens_of_readReset hs).trans (Session.tokens_of_readRemaining hr)

theorem Session.accept_of_fixed {s : Session} {token : String} (h : s.tokens = .fixed token)
    (hc : s.closedUntil? now = none) : s.accept now = .ok (token, s) := by
  refine accept_eq_ok_iff.2 ⟨hc, s.tokens, ?_, rfl⟩
  rw [h, TokenSource.take?_fixed]

/-! ### Traces -/

namespace Program

instance : LawfulMonad Program := LawfulMonad.mk' Program bind_done (fun _ _ => rfl) bind_assoc

/-- A program can show these exchanges and this result. -/
inductive Trace : Program α → List Exchange → α → Prop
  | done (a : α) : Trace (.done a) [] a
  | unmade {call : Call} {next : Except Failure (List UInt8) → Program α}
    {xs : List Exchange} {a : α} (f : Failure) (hf : f.isUnmade = true)
    (h : Trace (next (.error f)) xs a) : Trace (.ask call next) xs a
  | made {call : Call} {next : Except Failure (List UInt8) → Program α} {xs : List Exchange} {a : α}
    (token : String) (reply : Reply) (time : Instant) (h : Trace (next (reply.outcome time)) xs a) :
    Trace (.ask call next) (⟨call, token, reply, time⟩ :: xs) a

theorem isUnmade_of_accept {s : Session} {f : Failure} (h : s.accept now = .error f) :
    f.isUnmade = true := by
  unfold Session.accept at h
  split at h
  · cases h; rfl
  · split at h
    · cases h; rfl
    · cases h

/-- **A run shows a trace of its program.** -/
theorem trace_run (clock : Clock) (service : Service σ) (p : Program α) (session : Session)
    (state : σ) :
    p.Trace (p.run clock service session state).exchanges
      (p.run clock service session state).result := by
  induction p generalizing clock session state with
  | done a => exact .done a
  | ask call next ih =>
    unfold Program.run
    dsimp only
    cases h : session.accept (clock 0) with
    | error f => exact .unmade f (isUnmade_of_accept h) (ih (.error f) clock.later session state)
    | ok r =>
      obtain ⟨token, accepted⟩ := r
      have outcome := accepted.settle_snd (clock 0) (service state call).1
      have following := ih (accepted.settle (clock 0) (service state call).1).2 clock.later
        (accepted.settle (clock 0) (service state call).1).1 (service state call).2
      rw [outcome] at following
      refine .made token (service state call).1 (clock 0) ?_
      rw [← outcome] at following ⊢
      exact following

namespace Trace

variable {xs : List Exchange} {a : α} {b : β}

theorem of_done {a b : α} (h : (Program.done a).Trace xs b) : xs = [] ∧ b = a := by
  cases h
  exact ⟨rfl, rfl⟩

/-- A trace of a program after another one is a trace of each. -/
theorem of_bind {p : Program α} {f : α → Program β} (h : (p.bind f).Trace xs b) :
    ∃ ys zs a, xs = ys ++ zs ∧ p.Trace ys a ∧ (f a).Trace zs b := by
  induction p generalizing xs with
  | done a => exact ⟨[], xs, a, rfl, .done a, h⟩
  | ask call next ih =>
    cases h with
    | unmade e he h =>
      obtain ⟨ys, zs, a, rfl, hp, hf⟩ := ih (.error e) h
      exact ⟨ys, zs, a, rfl, .unmade e he hp, hf⟩
    | made token reply time h =>
      obtain ⟨ys, zs, a, rfl, hp, hf⟩ := ih (reply.outcome time) h
      exact ⟨_, zs, a, rfl, .made token reply time hp, hf⟩

theorem of_ask {call : Call} {g : Except Failure (List UInt8) → α}
    (h : (Program.ask call fun outcome => .done (g outcome)).Trace xs a) :
    (∃ f : Failure, f.isUnmade = true ∧ xs = [] ∧ a = g (.error f)) ∨
      ∃ x : Exchange, xs = [x] ∧ x.call = call ∧ a = g x.outcome := by
  cases h with
  | unmade f hf h =>
    obtain ⟨rfl, rfl⟩ := h.of_done
    exact .inl ⟨f, hf, rfl, rfl⟩
  | made token reply time h =>
    obtain ⟨rfl, rfl⟩ := h.of_done
    exact .inr ⟨⟨call, token, reply, time⟩, rfl, rfl, rfl⟩

end Trace

/-! ### Bounds on calls -/

/-- Every call that the program can make is one of `P`. -/
def Asks (P : Call → Prop) : Program α → Prop
  | .done _ => True
  | .ask call next => P call ∧ ∀ outcome, (next outcome).Asks P

variable {P : Call → Prop}

theorem Asks.bind {p : Program α} {f : α → Program β} (hp : p.Asks P) (hf : ∀ a, (f a).Asks P) :
    (p.bind f).Asks P := by
  induction p with
  | done a => exact hf a
  | ask call next ih => exact ⟨hp.1, fun outcome => ih outcome (hp.2 outcome)⟩

theorem Asks.of_trace {p : Program α} {xs : List Exchange} {a : α} (hp : p.Asks P)
    (h : p.Trace xs a) : ∀ x ∈ xs, P x.call := by
  induction h with
  | done a => simp
  | unmade f hf h ih => exact ih (hp.2 _)
  | made token reply time h ih =>
    intro x hx
    rcases List.mem_cons.1 hx with rfl | hx
    · exact hp.1
    · exact ih (hp.2 _) x hx

/-- The clock after a run is the clock before it, some calls on. -/
theorem exists_clock_run (clock : Clock) (service : Service σ) (p : Program α) (session : Session)
    (state : σ) :
    ∃ calls, ∀ n, (p.run clock service session state).clock n = clock (calls + n) := by
  induction p generalizing clock session state with
  | done a => exact ⟨0, fun n => by rw [Nat.zero_add]; rfl⟩
  | ask call next ih =>
    have later {outcome : Except Failure (List UInt8)} {session : Session} {state : σ} :
        ∃ calls, ∀ n, ((next outcome).run clock.later service session state).clock n =
          clock (calls + n) := by
      obtain ⟨calls, h⟩ := ih outcome clock.later session state
      exact ⟨calls + 1, fun n => by rw [h, Nat.add_right_comm]; rfl⟩
    unfold Program.run
    dsimp only
    split
    · exact later
    · exact later

/-- **A session that stays closed makes no call.** -/
theorem exchanges_of_closed {session : Session} (h : ∀ n, session.closedUntil? (clock n) ≠ none)
    (service : Service σ) (p : Program α) (state : σ) :
    (p.run clock service session state).exchanges = [] := by
  induction p generalizing clock with
  | done a => rfl
  | ask call next ih =>
    obtain ⟨reset, hreset⟩ := Option.ne_none_iff_exists'.1 (h 0)
    rw [run_ask_of_error (Session.accept_of_closedUntil? hreset)]
    exact ih _ fun n => h (n + 1)

theorem tokens_run {token : String} {session : Session} (h : session.tokens = .fixed token)
    (service : Service σ) (p : Program α) (state : σ) :
    (p.run clock service session state).session.tokens = .fixed token := by
  induction p generalizing clock session state with
  | done a => exact h
  | ask call next ih =>
    unfold Program.run
    dsimp only
    cases hc : session.closedUntil? (clock 0) with
    | some reset =>
      rw [Session.accept_of_closedUntil? hc]
      exact ih _ h state
    | none =>
      rw [Session.accept_of_fixed h hc]
      exact ih _ ((Session.tokens_settle session (clock 0) _).trans h) _

theorem exists_reply_of_mem {service : Service σ} {p : Program α} {session : Session} {state : σ}
    {x : Exchange} (h : x ∈ (p.run clock service session state).exchanges) :
    ∃ s, x.reply = (service s x.call).1 := by
  induction p generalizing clock session state with
  | done a => cases h
  | ask call next ih =>
    unfold Program.run at h
    dsimp only at h
    cases hs : session.accept (clock 0) with
    | error f =>
      rw [hs] at h
      exact ih _ h
    | ok accepted =>
      rw [hs] at h
      obtain rfl | h := List.mem_cons.1 h
      · exact ⟨state, rfl⟩
      · exact ih _ h

/-- **A script is the only source of answers.** -/
theorem answers_run (clock : Clock) (p : Program α) (session : Session) (script : List Reply) :
    (p.run clock Service.script session script).exchanges.countP (·.reply.isAnswer) ≤
      script.length := by
  induction p generalizing clock session script with
  | done a => exact Nat.zero_le _
  | ask call next ih =>
    unfold Program.run
    dsimp only
    cases session.accept (clock 0) with
    | error f => exact ih _ clock.later session script
    | ok r =>
      obtain ⟨token, accepted⟩ := r
      cases script with
      | nil =>
        have rest := ih (accepted.settle (clock 0) noReply).2 clock.later
          (accepted.settle (clock 0) noReply).1 []
        exact rest
      | cons reply script =>
        have rest :=
          ih (accepted.settle (clock 0) reply).2 clock.later
            (accepted.settle (clock 0) reply).1 script
        show List.countP _ (_ :: Run.exchanges _) ≤ script.length + 1
        rw [List.countP_cons]
        refine Nat.add_le_add rest ?_
        split
        · exact Nat.le_refl 1
        · exact Nat.zero_le 1

end Program

/-! ### Traces of tasks -/

namespace Task

/-- A task can show these exchanges and this result. -/
abbrev Trace (t : Task ε α) (xs : List Exchange) (r : Except ε α) : Prop := Program.Trace t.run xs r

/-- Every call that the task can make is one of `P`. -/
abbrev Asks (P : Call → Prop) (t : Task ε α) : Prop := Program.Asks P t.run

variable {xs : List Exchange} {P : Call → Prop}

/-- A task after another one is not begun if the first one fails. -/
theorem of_bind {t : Task ε α} {f : α → Task ε β} {r : Except ε β} (h : Task.Trace (t >>= f) xs r) :
    (∃ e, r = .error e ∧ Task.Trace t xs (.error e)) ∨
      ∃ ys zs a, xs = ys ++ zs ∧ Task.Trace t ys (.ok a) ∧ Task.Trace (f a) zs r := by
  obtain ⟨ys, zs, c, rfl, ht, hf⟩ := Program.Trace.of_bind h
  cases c with
  | error e =>
    obtain ⟨rfl, rfl⟩ := Program.Trace.of_done hf
    rw [List.append_nil]
    exact .inl ⟨e, rfl, ht⟩
  | ok a => exact .inr ⟨ys, zs, a, rfl, ht, hf⟩

theorem of_bind_ok {t : Task ε α} {f : α → Task ε β} {b : β} (h : Task.Trace (t >>= f) xs (.ok b)) :
    ∃ ys zs a, xs = ys ++ zs ∧ Task.Trace t ys (.ok a) ∧ Task.Trace (f a) zs (.ok b) := by
  obtain ⟨e, he, -⟩ | h := of_bind h
  · cases he
  · exact h

theorem of_pure {a : α} {r : Except ε α} (h : Task.Trace (pure a : Task ε α) xs r) :
    xs = [] ∧ r = .ok a :=
  Program.Trace.of_done h

theorem of_map {f : α → β} {t : Task ε α} {r : Except ε β} (h : Task.Trace (f <$> t) xs r) :
    ∃ r', Task.Trace t xs r' ∧ r = r'.map f := by
  obtain ⟨ys, zs, r', rfl, ht, hf⟩ := Program.Trace.of_bind h
  cases r' with
  | error e =>
    obtain ⟨rfl, rfl⟩ := Program.Trace.of_done hf
    rw [List.append_nil]
    exact ⟨_, ht, rfl⟩
  | ok a =>
    obtain ⟨rfl, rfl⟩ := Program.Trace.of_done hf
    rw [List.append_nil]
    exact ⟨_, ht, rfl⟩

theorem of_settle {result r : Except ε α} (h : Task.Trace (settle result) xs r) :
    xs = [] ∧ r = result :=
  Program.Trace.of_done h

theorem of_mapError {f : ε → ε'} {t : Task ε α} {r : Except ε' α}
    (h : Task.Trace (t.mapError f) xs r) :
    ∃ r', Task.Trace t xs r' ∧ r = r'.mapError f := by
  obtain ⟨ys, zs, r', rfl, ht, hf⟩ := Program.Trace.of_bind h
  obtain ⟨rfl, rfl⟩ := Program.Trace.of_done hf
  rw [List.append_nil]
  exact ⟨r', ht, rfl⟩

theorem of_mapError_ok {f : ε → ε'} {t : Task ε α} {a : α}
    (h : Task.Trace (t.mapError f) xs (.ok a)) : Task.Trace t xs (.ok a) := by
  obtain ⟨r, ht, hr⟩ := of_mapError h
  cases r with
  | error e => cases hr
  | ok b => cases hr; exact ht

theorem asks_bind {t : Task ε α} {f : α → Task ε β} (ht : t.Asks P) (hf : ∀ a, (f a).Asks P) :
    (t >>= f).Asks P := by
  refine Program.Asks.bind ht fun r => ?_
  cases r with
  | error e => trivial
  | ok a => exact hf a

theorem asks_map {t : Task ε α} (f : α → β) (ht : t.Asks P) : (f <$> t).Asks P := by
  refine Program.Asks.bind ht fun r => ?_
  cases r <;> trivial

theorem asks_pure (a : α) : (pure a : Task ε α).Asks P := trivial

theorem asks_settle (result : Except ε α) : (settle result).Asks P := trivial

theorem asks_mapError {t : Task ε α} (f : ε → ε') (ht : t.Asks P) : (t.mapError f).Asks P :=
  Program.Asks.bind ht fun _ => trivial

end Task

/-! ### Single calls -/

theorem run_document (call : Call) :
    call.document.run = .ask call fun outcome => .done (outcome.bind readDocument) := by
  refine congrArg (Program.ask call) (funext fun outcome => ?_)
  cases outcome <;> rfl

theorem run_fetchDiff (repository : String) (number : Value) :
    (fetchDiff repository number).run = .ask ⟨repository, .fetchDiff number⟩ fun outcome =>
      .done (outcome.map Bytes.decodeLossy) := by
  refine congrArg (Program.ask _) (funext fun outcome => ?_)
  cases outcome <;> rfl

/-- The text of a file by what the call for it comes to; there is none if the file is not there. -/
def fileOutcome : Except Failure (List UInt8) → Except Failure (Option String)
  | .error f => if f.isNotFound then .ok none else .error f
  | .ok body => (readDocument body).bind fileText

theorem run_fetchFile (repository path : String) (commit : Value) :
    (fetchFile repository path commit).run =
      .ask ⟨repository, .fetchFile path commit⟩ fun outcome =>
      .done (fileOutcome outcome) := by
  refine congrArg (Program.ask _) (funext fun outcome => ?_)
  cases outcome with
  | ok body => rfl
  | error f =>
    show ExceptT.run (if f.isNotFound = true then pure none else throw f :
        Task Failure (Option String)) =
      .done (if f.isNotFound = true then .ok none else .error f)
    split <;> rfl

namespace Task

variable {P : Call → Prop}

theorem asks_document {call : Call} (h : P call) : Task.Asks P call.document := by
  unfold Task.Asks
  rw [run_document]
  exact ⟨h, fun _ => trivial⟩

theorem asks_fetchDiff {repository : String} {number : Value}
    (h : P ⟨repository, .fetchDiff number⟩) : Task.Asks P (fetchDiff repository number) := by
  unfold Task.Asks
  rw [run_fetchDiff]
  exact ⟨h, fun _ => trivial⟩

theorem asks_fetchFile {repository path : String} {commit : Value}
    (h : P ⟨repository, .fetchFile path commit⟩) :
    Task.Asks P (fetchFile repository path commit) := by
  unfold Task.Asks
  rw [run_fetchFile]
  exact ⟨h, fun _ => trivial⟩

theorem asks_commentsFrom {repository : String} {number : Value}
    (h : ∀ page, P ⟨repository, .listComments number page⟩) (pages page : Nat) :
    Task.Asks P (commentsFrom repository number pages page) := by
  induction pages generalizing page with
  | zero => trivial
  | succ pages ih =>
    unfold Task.Asks
    rw [run_commentsFrom_succ]
    refine ⟨h page, fun outcome => ?_⟩
    dsimp only
    split
    · trivial
    · exact Program.Asks.bind (ih (page + 1)) fun _ => trivial
    · trivial

end Task

end ActionItems.GitHub
