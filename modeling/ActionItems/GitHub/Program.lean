import ActionItems.GitHub.Session

/-!
# Programs that make calls

A `Program` is either finished or makes a call and goes on with what comes of it. So it fixes which
calls are made and in which order, but neither who replies nor how the calls of two programs follow
one another. `Program.run` runs a program in a session against a `Service`, a rule that replies to
calls in a state of its own, while time goes on along a `Clock`, and keeps the exchanges in order;
`Service.script` replies from a list.

A run of one program after another is their runs one after the other (`Program.run_bind`); of tasks,
the second one is run only if the first one does not fail (`Task.run_bind`).
-/

namespace ActionItems.GitHub

/-- A program: its result, or a call and what is done with the body of the reply or the failure. -/
inductive Program (α : Type) where
  | done (result : α)
  | ask (call : Call) (next : Except Failure (List UInt8) → Program α)

namespace Program

variable {α β : Type}

/-- A program and then another one that depends on its result. -/
def bind : Program α → (α → Program β) → Program β
  | done a, f => f a
  | ask call next, f => ask call fun outcome => (next outcome).bind f

instance : Monad Program where
  pure := done
  bind := bind

theorem bind_done (p : Program α) : p.bind done = p := by
  induction p with
  | done a => rfl
  | ask call next ih => simp only [bind, ih]

theorem bind_assoc {γ : Type} (p : Program α) (f : α → Program β) (g : β → Program γ) :
    (p.bind f).bind g = p.bind fun a => (f a).bind g := by
  induction p with
  | done a => rfl
  | ask call next ih => simp only [bind, ih]

end Program

/-- A program that may fail for a reason of its own. -/
abbrev Task (ε α : Type) := ExceptT ε Program α

/-- The call as a task that yields the body of the reply. -/
def Call.make (call : Call) : Task Failure (List UInt8) := Program.ask call Program.done

/-- A result as a task without calls. -/
def settle {ε α : Type} (result : Except ε α) : Task ε α := ExceptT.mk (Program.done result)

/-- A task whose failures are told in other words. -/
def Task.mapError {ε ε' α : Type} (f : ε → ε') (t : Task ε α) : Task ε' α := t.adapt f

/-! ### Services and runs -/

/-- A rule that replies to calls, with a state of its own. -/
abbrev Service (σ : Type) := σ → Call → Reply × σ

/-- What is said for a call that no reply is left for. -/
def noReply : Reply := .lost "no response scripted"

/-- The service that replies from a list, in order. -/
def Service.script : Service (List Reply)
  | [], _ => (noReply, [])
  | reply :: rest, _ => (reply, rest)

/-- A call that was made, with its token, the reply and the time. -/
structure Exchange where
  call : Call
  token : String
  reply : Reply
  time : Instant
deriving Repr

/-- The times at which calls are made or refused, from one call to the next. -/
abbrev Clock := Nat → Instant

/-- The clock after one call. -/
def Clock.later (clock : Clock) : Clock := fun n => clock (n + 1)

/-- What a run leaves: the result, the session, the state of the service and the clock after it, and
the exchanges in order. -/
structure Run (σ α : Type) where
  result : α
  session : Session
  service : σ
  clock : Clock
  exchanges : List Exchange

namespace Run

variable {σ α : Type}

/-- The run with exchanges before it. -/
def prepend (before : List Exchange) (r : Run σ α) : Run σ α :=
  { r with exchanges := before ++ r.exchanges }

@[simp] theorem prepend_nil (r : Run σ α) : r.prepend [] = r := rfl

end Run

namespace Program

variable {σ α β : Type}

/-- Runs a program while time goes on, in a session and against a service in some state. -/
def run (clock : Clock) (service : Service σ) : Program α → Session → σ → Run σ α
  | done a, session, state => ⟨a, session, state, clock, []⟩
  | ask call next, session, state =>
    let now := clock 0
    match session.accept now with
    | .error f => (next (.error f)).run clock.later service session state
    | .ok (token, accepted) =>
      let (reply, state) := service state call
      let (session, outcome) := accepted.settle now reply
      ((next outcome).run clock.later service session state).prepend [⟨call, token, reply, now⟩]

@[simp] theorem run_done (clock : Clock) (service : Service σ) (a : α) (session : Session)
    (state : σ) : (done a).run clock service session state = ⟨a, session, state, clock, []⟩ := rfl

theorem run_ask_of_error {clock : Clock} {session : Session} {f : Failure}
    (h : session.accept (clock 0) = .error f) (service : Service σ) (call : Call)
    (next : Except Failure (List UInt8) → Program α) (state : σ) :
    (ask call next).run clock service session state =
      (next (.error f)).run clock.later service session state := by
  simp only [run, h]

/-- **A run of two programs** is the run of the second from where the first one ends. -/
theorem run_bind (clock : Clock) (service : Service σ) (p : Program α) (f : α → Program β)
    (session : Session) (state : σ) :
    (p.bind f).run clock service session state =
      let first := p.run clock service session state
      ((f first.result).run first.clock service first.session first.service).prepend
        first.exchanges := by
  induction p generalizing clock session state with
  | done a => simp [bind, run, Run.prepend]
  | ask call next ih =>
    simp only [bind, run]
    split
    · exact ih _ _ _ _
    · simp [ih, Run.prepend]

end Program

/-! ### Runs of tasks -/

namespace Task

variable {σ ε α β : Type}

/-- A run of a task and of another one after it, which is not begun if the first one fails. -/
theorem run_bind (clock : Clock) (service : Service σ) (t : Task ε α) (f : α → Task ε β)
    (session : Session) (state : σ) :
    Program.run clock service (t >>= f).run session state =
      let first := Program.run clock service t.run session state
      match first.result with
      | .ok a =>
        (Program.run first.clock service (f a).run first.session first.service).prepend
          first.exchanges
      | .error e => { first with result := .error e } := by
  have h : (t >>= f).run = Program.bind t.run fun
      | .ok a => (f a).run
      | .error e => .done (.error e) := by
    refine congrArg (Program.bind t.run) (funext fun r => ?_)
    cases r <;> rfl
  rw [h, Program.run_bind]
  dsimp only
  split <;> simp [Run.prepend]

@[simp] theorem run_settle (clock : Clock) (service : Service σ) (result : Except ε α)
    (session : Session) (state : σ) :
    Program.run clock service (settle result).run session state =
      ⟨result, session, state, clock, []⟩ := rfl

end Task

end ActionItems.GitHub
