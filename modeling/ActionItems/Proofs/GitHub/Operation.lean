import ActionItems.Proofs.GitHub.Trace

/-!
# Operations of a client

What a client can be asked for is an `Operation`: one call, or a listing of comments with one call
for each page. Every operation begins with a call (`Operation.exists_ask`), and a call that comes to
nothing ends it (`Program.EndsOnFailure`). It then comes to the failure of the call itself, but that
a file which is not there is no failure (`Operation.onFailure`).
-/

namespace ActionItems.GitHub

variable {α β : Type}

/-! ### Programs that a failure ends -/

namespace Program

variable {onFailure : Failure → α} {onFailure' : Failure → β}

/-- A call that comes to nothing ends the program, with what `onFailure` makes of the failure. -/
def EndsOnFailure (onFailure : Failure → α) : Program α → Prop
  | .done _ => True
  | .ask _ next =>
    (∀ f, next (.error f) = .done (onFailure f)) ∧ ∀ body, (next (.ok body)).EndsOnFailure onFailure

theorem EndsOnFailure.of_ask {call : Call} {next : Except Failure (List UInt8) → Program α}
    (hp : (ask call next).EndsOnFailure onFailure) (outcome : Except Failure (List UInt8)) :
    (next outcome).EndsOnFailure onFailure := by
  cases outcome with
  | error f => rw [hp.1 f]; trivial
  | ok body => exact hp.2 body

theorem EndsOnFailure.bind {p : Program α} {f : α → Program β} (hp : p.EndsOnFailure onFailure)
    (hf : ∀ a, (f a).EndsOnFailure onFailure')
    (hfailure : ∀ e, f (onFailure e) = .done (onFailure' e)) :
    (p.bind f).EndsOnFailure onFailure' := by
  induction p with
  | done a => exact hf a
  | ask call next ih =>
    refine ⟨fun e => ?_, fun body => ih (.ok body) (hp.2 body)⟩
    show (next (.error e)).bind f = _
    rw [hp.1 e]
    exact hfailure e

/-- **A call that fails is the last one**, and its failure decides the result. -/
theorem EndsOnFailure.of_trace {p : Program α} {xs : List Exchange} {a : α}
    (hp : p.EndsOnFailure onFailure) (h : p.Trace xs a) {x : Exchange} (hx : x ∈ xs) {f : Failure}
    (hf : x.outcome = .error f) : a = onFailure f ∧ ∃ before, xs = before ++ [x] := by
  -- What is left of the program after the failure is done, so that nothing can follow the exchange.
  induction h with
  | done a => cases hx
  | unmade e he h ih =>
    rw [hp.1 e] at h
    obtain ⟨rfl, -⟩ := h.of_done
    cases hx
  | made token reply time h ih =>
    cases ho : reply.outcome time with
    | error e =>
      rw [ho, hp.1 e] at h
      obtain ⟨rfl, rfl⟩ := h.of_done
      obtain rfl := List.mem_singleton.1 hx
      cases ho.symm.trans hf
      exact ⟨rfl, [], rfl⟩
    | ok body =>
      rw [ho] at ih
      obtain rfl | hx := List.mem_cons.1 hx
      · cases ho.symm.trans hf
      · obtain ⟨rfl, before, rfl⟩ := ih (hp.2 body) hx
        exact ⟨rfl, _ :: before, rfl⟩

end Program

namespace Task

/-- A call that comes to nothing ends the task with its failure. -/
abbrev PassesFailure (t : Task Failure α) : Prop := Program.EndsOnFailure .error t.run

theorem PassesFailure.bind {t : Task Failure α} {f : α → Task Failure β} (ht : t.PassesFailure)
    (hf : ∀ a, (f a).PassesFailure) : (t >>= f).PassesFailure := by
  refine Program.EndsOnFailure.bind ht (fun r => ?_) fun e => rfl
  cases r with
  | error e => trivial
  | ok a => exact hf a

theorem PassesFailure.map {t : Task Failure α} (f : α → β) (ht : t.PassesFailure) :
    (f <$> t).PassesFailure := by
  refine Program.EndsOnFailure.bind ht (fun r => ?_) fun e => rfl
  cases r <;> trivial

theorem passesFailure_settle (result : Except Failure α) : (settle result).PassesFailure := trivial

theorem passesFailure_document (call : Call) : Task.PassesFailure call.document := by
  unfold Task.PassesFailure
  rw [run_document]
  exact ⟨fun f => rfl, fun body => trivial⟩

theorem passesFailure_fetchDiff (repository : String) (number : Value) :
    Task.PassesFailure (fetchDiff repository number) := by
  unfold Task.PassesFailure
  rw [run_fetchDiff]
  exact ⟨fun f => rfl, fun body => trivial⟩

theorem passesFailure_commentsFrom (repository : String) (number : Value) (pages page : Nat) :
    Task.PassesFailure (commentsFrom repository number pages page) := by
  induction pages generalizing page with
  | zero => trivial
  | succ pages ih =>
    unfold Task.PassesFailure
    rw [run_commentsFrom_succ]
    refine ⟨fun f => rfl, fun body => ?_⟩
    dsimp only [Except.bind]
    split
    · trivial
    · exact Program.EndsOnFailure.bind (ih (page + 1)) (fun _ => trivial) fun e => rfl
    · trivial

theorem passesFailure_findComment (pages : Nat) (repository : String) (number app : Value) :
    Task.PassesFailure (findComment pages repository number app) :=
  (passesFailure_commentsFrom repository number pages 1).bind fun _ => passesFailure_settle _

end Task

/-! ### Operations -/

/-- What a client can be asked for in a repository. -/
inductive Operation where
  | fetchDiff (number : Value)
  | fetchFile (path : String) (commit : Value)
  | listComments (number : Value)
  | findComment (number app : Value)
  | createComment (number body : Value)
  | updateComment (id body : Value)
  | createCheckRun (name commit status : Value)
  | updateCheckRun (id : Value) (fields : List (String × Value))
deriving Repr

namespace Operation

/-- An operation in a repository as a task; what is not there is null. -/
def task (pages : Nat) (repository : String) : Operation → Task Failure Value
  | fetchDiff number => .text <$> GitHub.fetchDiff repository number
  | fetchFile path commit => (·.elim .null .text) <$> GitHub.fetchFile repository path commit
  | listComments number => .list <$> GitHub.listComments pages repository number
  | findComment number app => (·.getD .null) <$> GitHub.findComment pages repository number app
  | createComment number body => GitHub.createComment repository number body
  | updateComment id body => GitHub.updateComment repository id body
  | createCheckRun name commit status => GitHub.createCheckRun repository name commit status
  | updateCheckRun id fields => GitHub.updateCheckRun repository id fields

/-- What an operation comes to if a call of it fails. -/
def onFailure : Operation → Failure → Except Failure Value
  | fetchFile .., f => if f.isNotFound then .ok .null else .error f
  | _, f => .error f

/-- **A failure ends an operation.** -/
theorem endsOnFailure (operation : Operation) (pages : Nat) (repository : String) :
    (operation.task pages repository).run.EndsOnFailure operation.onFailure := by
  cases operation with
  | fetchDiff number => exact (Task.passesFailure_fetchDiff repository number).map _
  | fetchFile path commit =>
    show (Program.bind (GitHub.fetchFile repository path commit).run _).EndsOnFailure _
    rw [run_fetchFile]
    refine ⟨fun f => ?_, fun body => ?_⟩
    · cases hf : f.isNotFound <;> simp only [Program.bind, fileOutcome, onFailure, hf] <;> rfl
    · simp only [Program.bind]
      split <;> trivial
  | listComments number => exact (Task.passesFailure_commentsFrom repository number pages 1).map _
  | findComment number app =>
    exact (Task.passesFailure_findComment pages repository number app).map _
  | createComment number body => exact Task.passesFailure_document _
  | updateComment id body => exact Task.passesFailure_document _
  | createCheckRun name commit status => exact Task.passesFailure_document _
  | updateCheckRun id fields => exact Task.passesFailure_document _

theorem exists_ask {pages : Nat} (h : 0 < pages) (operation : Operation) (repository : String) :
    ∃ call next, (operation.task pages repository).run = .ask call next := by
  obtain ⟨pages, rfl⟩ := Nat.exists_eq_add_one.2 h
  cases operation with
  | listComments number => exact ⟨⟨repository, .listComments number 1⟩, _, rfl⟩
  | findComment number app => exact ⟨⟨repository, .listComments number 1⟩, _, rfl⟩
  | _ => exact ⟨_, _, rfl⟩

end Operation

end ActionItems.GitHub
