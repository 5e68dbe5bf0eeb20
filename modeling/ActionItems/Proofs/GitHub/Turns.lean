import ActionItems.Proofs.GitHub.Trace
import Mathlib.Algebra.BigOperators.Group.Finset.Piecewise
import Mathlib.Algebra.Order.BigOperators.Group.Finset

/-!
# Programs that take turns

Several programs call one service at the same time. Single calls follow one another, so a course of
events is a list of `Turn`s: at each of them one of the programs makes its next call and goes on
with the reply. The session and the time of the call are told with the turn, as the programs may
share a session or have their own.

Each program knows only of its own calls. Its exchanges among those of all (`madeBy`) are at any
point those of one of its traces (`Turns.trace_run`), as the calls that it has yet to make might all
be refused.
-/

namespace ActionItems.GitHub

variable {ι σ α : Type} [DecidableEq ι] {service : Service σ}

/-- Which of the programs goes on, the session in which it makes its call, and the time. -/
structure Turn (ι : Type) where
  who : ι
  session : Session
  time : Instant
deriving Repr, DecidableEq

/-- Programs on their way: what is still to be done in each of them, the state of the service, and
the exchanges in order, with the programs that made them. -/
structure Turns (ι σ α : Type) where
  programs : ι → Program α
  service : σ
  exchanges : List (ι × Exchange) := []

/-- The exchanges of one of the programs. -/
def madeBy (who : ι) (xs : List (ι × Exchange)) : List Exchange :=
  xs.filterMap fun x => if x.1 = who then some x.2 else none

namespace Turns

/-- A program makes its next call. One that its session refuses is not made, and one that is
finished makes none. -/
def step (service : Service σ) (r : Turns ι σ α) (turn : Turn ι) : Turns ι σ α :=
  match r.programs turn.who with
  | .done _ => r
  | .ask call next =>
    match turn.session.accept turn.time with
    | .error f => { r with programs := Function.update r.programs turn.who (next (.error f)) }
    | .ok (token, accepted) =>
      let (reply, state) := service r.service call
      { programs := Function.update r.programs turn.who (next (accepted.settle turn.time reply).2)
        service := state
        exchanges := r.exchanges ++ [(turn.who, ⟨call, token, reply, turn.time⟩)] }

/-- Some turns one after the other. -/
def run (service : Service σ) (r : Turns ι σ α) (turns : List (Turn ι)) : Turns ι σ α :=
  turns.foldl (step service) r

end Turns

/-! ### The exchanges of one program -/

section

variable {i j : ι} {x : Exchange} {xs ys : List (ι × Exchange)}

theorem madeBy_append (i : ι) (xs ys : List (ι × Exchange)) :
    madeBy i (xs ++ ys) = madeBy i xs ++ madeBy i ys :=
  List.filterMap_append

theorem madeBy_cons_self : madeBy i ((i, x) :: xs) = x :: madeBy i xs :=
  List.filterMap_cons_some (if_pos rfl)

theorem madeBy_cons_of_ne (h : j ≠ i) : madeBy i ((j, x) :: xs) = madeBy i xs :=
  List.filterMap_cons_none (if_neg h)

/-- What a program does first and then was done at two times. -/
theorem madeBy_eq_append_iff {us vs : List Exchange} :
    madeBy i xs = us ++ vs ↔ ∃ ys zs, xs = ys ++ zs ∧ madeBy i ys = us ∧ madeBy i zs = vs :=
  List.filterMap_eq_append_iff

theorem exists_of_madeBy_eq_cons {us : List Exchange} (h : madeBy i xs = x :: us) :
    ∃ ys zs, xs = ys ++ (i, x) :: zs ∧ madeBy i zs = us := by
  obtain ⟨ys, ⟨who, y⟩, zs, rfl, -, own, hzs⟩ := List.filterMap_eq_cons_iff.1 h
  obtain ⟨hwho, hy⟩ := Option.ite_none_right_eq_some.1 own
  cases hwho
  cases hy
  exact ⟨ys, zs, rfl, hzs⟩

theorem sum_countP_madeBy [Fintype ι] (P : Exchange → Bool) (xs : List (ι × Exchange)) :
    ∑ i, (madeBy i xs).countP P = (xs.map Prod.snd).countP P := by
  induction xs with
  | nil => simp [madeBy]
  | cons e xs ih =>
    obtain ⟨who, x⟩ := e
    have own (i : ι) : (madeBy i ((who, x) :: xs)).countP P =
        (madeBy i xs).countP P + if who = i then (if P x then 1 else 0) else 0 := by
      by_cases h : who = i
      · subst h
        rw [madeBy_cons_self, List.countP_cons, if_pos rfl]
      · rw [madeBy_cons_of_ne h, if_neg h, Nat.add_zero]
    rw [Finset.sum_congr rfl fun i _ => own i, Finset.sum_add_distrib, ih, Finset.sum_ite_eq,
      if_pos (Finset.mem_univ _), List.map_cons, List.countP_cons]

/-- What each program does once at most is done as often as there are programs at most. -/
theorem countP_le_card [Fintype ι] {P : Exchange → Bool} (h : ∀ i, (madeBy i xs).countP P ≤ 1) :
    (xs.map Prod.snd).countP P ≤ Fintype.card ι := by
  calc (xs.map Prod.snd).countP P
    _ = ∑ i, (madeBy i xs).countP P := (sum_countP_madeBy P xs).symm
    _ ≤ Finset.univ.card • 1 := Finset.sum_le_card_nsmul _ _ 1 fun i _ => h i
    _ = Fintype.card ι := Nat.mul_one _

end

/-! ### Traces -/

/-- A program has a trace without exchanges, as none of its calls may be made. -/
theorem Program.exists_trace_nil (p : Program α) : ∃ a, p.Trace [] a := by
  induction p with
  | done a => exact ⟨a, .done a⟩
  | ask call next ih =>
    obtain ⟨a, h⟩ := ih (.error .noToken)
    exact ⟨a, .unmade _ rfl h⟩

namespace Turns

variable {start : ι → Program α} {r : Turns ι σ α}

/-- What is still to be done in each program goes on with what it has done to a trace from its
start. -/
def ComesFrom (start : ι → Program α) (r : Turns ι σ α) : Prop :=
  ∀ i xs a, (r.programs i).Trace xs a → (start i).Trace (madeBy i r.exchanges ++ xs) a

theorem comesFrom_step (h : ComesFrom start r) (turn : Turn ι) :
    ComesFrom start (r.step service turn) := by
  unfold step
  cases hp : r.programs turn.who with
  | done a => exact h
  | ask call next =>
    dsimp only
    cases ha : turn.session.accept turn.time with
    | error f =>
      intro i xs a trace
      dsimp only at trace
      by_cases hi : i = turn.who
      · subst hi
        rw [Function.update_self] at trace
        refine h _ xs a ?_
        rw [hp]
        exact .unmade f (Program.isUnmade_of_accept ha) trace
      · rw [Function.update_of_ne hi] at trace
        exact h i xs a trace
    | ok result =>
      obtain ⟨token, accepted⟩ := result
      intro i xs a trace
      dsimp only at trace ⊢
      rw [madeBy_append, List.append_assoc]
      by_cases hi : i = turn.who
      · subst hi
        rw [Function.update_self, Session.settle_snd] at trace
        rw [madeBy_cons_self]
        refine h _ _ a ?_
        rw [hp]
        exact .made token _ turn.time trace
      · rw [Function.update_of_ne hi] at trace
        rw [madeBy_cons_of_ne (Ne.symm hi)]
        exact h i xs a trace

/-- **At any point the exchanges of a program are those of one of its traces**, however the turns
are taken. -/
theorem trace_run (service : Service σ) (start : ι → Program α) (state : σ)
    (turns : List (Turn ι)) (i : ι) :
    ∃ a, (start i).Trace (madeBy i (run service ⟨start, state, []⟩ turns).exchanges) a := by
  have comes : ComesFrom start (run service ⟨start, state, []⟩ turns) := by
    refine List.foldlRecOn (motive := fun r => ComesFrom start r) turns _ (fun _ _ _ h => h) ?_
    exact fun _ h turn _ => comesFrom_step h turn
  obtain ⟨a, rest⟩ := ((run service ⟨start, state, []⟩ turns).programs i).exists_trace_nil
  refine ⟨a, ?_⟩
  have whole := comes i [] a rest
  rwa [List.append_nil] at whole

theorem exists_reply_of_mem (start : ι → Program α) (state : σ) (turns : List (Turn ι)) :
    ∀ x ∈ (run service ⟨start, state, []⟩ turns).exchanges, ∃ s, x.2.reply =
      (service s x.2.call).1 := by
  refine List.foldlRecOn (motive := fun r : Turns ι σ α =>
    ∀ x ∈ r.exchanges, ∃ s, x.2.reply = (service s x.2.call).1) turns _ (by simp)
    fun r h turn _ => ?_
  unfold step
  split
  · exact h
  · split
    · exact h
    · rw [List.forall_mem_append, List.forall_mem_singleton]
      exact ⟨h, r.service, rfl⟩

end Turns

end ActionItems.GitHub
