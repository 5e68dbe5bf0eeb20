/-!
# Computations with a state that may fail

`Meets m s post fault` says what a computation `m` does from a state `s`: if it succeeds, its result
and the state after it satisfy `post`, and if it fails, its error satisfies `fault`. Of a sequence
of computations it is told by the parts (`meets_bind`), so `simp` goes through a program step by
step.
-/

namespace ActionItems

/-- From the state `s`, `m` succeeds with what satisfies `post`, or fails with what satisfies
`fault`. -/
def Meets {σ ε α : Type} (m : StateT σ (Except ε) α) (s : σ) (post : α → σ → Prop)
    (fault : ε → Prop) : Prop :=
  match m.run s with
  | .ok (a, s') => post a s'
  | .error e => fault e

namespace Meets

variable {σ ε α β : Type} {s : σ} {post post' : α → σ → Prop} {fault fault' : ε → Prop}

@[simp] theorem pure_iff {a : α} : Meets (pure a) s post fault ↔ post a s := .rfl

@[simp] theorem throw_iff {e : ε} : Meets (throw e) s post fault ↔ fault e := .rfl

@[simp] theorem get_iff {post : σ → σ → Prop} : Meets get s post fault ↔ post s s := .rfl

@[simp] theorem modify_iff {f : σ → σ} {post : Unit → σ → Prop} :
    Meets (modify f) s post fault ↔ post () (f s) := .rfl

@[simp] theorem bind_iff {m : StateT σ (Except ε) α} {f : α → StateT σ (Except ε) β}
    {post : β → σ → Prop} :
    Meets (m >>= f) s post fault ↔ Meets m s (fun a s' => Meets (f a) s' post fault) fault := by
  simp only [Meets, StateT.run_bind]
  cases m.run s with
  | error e => exact .rfl
  | ok r => exact .rfl

theorem mono {m : StateT σ (Except ε) α} (h : Meets m s post fault)
    (hpost : ∀ a s', post a s' → post' a s') (hfault : ∀ e, fault e → fault' e) :
    Meets m s post' fault' := by
  unfold Meets at h ⊢
  cases hm : m.run s with
  | error e => exact hfault e (by simpa [hm] using h)
  | ok r => exact hpost r.1 r.2 (by simpa [hm] using h)

theorem filterM_iff {l : List α} {m : α → StateT σ (Except ε) Bool} {post : List α → σ → Prop}
    (p : α → Bool) (h : ∀ a post fault, Meets (m a) s post fault ↔ post (p a) s) :
    Meets (l.filterM m) s post fault ↔ post (l.filter p) s := by
  have aux (l acc : List α) (post : List α → σ → Prop) :
      Meets (l.filterAuxM m acc) s post fault ↔ post ((l.filter p).reverse ++ acc) s := by
    induction l generalizing acc with
    | nil => exact .rfl
    | cons a l ih =>
      rw [List.filterAuxM, bind_iff, h, ih]
      cases hp : p a <;> simp [hp]
  rw [List.filterM, bind_iff, aux]
  simp

end Meets

end ActionItems
