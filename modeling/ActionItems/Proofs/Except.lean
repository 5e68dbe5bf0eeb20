import Mathlib.Data.List.Forall2

/-!
# Computations that may fail

A computation that succeeds did so at each of its steps: `of_bind_ok`, `of_mapError_ok` and, for all
items of a list, `forall₂_of_mapM`. The other way around, a list is mapped if each of its items is
(`mapM_of_forall₂`, `exists_mapM`). What its errors are is told by `FailsWith`. Of computations that
may give nothing, `Option.mapM_eq_some_iff` says the same for all items of a list.
-/

namespace Except

variable {α β ε ε' : Type}

theorem of_bind_ok {x : Except ε α} {f : α → Except ε β} {b : β} (h : x >>= f = .ok b) :
    ∃ a, x = .ok a ∧ f a = .ok b := by
  cases x with
  | error e => cases h
  | ok a => exact ⟨a, rfl, h⟩

theorem of_mapError_ok {x : Except ε α} {f : ε → ε'} {a : α} (h : x.mapError f = .ok a) :
    x = .ok a := by
  cases x with
  | error e => cases h
  | ok b => exact congrArg Except.ok (Except.ok.inj h)

theorem eq_ok_of_toOption {x : Except ε α} {a : α} (h : x.toOption = some a) : x = .ok a := by
  cases x with
  | error e => cases h
  | ok b => exact congrArg Except.ok (Option.some.inj h)

theorem forall₂_of_mapM {f : α → Except ε β} {l : List α} {l' : List β} (h : l.mapM f = .ok l') :
    List.Forall₂ (fun a b => f a = .ok b) l l' := by
  induction l generalizing l' with
  | nil =>
    cases h
    exact .nil
  | cons a l ih =>
    rw [List.mapM_cons] at h
    obtain ⟨b, hb, hrest⟩ := of_bind_ok h
    obtain ⟨more, hmore, hlast⟩ := of_bind_ok hrest
    cases hlast
    exact .cons hb (ih hmore)

theorem mapM_of_forall₂ {f : α → Except ε β} {l : List α} {l' : List β}
    (h : List.Forall₂ (fun a b => f a = .ok b) l l') : l.mapM f = .ok l' := by
  induction h with
  | nil => rfl
  | cons hb _ ih =>
    rw [List.mapM_cons, hb, ih]
    rfl

theorem exists_mapM {f : α → Except ε β} {l : List α} (h : ∀ a ∈ l, ∃ b, f a = .ok b) :
    ∃ l', l.mapM f = .ok l' := by
  induction l with
  | nil => exact ⟨[], rfl⟩
  | cons a l ih =>
    obtain ⟨⟨b, hb⟩, hrest⟩ := List.forall_mem_cons.1 h
    obtain ⟨more, hmore⟩ := ih hrest
    exact ⟨b :: more, mapM_of_forall₂ (.cons hb (forall₂_of_mapM hmore))⟩

theorem mapM_append_ok {f : α → Except ε β} {l m : List α} {l' m' : List β} (h : l.mapM f = .ok l')
    (h' : m.mapM f = .ok m') : (l ++ m).mapM f = .ok (l' ++ m') :=
  mapM_of_forall₂ (List.rel_append (forall₂_of_mapM h) (forall₂_of_mapM h'))

/-! ### Errors -/

/-- If the computation fails, its error satisfies `P`. -/
def FailsWith (P : ε → Prop) (x : Except ε α) : Prop := ∀ e, x = .error e → P e

variable {P : ε → Prop}

@[simp] theorem failsWith_ok {a : α} : FailsWith P (.ok a : Except ε α) := by
  rintro e ⟨⟩

@[simp] theorem failsWith_pure {a : α} : FailsWith P (pure a : Except ε α) := failsWith_ok

@[simp] theorem failsWith_error {e : ε} : FailsWith P (.error e : Except ε α) ↔ P e :=
  ⟨fun h => h e rfl, by rintro h _ ⟨⟩; exact h⟩

@[simp] theorem failsWith_throw {e : ε} : FailsWith P (throw e : Except ε α) ↔ P e :=
  failsWith_error

@[simp] theorem failsWith_bind_iff {x : Except ε α} {f : α → Except ε β} :
    FailsWith P (x >>= f) ↔ FailsWith P x ∧ ∀ a, x = .ok a → FailsWith P (f a) := by
  cases x with
  | error e =>
    constructor
    · intro h
      exact ⟨failsWith_error.2 (h e rfl), by rintro _ ⟨⟩⟩
    · rintro ⟨h, -⟩ _ ⟨⟩
      exact h e rfl
  | ok a => exact ⟨fun h => ⟨failsWith_ok, by rintro _ ⟨⟩; exact h⟩, fun h => h.2 a rfl⟩

@[simp] theorem failsWith_map_iff {x : Except ε α} {f : α → β} :
    FailsWith P (f <$> x) ↔ FailsWith P x := by
  rw [map_eq_pure_bind, failsWith_bind_iff]
  exact and_iff_left fun _ _ => failsWith_pure

@[simp] theorem failsWith_ite_iff {c : Prop} [Decidable c] {x y : Except ε α} :
    FailsWith P (if c then x else y) ↔ (c → FailsWith P x) ∧ (¬ c → FailsWith P y) := by
  split <;> simp_all

end Except

namespace Option

variable {α β : Type}

theorem mapM_eq_some_iff {f : α → Option β} {l : List α} {l' : List β} :
    l.mapM f = some l' ↔ List.Forall₂ (fun a b => f a = some b) l l' := by
  induction l generalizing l' with
  | nil =>
    rw [List.mapM_nil, List.forall₂_nil_left_iff]
    exact ⟨fun h => (Option.some.inj h).symm, fun h => h ▸ rfl⟩
  | cons a l ih =>
    simp only [List.mapM_cons, Option.bind_eq_bind, Option.bind_eq_some_iff, ih, Option.pure_def,
      Option.some.injEq, List.forall₂_cons_left_iff]
    constructor
    · rintro ⟨b, hb, more, hmore, rfl⟩
      exact ⟨b, more, hb, hmore, rfl⟩
    · rintro ⟨b, more, hb, hmore, rfl⟩
      exact ⟨b, hb, more, hmore, rfl⟩

end Option
