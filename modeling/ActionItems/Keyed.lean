/-!
# Ordered tables

A table from texts to values whose entries keep the order in which their keys first came. `put`
gives a key that is present its new value in place and appends any other; `find?` looks a key up.
-/

namespace ActionItems

/-- A table from texts to values, in order. -/
abbrev Keyed (α : Type) := List (String × α)

namespace Keyed

variable {α β : Type}

/-- The table with `key` set to `value`. -/
def put (key : String) (value : α) : Keyed α → Keyed α
  | [] => [(key, value)]
  | (k, v) :: rest => if k = key then (k, value) :: rest else (k, v) :: put key value rest

/-- The value under a key. -/
def find? (key : String) : Keyed α → Option α
  | [] => none
  | (k, v) :: rest => if k = key then some v else find? key rest

/-- The keys in order. -/
def keys (table : Keyed α) : List String := table.map Prod.fst

/-- The table of the values under `f`. -/
def mapValues (f : α → β) (table : Keyed α) : Keyed β := table.map fun (k, v) => (k, f v)

/-- The entries of `more` put into `table` one after the other. -/
def update (table more : Keyed α) : Keyed α := more.foldl (fun t (k, v) => put k v t) table

@[simp] theorem find?_nil (key : String) : find? key ([] : Keyed α) = none := rfl

theorem find?_put_self (key : String) (value : α) (table : Keyed α) :
    find? key (put key value table) = some value := by
  induction table with
  | nil => simp [put, find?]
  | cons e rest ih =>
    simp only [put]
    split <;> simp_all [find?]

theorem find?_put_of_ne {key other : String} (h : other ≠ key) (value : α) (table : Keyed α) :
    find? key (put other value table) = find? key table := by
  induction table with
  | nil => simp [put, find?, h]
  | cons e rest ih =>
    simp only [put]
    split
    · next he => subst he; simp [find?, h]
    · simp only [find?, ih]

theorem find?_isSome_iff {key : String} {table : Keyed α} :
    (find? key table).isSome = true ↔ key ∈ table.keys := by
  induction table with
  | nil => simp [find?, keys]
  | cons e rest ih =>
    simp only [find?, keys, List.map_cons, List.mem_cons]
    split
    · next h => simp [h]
    · next h =>
      have : key ≠ e.1 := Ne.symm h
      simp only [this, false_or]
      exact ih

/-- Putting a key that is present keeps the keys, any other comes last. -/
theorem keys_put (key : String) (value : α) (table : Keyed α) :
    (put key value table).keys = if key ∈ table.keys then table.keys else table.keys ++ [key] := by
  induction table with
  | nil => simp [put, keys]
  | cons e rest ih =>
    simp only [put]
    split
    · next h => simp [keys, h]
    · next h =>
      simp only [keys, List.map_cons, List.mem_cons] at ih ⊢
      rw [ih]
      have : key ≠ e.1 := Ne.symm h
      by_cases hk : key ∈ List.map Prod.fst rest <;> simp [hk, this]

end Keyed

end ActionItems
