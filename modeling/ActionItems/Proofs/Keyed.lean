import ActionItems.Keyed

/-!
# Putting entries into ordered tables

Putting twice under a key leaves the later value in the place of the first (`put_put`). Putting the
entries of a table into an empty one gives that table, if no key comes twice (`update_nil`); they
are found under their keys and leave the others (`find?_append_cons`, `find?_update_of_not_mem`).

A table without repeated keys that is put into another gives its keys their values and appends the
new ones (`find?_update`, `keys_update`). Its entries may be put into it before that or after
(`update_put`).

Entries may be put into a table before or after those of some keys are taken out (`put_filter`); the
others are found as before (`find?_filter`). Nor does it matter whether the values are put under a
function before that or after (`put_mapValues`).
-/

namespace ActionItems.Keyed

variable {α β : Type}

theorem put_put (key : String) (value later : α) (table : Keyed α) :
    put key later (put key value table) = put key later table := by
  induction table with
  | nil => simp [put]
  | cons e rest ih =>
    simp only [put]
    split
    · next h => simp [put, h]
    · next h => simp [put, h, ih]

theorem put_of_not_mem {key : String} {table : Keyed α} (h : key ∉ table.keys) (value : α) :
    put key value table = table ++ [(key, value)] := by
  induction table with
  | nil => simp [put]
  | cons e rest ih =>
    simp only [keys, List.map_cons, List.mem_cons, not_or] at h
    rw [put, if_neg (Ne.symm h.1), ih h.2]
    rfl

theorem mem_of_mem_put {key : String} {value : α} {table : Keyed α} {e : String × α}
    (h : e ∈ put key value table) : e = (key, value) ∨ e ∈ table := by
  induction table with
  | nil => exact .inl (List.mem_singleton.1 h)
  | cons first rest ih =>
    rw [put] at h
    split at h
    · next hkey =>
      rw [hkey] at h
      exact (List.mem_cons.1 h).imp_right (List.mem_cons_of_mem _)
    · rcases List.mem_cons.1 h with rfl | h
      · exact .inr List.mem_cons_self
      · exact (ih h).imp_right (List.mem_cons_of_mem _)

theorem keys_append (table more : Keyed α) : keys (table ++ more) = table.keys ++ more.keys := by
  simp [keys]

theorem update_of_nodup {table more : Keyed α} (h : (table.keys ++ more.keys).Nodup) :
    update table more = table ++ more := by
  induction more generalizing table with
  | nil => simp [update]
  | cons e more ih =>
    have new : e.1 ∉ table.keys := by
      intro hm
      exact (List.nodup_append.1 h).2.2 e.1 hm e.1 (by simp [keys]) rfl
    have step : update table (e :: more) = update (put e.1 e.2 table) more := rfl
    rw [step, put_of_not_mem new, ih ?_, List.append_assoc]
    · rfl
    · rw [keys_append, List.append_assoc]
      exact h

/-- Tables without a common key are put together one behind the other. -/
theorem update_of_disjoint {table more : Keyed α} (h : table.keys.Nodup) (hm : more.keys.Nodup)
    (disjoint : ∀ key ∈ table.keys, key ∉ more.keys) : table.update more = table ++ more :=
  update_of_nodup (List.nodup_append.2 ⟨h, hm, fun key hkey _ hother he => disjoint key hkey
    (he ▸ hother)⟩)

/-- **A table without repeated keys is put together entry by entry.** -/
theorem update_nil {more : Keyed α} (h : more.keys.Nodup) : update [] more = more :=
  update_of_nodup (by simpa [keys] using h)

/-! ### Looking up -/

theorem find?_append_cons {key : String} {table : Keyed α} (h : key ∉ table.keys) (value : α)
    (more : Keyed α) : find? key (table ++ (key, value) :: more) = some value := by
  induction table with
  | nil => exact if_pos rfl
  | cons e table ih =>
    rw [keys, List.map_cons, List.mem_cons, not_or] at h
    rw [List.cons_append, find?, if_neg (Ne.symm h.1)]
    exact ih h.2

theorem find?_update_of_not_mem {key : String} {more : Keyed α} (h : key ∉ more.keys)
    (table : Keyed α) : find? key (table.update more) = find? key table := by
  induction more generalizing table with
  | nil => rfl
  | cons e more ih =>
    rw [keys, List.map_cons, List.mem_cons, not_or] at h
    exact (ih h.2 _).trans (find?_put_of_ne (Ne.symm h.1) _ _)

theorem mem_of_find? {key : String} {value : α} {table : Keyed α}
    (h : find? key table = some value) : (key, value) ∈ table := by
  induction table with
  | nil => cases h
  | cons first rest ih =>
    rw [find?] at h
    split at h
    · next hkey =>
      cases h
      rw [← hkey]
      exact List.mem_cons_self
    · exact List.mem_cons_of_mem _ (ih h)

/-! ### One table put into another -/

/-- Entries under different keys are put in either order, if one of the keys has its place
already. -/
theorem put_comm {key other : String} (h : other ≠ key) {table : Keyed α} (hk : key ∈ table.keys)
    (value later : α) :
    put key value (put other later table) = put other later (put key value table) := by
  induction table with
  | nil => cases hk
  | cons e rest ih =>
    obtain ⟨k, v⟩ := e
    by_cases hkey : k = key
    · have hother : k ≠ other := fun he => h (he.symm.trans hkey)
      simp only [put, if_neg hother, if_pos hkey]
    · have hrest : key ∈ Keyed.keys rest := by
        rw [keys, List.map_cons, List.mem_cons] at hk
        exact hk.resolve_left (Ne.symm hkey)
      by_cases hother : k = other
      · simp only [put, if_pos hother, if_neg hkey]
      · simp only [put, if_neg hother, if_neg hkey, ih hrest]

theorem put_update {key : String} {more : Keyed α} (h : key ∉ more.keys) {table : Keyed α}
    (hk : key ∈ table.keys) (value : α) :
    put key value (update table more) = update (put key value table) more := by
  induction more generalizing table with
  | nil => rfl
  | cons e more ih =>
    rw [keys, List.map_cons, List.mem_cons, not_or] at h
    have there : key ∈ (put e.1 e.2 table).keys := by
      rw [keys_put]
      split
      · exact hk
      · exact List.mem_append_left _ hk
    show put key value (update (put e.1 e.2 table) more) =
        update (put e.1 e.2 (put key value table)) more
    rw [ih h.2 there, put_comm (Ne.symm h.1) hk]

/-- **An entry is put before or after the table that it belongs to is put into another.** -/
theorem update_put {more : Keyed α} (h : more.keys.Nodup) (table : Keyed α) (key : String)
    (value : α) : update table (put key value more) = put key value (update table more) := by
  induction more generalizing table with
  | nil => rfl
  | cons e more ih =>
    obtain ⟨k, v⟩ := e
    rw [keys, List.map_cons, List.nodup_cons] at h
    by_cases hk : k = key
    · subst hk
      have here : k ∈ (put k v table).keys := by
        rw [← find?_isSome_iff, find?_put_self]
        rfl
      rw [put, if_pos rfl]
      show update (put k value table) more = put k value (update (put k v table) more)
      rw [put_update h.1 here, put_put]
    · rw [put, if_neg hk]
      exact ih h.2 (put k v table)

/-- The later value of a key counts. -/
theorem find?_update {more : Keyed α} (h : more.keys.Nodup) (table : Keyed α) (key : String) :
    find? key (table.update more) = (find? key more).or (find? key table) := by
  induction more generalizing table with
  | nil => rfl
  | cons e more ih =>
    obtain ⟨k, v⟩ := e
    rw [keys, List.map_cons, List.nodup_cons] at h
    show find? key (update (put k v table) more) = _
    rw [find?]
    by_cases hk : k = key
    · subst hk
      rw [if_pos rfl, find?_update_of_not_mem h.1, find?_put_self, Option.some_or]
    · rw [if_neg hk, ih h.2, find?_put_of_ne hk]

theorem keys_update {more : Keyed α} (h : more.keys.Nodup) (table : Keyed α) :
    (table.update more).keys = table.keys ++ more.keys.filter (· ∉ table.keys) := by
  induction more generalizing table with
  | nil => exact (List.append_nil _).symm
  | cons e more ih =>
    obtain ⟨k, v⟩ := e
    rw [keys, List.map_cons, List.nodup_cons] at h
    show (update (put k v table) more).keys = table.keys ++ (k :: keys more).filter (· ∉ table.keys)
    rw [ih h.2, keys_put]
    split
    · next there => rw [List.filter_cons_of_neg (by simpa using there)]
    · next new =>
      rw [List.filter_cons_of_pos (by simpa using new), List.append_assoc, List.singleton_append]
      congr 2
      refine List.filter_congr fun other hother => ?_
      have : other ≠ k := fun he => h.1 (he ▸ hother)
      simp [this]

/-! ### Some of the keys -/

variable (keep : String → Bool) {key : String}

theorem put_filter (h : keep key = true) (value : α) (table : Keyed α) :
    put key value (table.filter (keep ·.1)) = (put key value table).filter (keep ·.1) := by
  induction table with
  | nil => simp [put, h]
  | cons e rest ih =>
    obtain ⟨k, v⟩ := e
    by_cases hk : k = key
    · simp [put, hk, h]
    · cases hkeep : keep k <;> simp [put, hk, hkeep, ih]

/-- What is put under a key that is taken out does not show. -/
theorem filter_put (h : keep key = false) (value : α) (table : Keyed α) :
    (put key value table).filter (keep ·.1) = table.filter (keep ·.1) := by
  induction table with
  | nil => simp [put, h]
  | cons e rest ih =>
    obtain ⟨k, v⟩ := e
    by_cases hk : k = key
    · simp [put, hk, h]
    · simp [put, hk, List.filter_cons, ih]

theorem find?_filter (h : keep key = true) (table : Keyed α) :
    find? key (table.filter (keep ·.1)) = find? key table := by
  induction table with
  | nil => rfl
  | cons e rest ih =>
    obtain ⟨k, v⟩ := e
    by_cases hk : k = key
    · simp [find?, hk, h]
    · cases hkeep : keep k <;> simp [find?, hk, hkeep, ih]

/-! ### Values under a function -/

theorem find?_mapValues (f : α → β) (key : String) (table : Keyed α) :
    find? key (table.mapValues f) = (find? key table).map f := by
  induction table with
  | nil => rfl
  | cons e rest ih =>
    show (if e.1 = key then some (f e.2) else find? key (mapValues f rest)) = _
    rw [ih, find?]
    split <;> rfl

theorem put_mapValues (f : α → β) (key : String) (value : α) (table : Keyed α) :
    put key (f value) (table.mapValues f) = (put key value table).mapValues f := by
  induction table with
  | nil => rfl
  | cons e rest ih =>
    show (if e.1 = key then (e.1, f value) :: mapValues f rest
      else (e.1, f e.2) :: put key (f value) (mapValues f rest)) = _
    rw [ih, put]
    split <;> rfl

end ActionItems.Keyed
