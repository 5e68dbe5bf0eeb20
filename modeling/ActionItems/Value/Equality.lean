import ActionItems.Value

/-!
# Equality of values

Whether two values are equal as they are written can be decided (`Value.isExactly_iff`). Unlike
`Value.same`, it tells numbers of different kinds apart, and the order of entries counts. So what is
read from a given document can be tested.
-/

namespace ActionItems.Value

mutual

/-- Whether two values are the same in every part. -/
def isExactly : Value → Value → Bool
  | null, null => true
  | bool b, bool c => b == c
  | int i, int j => i == j
  | float x, float y => decide (x = y)
  | text s, text t => s == t
  | loose p, loose q => p == q
  | bytes b, bytes c => b == c
  | date d, date e => decide (d = e)
  | moment m, moment n => decide (m = n)
  | list xs, list ys => areExactly xs ys
  | tuple xs, tuple ys => areExactly xs ys
  | set xs, set ys => areExactly xs ys
  | map es, map fs => entriesExactly es fs
  | cycle, cycle => true
  | _, _ => false

/-- Whether two lists of values are the same, item by item. -/
def areExactly : List Value → List Value → Bool
  | [], [] => true
  | x :: xs, y :: ys => isExactly x y && areExactly xs ys
  | _, _ => false

/-- Whether two lists of entries are the same, entry by entry. -/
def entriesExactly : List (Value × Value) → List (Value × Value) → Bool
  | [], [] => true
  | (k, v) :: es, (l, w) :: fs => isExactly k l && isExactly v w && entriesExactly es fs
  | _, _ => false

end

mutual

theorem eq_of_isExactly : ∀ (v w : Value), isExactly v w = true → v = w := by
  intro v w h
  match v, w, h with
  | null, null, _ => rfl
  | bool b, bool c, h => rw [beq_iff_eq.1 h]
  | int i, int j, h => rw [beq_iff_eq.1 h]
  | float x, float y, h => rw [of_decide_eq_true h]
  | text s, text t, h => rw [beq_iff_eq.1 h]
  | loose p, loose q, h => rw [beq_iff_eq.1 h]
  | bytes b, bytes c, h => rw [beq_iff_eq.1 h]
  | date d, date e, h => rw [of_decide_eq_true h]
  | moment m, moment n, h => rw [of_decide_eq_true h]
  | list xs, list ys, h => rw [eq_of_areExactly xs ys h]
  | tuple xs, tuple ys, h => rw [eq_of_areExactly xs ys h]
  | set xs, set ys, h => rw [eq_of_areExactly xs ys h]
  | map es, map fs, h => rw [eq_of_entriesExactly es fs h]
  | cycle, cycle, _ => rfl

theorem eq_of_areExactly : ∀ (xs ys : List Value), areExactly xs ys = true → xs = ys
  | [], [], _ => rfl
  | x :: xs, y :: ys, h => by
    obtain ⟨hx, hxs⟩ := Bool.and_eq_true_iff.1 h
    rw [eq_of_isExactly x y hx, eq_of_areExactly xs ys hxs]

theorem eq_of_entriesExactly :
    ∀ (es fs : List (Value × Value)), entriesExactly es fs = true → es = fs
  | [], [], _ => rfl
  | (k, v) :: es, (l, w) :: fs, h => by
    obtain ⟨h, hes⟩ := Bool.and_eq_true_iff.1 h
    obtain ⟨hk, hv⟩ := Bool.and_eq_true_iff.1 h
    rw [eq_of_isExactly k l hk, eq_of_isExactly v w hv, eq_of_entriesExactly es fs hes]

end

mutual

theorem isExactly_self : ∀ v : Value, isExactly v v = true
  | null => rfl
  | bool b => beq_self_eq_true b
  | int i => beq_self_eq_true i
  | float _ => decide_eq_true rfl
  | text s => beq_self_eq_true s
  | loose p => beq_self_eq_true p
  | bytes b => beq_self_eq_true b
  | date _ => decide_eq_true rfl
  | moment _ => decide_eq_true rfl
  | list xs => areExactly_self xs
  | tuple xs => areExactly_self xs
  | set xs => areExactly_self xs
  | map es => entriesExactly_self es
  | cycle => rfl

theorem areExactly_self : ∀ xs : List Value, areExactly xs xs = true
  | [] => rfl
  | x :: xs => Bool.and_eq_true_iff.2 ⟨isExactly_self x, areExactly_self xs⟩

theorem entriesExactly_self : ∀ es : List (Value × Value), entriesExactly es es = true
  | [] => rfl
  | (k, v) :: es => Bool.and_eq_true_iff.2
    ⟨Bool.and_eq_true_iff.2 ⟨isExactly_self k, isExactly_self v⟩, entriesExactly_self es⟩

end

/-- **Values are compared in every part.** -/
theorem isExactly_iff {v w : Value} : isExactly v w = true ↔ v = w :=
  ⟨eq_of_isExactly v w, fun h => h ▸ isExactly_self v⟩

instance : DecidableEq Value := fun _ _ => decidable_of_iff _ isExactly_iff

end ActionItems.Value
