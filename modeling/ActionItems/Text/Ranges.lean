/-!
# Ascending ranges of numbers

A set of code points is kept as an array of closed ranges in ascending order. `Ranges.find?` looks a
number up by halving the array; `Ranges.contains` only says whether a range holds it.
-/

namespace ActionItems.Text

/-- Closed ranges `(first, last)`, ascending and apart from each other. -/
abbrev Ranges := Array (Nat × Nat)

namespace Ranges

/-- The range that holds `n` among the `width` ranges that begin at index `start`, halving `fuel`
times at most. -/
def findFrom (table : Ranges) (n : Nat) : Nat → Nat → Nat → Option (Nat × Nat)
  | 0, _, _ => none
  | fuel + 1, start, width =>
    if width = 0 then none
    else
      let half := width / 2
      match table[start + half]? with
      | none => none
      | some (first, last) =>
        if n < first then findFrom table n fuel start half
        else if n ≤ last then some (first, last)
        else findFrom table n fuel (start + half + 1) (width - half - 1)

/-- The range that holds `n`, if there is one. -/
def find? (table : Ranges) (n : Nat) : Option (Nat × Nat) :=
  findFrom table n (table.size.log2 + 2) 0 table.size

/-- Whether some range holds `n`. -/
def contains (table : Ranges) (n : Nat) : Bool :=
  (table.find? n).isSome

theorem bounds_of_findFrom {table : Ranges} {n fuel start width : Nat} {r : Nat × Nat}
    (h : findFrom table n fuel start width = some r) : r.1 ≤ n ∧ n ≤ r.2 := by
  induction fuel generalizing start width with
  | zero => simp [findFrom] at h
  | succ fuel ih =>
    simp only [findFrom] at h
    split at h
    · simp at h
    · split at h
      · simp at h
      · split at h
        · exact ih h
        · split at h
          · simp only [Option.some.injEq] at h
            subst h
            simp_all
          · exact ih h

theorem mem_of_findFrom {table : Ranges} {n fuel start width : Nat} {r : Nat × Nat}
    (h : findFrom table n fuel start width = some r) : r ∈ table := by
  induction fuel generalizing start width with
  | zero => cases h
  | succ fuel ih =>
    rw [findFrom] at h
    split at h
    · cases h
    · dsimp only at h
      split at h
      · cases h
      · next first last here =>
        split at h
        · exact ih h
        · split at h
          · cases h
            exact Array.mem_of_getElem? here
          · exact ih h

theorem bounds_of_find? {table : Ranges} {n : Nat} {r : Nat × Nat}
    (h : table.find? n = some r) : r.1 ≤ n ∧ n ≤ r.2 :=
  bounds_of_findFrom h

end Ranges

end ActionItems.Text
