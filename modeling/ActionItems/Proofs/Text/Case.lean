import ActionItems.Text.Case

/-!
# Small letters stay small

The small letters of a text are small letters themselves: to write it in small letters once more
changes nothing (`lower_lower`). Above ASCII this is a property of the table of capitals: no run of
it has a number that another run, or itself, leads to (`areApart_of_mem`,
`smallLetterAbove_smallLetterAbove`). Nor does a point come from any other character
(`point_mem_lower`).
-/

namespace ActionItems.Text

/-! ### Runs of capitals -/

/-- A run of the table of capitals. -/
abbrev Run := Nat × Nat × Nat × Nat × Nat

namespace Run

/-- The first capital. -/
abbrev first (r : Run) : Nat := r.1

/-- The last capital. -/
abbrev last (r : Run) : Nat := r.2.1

/-- The distance from a capital to the next one. -/
abbrev step (r : Run) : Nat := r.2.2.1

/-- How far the small letters are above the capitals. -/
abbrev up (r : Run) : Nat := r.2.2.2.1

/-- How far the small letters are below the capitals. -/
abbrev down (r : Run) : Nat := r.2.2.2.2

/-- A number is one of the capitals of a run. -/
structure Has (r : Run) (n : Nat) : Prop where
  least : first r ≤ n
  greatest : n ≤ last r
  onStep : (n - first r) % step r = 0

end Run

open Run

/-- Whether no small letter of a run is a capital of another one: they are apart, or there is always
a part of a step between them. -/
def areApart (r r' : Run) : Bool :=
  -- The comparisons of the kernel: there are some thirty thousand pairs of runs.
  Nat.blt (last r + up r) (first r' + down r) || Nat.blt (last r' + down r) (first r + up r) ||
    ((first r == last r || step r % step r' == 0) &&
      (first r + up r) % step r' != (first r' + down r) % step r')

/-- Whether the small letters of a run are characters, and none of them comes before the small
letters of ASCII. -/
def leadsToChars (r : Run) : Bool :=
  decide (97 + down r ≤ first r + up r) &&
    (decide (last r + up r < 0xD800 + down r) ||
      (decide (0xDFFF + down r < first r + up r) && decide (last r + up r < 0x110000 + down r)))

theorem areApart_of_mem {r r' : Run} (h : r ∈ capitalRuns) (h' : r' ∈ capitalRuns) :
    areApart r r' = true := by
  have all : (capitalRuns.toList.all fun r => capitalRuns.toList.all (areApart r)) = true := by
    decide +kernel
  have row := List.all_eq_true.1 all r h.val
  exact List.all_eq_true.1 row r' h'.val

theorem leadsToChars_of_mem {r : Run} (h : r ∈ capitalRuns) : leadsToChars r = true := by
  have all : capitalRuns.toList.all leadsToChars = true := by decide +kernel
  exact List.all_eq_true.1 all r h.val

theorem not_has_of_areApart {r r' : Run} (h : areApart r r' = true) {n m : Nat} (hn : Has r n)
    (hm : Has r' m) : m + down r ≠ n + up r := by
  intro eq
  simp only [areApart, Bool.or_eq_true, Nat.blt_eq, Bool.and_eq_true, beq_iff_eq, bne_iff_ne] at h
  have least := hn.least
  have greatest := hn.greatest
  have least' := hm.least
  have greatest' := hm.greatest
  obtain (below | above) | ⟨stepwise, between⟩ := h
  · omega
  · omega
  · obtain ⟨a, ha⟩ := Nat.dvd_of_mod_eq_zero hm.onStep
    obtain ⟨b, hb⟩ : ∃ b, n - first r = step r' * b := by
      obtain single | divides := stepwise
      · exact ⟨0, by omega⟩
      · have whole := Nat.dvd_of_mod_eq_zero hn.onStep
        exact Nat.dvd_trans (Nat.dvd_of_mod_eq_zero divides) whole
    have meet : first r + up r + step r' * b = first r' + down r + step r' * a := by omega
    refine between ?_
    rw [← Nat.add_mul_mod_self_left (first r + up r) (step r') b, meet, Nat.add_mul_mod_self_left]

/-! ### Small letters of characters -/

theorem toNat_ofNat {n : Nat} (h : n.isValidChar) : (Char.ofNat n).toNat = n := by
  rw [Char.ofNat, dif_pos h]
  rfl

/-- A character that has another small letter is in a run, and that leads to it. -/
theorem exists_run {n : Nat} (h : smallLetterAbove n ≠ n) :
    ∃ r ∈ capitalRuns, Has r n ∧ smallLetterAbove n = n + up r - down r := by
  unfold smallLetterAbove at h ⊢
  split at h
  · next first last step up down found =>
    have mem := Array.mem_of_find?_eq_some found
    have inside := Array.find?_some found
    simp only [Bool.and_eq_true, decide_eq_true_eq, beq_iff_eq] at inside
    exact ⟨_, mem, ⟨inside.1.1, inside.1.2, inside.2⟩, rfl⟩
  · exact absurd rfl h

theorem smallLetterAbove_eq_self {n : Nat}
    (h : (capitalRuns.toList.all fun r => Nat.blt n (first r) || Nat.blt (last r) n) = true) :
    smallLetterAbove n = n := by
  by_cases moved : smallLetterAbove n = n
  · exact moved
  · obtain ⟨r, mem, has, -⟩ := exists_run moved
    have beside := List.all_eq_true.1 h r mem.val
    simp only [Bool.or_eq_true, Nat.blt_eq] at beside
    have least := has.least
    have greatest := has.greatest
    omega

/-- What a run leads to is a character, not before the small letters of ASCII. -/
theorem bounds_of_moved {n : Nat} (h : smallLetterAbove n ≠ n) :
    97 ≤ smallLetterAbove n ∧ (smallLetterAbove n).isValidChar := by
  obtain ⟨r, mem, has, eq⟩ := exists_run h
  have chars := leadsToChars_of_mem mem
  simp only [leadsToChars, Bool.and_eq_true, Bool.or_eq_true, decide_eq_true_eq] at chars
  have least := has.least
  have greatest := has.greatest
  rw [eq, Nat.isValidChar]
  omega

/-- **A small letter above ASCII has no other small letter.** -/
theorem smallLetterAbove_smallLetterAbove {n : Nat} (h : smallLetterAbove n ≠ n) :
    smallLetterAbove (smallLetterAbove n) = smallLetterAbove n := by
  by_cases moved : smallLetterAbove (smallLetterAbove n) = smallLetterAbove n
  · exact moved
  · obtain ⟨r, mem, has, eq⟩ := exists_run h
    obtain ⟨r', mem', has', -⟩ := exists_run moved
    have bounds := bounds_of_moved h
    refine absurd ?_ (not_has_of_areApart (areApart_of_mem mem mem') has has')
    omega

theorem smallLetter_of_ascii {c : Char} (hc : c.toNat < 128)
    (plain : ¬ (65 ≤ c.toNat ∧ c.toNat ≤ 90)) : smallLetter c = c := by
  have same : c.toLower = c := dif_neg fun ⟨least, greatest⟩ =>
    plain ⟨UInt32.le_iff_toNat_le.1 least, UInt32.le_iff_toNat_le.1 greatest⟩
  rw [smallLetter, if_pos hc, same]

theorem smallLetter_cases (c : Char) : smallLetter c = c ∨
    (97 ≤ (smallLetter c).toNat ∧ smallLetter (smallLetter c) = smallLetter c) := by
  have capitals : ∀ k < 26, 97 ≤ (smallLetter (Char.ofNat (65 + k))).toNat ∧
      smallLetter (smallLetter (Char.ofNat (65 + k))) = smallLetter (Char.ofNat (65 + k)) := by
        decide +kernel
  by_cases hc : c.toNat < 128
  · by_cases capital : 65 ≤ c.toNat ∧ c.toNat ≤ 90
    · have lead := capitals (c.toNat - 65) (by omega)
      rw [Nat.add_sub_cancel' capital.1, Char.ofNat_toNat] at lead
      exact .inr lead
    · exact .inl (smallLetter_of_ascii hc capital)
  · have above : smallLetter c = Char.ofNat (smallLetterAbove c.toNat) := if_neg hc
    by_cases moved : smallLetterAbove c.toNat = c.toNat
    · rw [above, moved, Char.ofNat_toNat]
      exact .inl rfl
    · obtain ⟨least, valid⟩ := bounds_of_moved moved
      have number := toNat_ofNat valid
      have fixed : smallLetter (Char.ofNat (smallLetterAbove c.toNat)) =
          Char.ofNat (smallLetterAbove c.toNat) := by
        by_cases hm : smallLetterAbove c.toNat < 128
        · exact smallLetter_of_ascii (by omega) (by omega)
        · rw [smallLetter, number, if_neg hm, smallLetterAbove_smallLetterAbove moved]
      rw [above, number]
      exact .inr ⟨least, fixed⟩

theorem smallLetter_smallLetter (c : Char) : smallLetter (smallLetter c) = smallLetter c := by
  obtain same | ⟨-, small⟩ := smallLetter_cases c
  · rw [same, same]
  · exact small

theorem smallLetter_eq_point {c : Char} (h : smallLetter c = '.') : c = '.' := by
  obtain same | ⟨least, -⟩ := smallLetter_cases c
  · rw [← same, h]
  · rw [h] at least
    exact absurd least (by decide)

/-! ### Small letters of texts -/

/-- What a character of the small letters of a text is: the small letter of one of its characters, a
sigma, or one of the two characters for the dotted capital I. -/
theorem mem_lowerAfter {before s : List Char} {c : Char} (h : c ∈ lowerAfter before s) :
    (∃ d ∈ s, c = smallLetter d) ∨ c ∈ ['ς', 'σ', 'i', '\u0307'] := by
  induction s generalizing before with
  | nil => cases h
  | cons d s ih =>
    have later (h : c ∈ lowerAfter (d :: before) s) :
        (∃ d' ∈ d :: s, c = smallLetter d') ∨ c ∈ ['ς', 'σ', 'i', '\u0307'] :=
      (ih h).imp_left fun ⟨d', mem, eq⟩ => ⟨d', List.mem_cons_of_mem d mem, eq⟩
    rw [lowerAfter] at h
    split at h
    · obtain rfl | h := List.mem_cons.1 h
      · right
        unfold smallSigma
        split <;> decide
      · exact later h
    · split at h
      · obtain rfl | h := List.mem_cons.1 h
        · exact .inr (by decide)
        · obtain rfl | h := List.mem_cons.1 h
          · exact .inr (by decide)
          · exact later h
      · obtain rfl | h := List.mem_cons.1 h
        · exact .inl ⟨d, List.mem_cons_self, rfl⟩
        · exact later h

/-- The small letters of a text are small letters. -/
theorem smallLetter_of_mem_lower {s : List Char} {c : Char} (h : c ∈ lower s) :
    smallLetter c = c := by
  have above {c : Char} (hc : ¬ c.toNat < 128) (same : smallLetterAbove c.toNat = c.toNat) :
      smallLetter c = c := by
    rw [smallLetter, if_neg hc, same, Char.ofNat_toNat]
  have special : ∀ c ∈ ['ς', 'σ', 'i', '\u0307'], smallLetter c = c := by
    simp only [List.forall_mem_cons, List.not_mem_nil, false_imp_iff, implies_true, and_true]
    refine ⟨above (by decide) ?_, above (by decide) ?_,
      smallLetter_of_ascii (by decide) (by decide), above (by decide) ?_⟩ <;>
        exact smallLetterAbove_eq_self (by decide +kernel)
  obtain ⟨d, -, rfl⟩ | among := mem_lowerAfter h
  · exact smallLetter_smallLetter d
  · exact special c among

theorem lowerAfter_of_small {before s : List Char} (h : ∀ c ∈ s, smallLetter c = c) :
    lowerAfter before s = s := by
  induction s generalizing before with
  | nil => rfl
  | cons c s ih =>
    obtain ⟨small, rest⟩ := List.forall_mem_cons.1 h
    have nosigma : c ≠ 'Σ' := by
      rintro rfl
      exact absurd small (by decide +kernel)
    have nodot : c ≠ 'İ' := by
      rintro rfl
      exact absurd small (by decide +kernel)
    rw [lowerAfter, if_neg nosigma, if_neg nodot, small, ih rest]

/-- **To write a text in small letters twice is to do so once.** -/
theorem lower_lower (s : List Char) : lower (lower s) = lower s :=
  lowerAfter_of_small fun _ => smallLetter_of_mem_lower

theorem point_mem_lower {s : List Char} (h : '.' ∈ lower s) : '.' ∈ s := by
  obtain ⟨d, mem, eq⟩ | among := mem_lowerAfter h
  · rw [smallLetter_eq_point eq.symm] at mem
    exact mem
  · exact absurd among (by decide)

end ActionItems.Text
