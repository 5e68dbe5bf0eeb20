import ActionItems.Number.Integer
import Mathlib.Data.List.TakeDrop

/-!
# Reading decimal numbers

The decimal digits of a number, as they are written, are read back as that number as long as there
are no more of them than are converted (`readInteger_toDigits`). Digits of any script, with or
without a sign, are read as some number under the same condition (`readInteger_withSign`,
`readInteger_digits`). `span_isDigit` takes digits off a text that goes on with something else.
-/

namespace ActionItems.Text

theorem isDigit_of_isDigit {c : Char} (h : c.isDigit = true) : isDigit c = true := by
  unfold isDigit
  rw [digitValue?_of_isDigit h]
  rfl

theorem length_of_mem_digitRanges {r : Nat × Nat} (h : r ∈ digitRanges) : r.2 = r.1 + 9 := by
  have all : ∀ r ∈ digitRanges.toList, r.2 = r.1 + 9 := by decide
  exact all r (Array.mem_toList_iff.2 h)

theorem not_blank_of_mem_digitRanges {r : Nat × Nat} (h : r ∈ digitRanges) :
    ∀ b ∈ blankRanges, r.2 < b.1 ∨ b.2 < r.1 := by
  have all : ∀ r ∈ digitRanges.toList, ∀ b ∈ blankRanges, r.2 < b.1 ∨ b.2 < r.1 := by decide
  exact all r (Array.mem_toList_iff.2 h)

theorem isDigit_cases {c : Char} (h : isDigit c = true) :
    (c.isDigit = true ∧ digitValue? c = some (c.toNat - 48)) ∨
      (128 ≤ c.toNat ∧ ∃ r ∈ digitRanges, r.1 ≤ c.toNat ∧ c.toNat ≤ r.2 ∧
        digitValue? c = some (c.toNat - r.1)) := by
  unfold isDigit at h
  by_cases hascii : c.toNat < 128
  · have hc : c.isDigit = true := by
      by_contra hno
      rw [digitValue?, if_pos hascii, if_neg hno] at h
      cases h
    exact .inl ⟨hc, digitValue?_of_isDigit hc⟩
  · refine .inr ⟨by omega, ?_⟩
    unfold digitValue? at h ⊢
    rw [if_neg hascii] at h ⊢
    cases hr : digitRanges.find? c.toNat with
    | none => rw [hr] at h; cases h
    | some r =>
      have bounds := Ranges.bounds_of_find? hr
      exact ⟨r, Ranges.mem_of_findFrom hr, bounds.1, bounds.2, rfl⟩

end ActionItems.Text

namespace ActionItems.Number

open ActionItems.Text

/-! ### Digits -/

theorem isDigit_of_mem_toDigits {n : Nat} {c : Char} (h : c ∈ Nat.toDigits 10 n) :
    c.isDigit = true :=
  Nat.isDigit_of_mem_toDigits (by decide) (by decide) h

theorem not_mem_toDigits {c : Char} (h : c.isDigit = false) (n : Nat) : c ∉ Nat.toDigits 10 n := by
  intro hc
  rw [isDigit_of_mem_toDigits hc] at h
  exact absurd h (by decide)

theorem toNat_of_isDigit {c : Char} (h : c.isDigit = true) : 48 ≤ c.toNat ∧ c.toNat ≤ 57 := by
  simp only [Char.isDigit, Bool.and_eq_true, decide_eq_true_eq, UInt32.le_iff_toNat_le] at h
  exact h

theorem digitIn?_of_isDigit {c : Char} (h : c.isDigit = true) :
    digitIn? 10 c = some (c.toNat - 48) := by
  have hc := toNat_of_isDigit h
  have lower : ¬ ('a' ≤ c ∧ c ≤ 'z') := by
    rintro ⟨ha, -⟩
    have : 97 ≤ c.toNat := ha
    omega
  have upper : ¬ ('A' ≤ c ∧ c ≤ 'Z') := by
    rintro ⟨ha, -⟩
    have : 65 ≤ c.toNat := ha
    omega
  have small : c.toNat - 48 < 10 := by omega
  unfold digitIn?
  rw [if_neg lower, if_neg upper, digitValue?_of_isDigit h]
  simp [small]

theorem exists_digitIn? {c : Char} (h : isDigit c = true) : ∃ d, digitIn? 10 c = some d := by
  obtain ⟨hc, -⟩ | ⟨hbig, r, hr, hlower, hupper, hvalue⟩ := isDigit_cases h
  · exact ⟨_, digitIn?_of_isDigit hc⟩
  · have lower : ¬ ('a' ≤ c ∧ c ≤ 'z') := by
      rintro ⟨-, hz⟩
      have : c.toNat ≤ 122 := hz
      omega
    have upper : ¬ ('A' ≤ c ∧ c ≤ 'Z') := by
      rintro ⟨-, hz⟩
      have : c.toNat ≤ 90 := hz
      omega
    have ten := length_of_mem_digitRanges hr
    have small : c.toNat - r.1 < 10 := by omega
    refine ⟨c.toNat - r.1, ?_⟩
    unfold digitIn?
    rw [if_neg lower, if_neg upper, hvalue]
    simp [small]

theorem isBlank_of_digit {c : Char} (h : isDigit c = true) : isBlank c = false := by
  obtain ⟨hc, -⟩ | ⟨-, r, hr, hlower, hupper, -⟩ := isDigit_cases h
  · have := toNat_of_isDigit hc
    unfold isBlank blankRanges
    simp
    omega
  · unfold isBlank
    rw [List.any_eq_false]
    intro b hb
    have apart := not_blank_of_mem_digitRanges hr b hb
    simp only [Bool.and_eq_true, decide_eq_true_eq, not_and]
    omega

/-! ### Runs of digits -/

/-- A run of digits is read to its end, whatever was read before it. -/
theorem digitRun_append {s : List Char} (hs : ∀ c ∈ s, c.isDigit = true) (digits : List Nat)
    (gap : Bool) :
    digitRun 10 digits gap s =
      (s.reverse.map (fun c => c.toNat - 48) ++ digits, gap && s.isEmpty, []) := by
  induction s generalizing digits gap with
  | nil => simp [digitRun]
  | cons c s ih =>
    have hc := digitIn?_of_isDigit (hs c (by simp))
    rw [digitRun, hc]
    simp only
    rw [ih (fun d hd => hs d (by simp [hd]))]
    simp

theorem exists_digitRun {s : List Char} (hs : ∀ c ∈ s, isDigit c = true) (digits : List Nat)
    (gap : Bool) :
    ∃ more, digitRun 10 digits gap s = (more, gap && s.isEmpty, []) ∧
      more.length = digits.length + s.length := by
  induction s generalizing digits gap with
  | nil => exact ⟨digits, by simp [digitRun], rfl⟩
  | cons c s ih =>
    obtain ⟨d, hd⟩ := exists_digitIn? (hs c (by simp))
    obtain ⟨more, hrun, hlen⟩ := ih (fun c hc => hs c (by simp [hc])) (d :: digits) false
    refine ⟨more, ?_, by rw [hlen, List.length_cons, List.length_cons]; omega⟩
    rw [digitRun, hd]
    dsimp only
    rw [hrun]
    simp

/-- The value of digits from the last to the first is that of the written text. -/
theorem ofDigits_reverse_append (s : List Char) (digits : List Nat) :
    ofDigits 10 (s.reverse.map (fun c => c.toNat - 48) ++ digits) =
      Nat.ofDigitChars 10 s (ofDigits 10 digits) := by
  induction s generalizing digits with
  | nil => simp
  | cons c s ih =>
    have key := ih ((c.toNat - 48) :: digits)
    rw [Nat.ofDigitChars_cons, List.reverse_cons, List.map_append, List.append_assoc]
    rw [show 10 * ofDigits 10 digits + (c.toNat - '0'.toNat) =
      ofDigits 10 ((c.toNat - 48) :: digits) by
      rw [ofDigits, Nat.add_comm]; rfl]
    exact key

/-- A text with a minus sign in front of it if it is negative. -/
def withSign (negative : Bool) (s : List Char) : List Char := if negative then '-' :: s else s

theorem splitSign_digit {c : Char} (hc : isDigit c = true) (t : List Char) :
    splitSign (c :: t) = (false, c :: t) := by
  unfold splitSign
  split
  · next he => rw [(List.cons.inj he).1] at hc; exact absurd hc (by decide)
  · next he => rw [(List.cons.inj he).1] at hc; exact absurd hc (by decide)
  · rfl

theorem splitSign_withSign (negative : Bool) {c : Char} (hc : isDigit c = true) (t : List Char) :
    splitSign ((withSign negative (c :: t)).dropWhile isMargin) = (negative, c :: t) := by
  cases negative with
  | false =>
    have margin : ¬ isMargin c = true := by
      rw [isMargin, isBlank_of_digit hc, Bool.false_and]
      decide
    show splitSign ((c :: t).dropWhile isMargin) = _
    rw [List.dropWhile_cons_of_neg margin, splitSign_digit hc]
  | true =>
    show splitSign (('-' :: c :: t).dropWhile isMargin) = _
    rw [List.dropWhile_cons_of_neg (by decide)]
    rfl

/-- A text of digits, perhaps with a sign, is read as the number that they make up, unless there are
too many. -/
theorem readInteger_of_digitRun (negative : Bool) {s : List Char} (hne : s ≠ [])
    (hs : ∀ c ∈ s, isDigit c = true) {digits : List Nat}
    (hrun : digitRun 10 [] true s = (digits, false, [])) (hlen : digits.length = s.length) :
    readInteger 10 (String.ofList (withSign negative s)) =
      if digitLimit < s.length then .error (.tooLong s.length)
      else .ok (if negative then -(ofDigits 10 digits : Int) else ofDigits 10 digits) := by
  obtain ⟨c, t, rfl⟩ := List.exists_cons_of_ne_nil hne
  have sign := splitSign_withSign negative (hs c (by simp)) t
  have mark : dropMark 10 (c :: t) = c :: t := by
    unfold dropMark
    split
    · exact if_neg (by simp [baseMark?])
    · rfl
  have given : digits.isEmpty = false := by
    rw [List.isEmpty_eq_false_iff, ← List.length_pos_iff, hlen]
    exact Nat.succ_pos _
  have limited : (!unlimitedBase 10) = true := by decide
  unfold readInteger
  rw [String.toList_ofList, sign]
  simp only [mark, hrun, given, Bool.or_false, Bool.false_eq_true, if_false, hlen, limited,
    Bool.true_and, List.all_nil, if_true, gt_iff_lt, decide_eq_true_eq]

/-- **A written number is read back.** -/
theorem readInteger_toDigits {n : Nat} (h : (Nat.toDigits 10 n).length ≤ digitLimit) :
    readInteger 10 (String.ofList (Nat.toDigits 10 n)) = .ok n := by
  have hall : ∀ c ∈ Nat.toDigits 10 n, c.isDigit = true := fun c => isDigit_of_mem_toDigits
  have hval := ofDigits_reverse_append (Nat.toDigits 10 n) []
  rw [ofDigits, Nat.ofDigitChars_ten_toDigits] at hval
  have run := digitRun_append hall [] true
  rw [List.isEmpty_eq_false_iff.2 Nat.toDigits_ne_nil, Bool.and_false] at run
  have read := readInteger_of_digitRun false Nat.toDigits_ne_nil
    (fun c hc => isDigit_of_isDigit (hall c hc)) run (by simp)
  rw [if_neg (by omega), hval] at read
  exact read

/-- **Digits of any script, perhaps with a sign, are read as a number, unless there are too
many.** -/
theorem readInteger_withSign (negative : Bool) {s : List Char} (hne : s ≠ [])
    (hs : ∀ c ∈ s, isDigit c = true) :
    ∃ n : Nat, readInteger 10 (String.ofList (withSign negative s)) =
      if digitLimit < s.length then .error (.tooLong s.length)
      else .ok (if negative then -(n : Int) else n) := by
  obtain ⟨digits, run, hlen⟩ := exists_digitRun hs [] true
  rw [List.isEmpty_eq_false_iff.2 hne, Bool.and_false] at run
  rw [List.length_nil, Nat.zero_add] at hlen
  exact ⟨_, readInteger_of_digitRun negative hne hs run hlen⟩

theorem readInteger_digits {s : List Char} (hne : s ≠ []) (hs : ∀ c ∈ s, isDigit c = true) :
    ∃ n : Nat, readInteger 10 (String.ofList s) =
      if digitLimit < s.length then .error (.tooLong s.length) else .ok (n : Int) :=
  readInteger_withSign false hne hs

/-! ### Digits at the start of a text -/

/-- The digits of a number are taken off a text that goes on with something else. -/
theorem span_isDigit {s rest : List Char} (hs : ∀ c ∈ s, c.isDigit = true)
    (hrest : ∀ c ∈ rest.head?, isDigit c = false) :
    (s ++ rest).span isDigit = (s, rest) := by
  have hall : ∀ c ∈ s, isDigit c = true := fun c hc => isDigit_of_isDigit (hs c hc)
  have take : rest.takeWhile isDigit = [] ∧ rest.dropWhile isDigit = rest := by
    cases rest with
    | nil => exact ⟨rfl, rfl⟩
    | cons c rest =>
      have hc := hrest c (by simp)
      exact ⟨List.takeWhile_cons_of_neg (by rw [hc]; decide),
        List.dropWhile_cons_of_neg (by rw [hc]; decide)⟩
  rw [List.span_eq_takeWhile_dropWhile, List.takeWhile_append_of_pos hall,
    List.dropWhile_append_of_pos hall, take.1, take.2, List.append_nil]

end ActionItems.Number
