import ActionItems.Proofs.Number.Decimal
import Mathlib.Data.List.TakeWhile

/-!
# Written integers

An integer is written with decimal digits, behind a minus sign if it is negative (`mem_showInt`),
and no two integers are written alike (`showInt_injective`). A part of a text, such as a written
integer, is told apart from what follows it if that begins with a character of another kind
(`append_inj_of_head`).
-/

namespace ActionItems.Text

variable {p : Char → Bool} {s t u v : List Char}

theorem takeWhile_append_of_head (hs : ∀ c ∈ s, p c = true) (hu : ∀ c ∈ u.head?, p c = false) :
    (s ++ u).takeWhile p = s := by
  have stop : u.takeWhile p = [] := by
    cases u with
    | nil => rfl
    | cons c u => exact List.takeWhile_cons_of_neg (by rw [hu c rfl]; decide)
  rw [List.takeWhile_append_of_pos hs, stop, List.append_nil]

/-- **A text is cut in one place only** into characters that satisfy `p` and a rest that begins with
none. -/
theorem append_inj_of_head (hs : ∀ c ∈ s, p c = true) (ht : ∀ c ∈ t, p c = true)
    (hu : ∀ c ∈ u.head?, p c = false) (hv : ∀ c ∈ v.head?, p c = false) (h : s ++ u = t ++ v) :
    s = t ∧ u = v := by
  have same : s = t := by rw [← takeWhile_append_of_head hs hu, h, takeWhile_append_of_head ht hv]
  subst same
  exact ⟨rfl, List.append_cancel_left h⟩

/-- The first `mark` of a text cuts it in one place. -/
theorem append_cons_inj {mark : Char} (hs : mark ∉ s) (ht : mark ∉ t)
    (h : s ++ mark :: u = t ++ mark :: v) : s = t ∧ u = v := by
  have other {s : List Char} (hs : mark ∉ s) : ∀ c ∈ s, (c != mark) = true := fun c hc =>
    bne_iff_ne.2 fun he => hs (he ▸ hc)
  have stop (u : List Char) : ∀ c ∈ (mark :: u).head?, (c != mark) = false := by simp
  obtain ⟨same, rest⟩ := append_inj_of_head (other hs) (other ht) (stop u) (stop v) h
  exact ⟨same, (List.cons.inj rest).2⟩

/-- The last `mark` of a text cuts it in one place. -/
theorem append_cons_inj_last {mark : Char} (hu : mark ∉ u) (hv : mark ∉ v)
    (h : s ++ mark :: u = t ++ mark :: v) : s = t ∧ u = v := by
  have turned := congrArg List.reverse h
  simp only [List.reverse_append, List.reverse_cons, List.append_assoc, List.singleton_append]
    at turned
  obtain ⟨behind, before⟩ := append_cons_inj (by simpa using hu) (by simpa using hv) turned
  exact ⟨List.reverse_inj.1 before, List.reverse_inj.1 behind⟩

end ActionItems.Text

namespace ActionItems.Number

theorem toList_toString (n : Nat) : (toString n).toList = Nat.toDigits 10 n := by
  rw [Nat.toString_eq_ofList_toDigits, String.toList_ofList]

theorem mem_showInt {i : Int} {c : Char} (h : c ∈ (showInt i).toList) :
    c = '-' ∨ c.isDigit = true := by
  unfold showInt at h
  split at h
  · rw [String.toList_append, List.mem_append, toList_toString] at h
    exact h.imp List.mem_singleton.1 isDigit_of_mem_toDigits
  · rw [toList_toString] at h
    exact .inr (isDigit_of_mem_toDigits h)

theorem not_mem_showInt {c : Char} (hsign : c ≠ '-') (hdigit : c.isDigit = false) (i : Int) :
    c ∉ (showInt i).toList := by
  intro h
  rcases mem_showInt h with rfl | digit
  · exact hsign rfl
  · rw [hdigit] at digit
    cases digit

theorem eq_of_toDigits {a b : Nat} (h : Nat.toDigits 10 a = Nat.toDigits 10 b) : a = b :=
  calc
    a = Nat.ofDigitChars 10 (Nat.toDigits 10 a) 0 := Nat.ofDigitChars_ten_toDigits.symm
    _ = Nat.ofDigitChars 10 (Nat.toDigits 10 b) 0 := by rw [h]
    _ = b := Nat.ofDigitChars_ten_toDigits

theorem eq_of_toString {a b : Nat} (h : toString a = toString b) : a = b := by
  refine eq_of_toDigits ?_
  rw [← toList_toString, ← toList_toString, h]

theorem minus_append_ne (a b : Nat) : "-" ++ toString a ≠ toString b := by
  intro h
  have minus : '-' ∈ (toString b).toList := by simp [← h]
  rw [toList_toString] at minus
  exact not_mem_toDigits (by decide) b minus

/-- **No two integers are written alike.** -/
theorem showInt_injective : Function.Injective showInt := by
  intro i j h
  unfold showInt at h
  split at h <;> split at h
  · have same : i.natAbs = j.natAbs := eq_of_toString ((String.append_right_inj _).1 h)
    omega
  · exact absurd h (minus_append_ne _ _)
  · exact absurd h.symm (minus_append_ne _ _)
  · have same : i.natAbs = j.natAbs := eq_of_toString h
    omega

end ActionItems.Number
