import ActionItems.Number.Reading
import ActionItems.Proofs.Number.Decimal
import Mathlib.Data.List.Basic

/-!
# Reading numbers with a fraction or an exponent

A number that is written in digits, with or without a sign, a fraction and an exponent
(`IsDecimal`), is read as a floating-point number, however long it is (`exists_readFloat?`).
-/

namespace ActionItems.Number

open ActionItems.Text

variable {s rest whole fraction exponent : List Char}

/-- Digits of ASCII, at least one. -/
def IsDigits (s : List Char) : Prop := s ≠ [] ∧ ∀ c ∈ s, c.isDigit = true

/-- Nothing, or digits behind a point. -/
def IsFraction (s : List Char) : Prop := s = [] ∨ ∃ digits, s = '.' :: digits ∧ IsDigits digits

/-- Nothing, or digits behind a mark and perhaps a sign. -/
def IsExponent (s : List Char) : Prop :=
  s = [] ∨ ∃ mark sign digits, s = mark :: (sign ++ digits) ∧ mark ∈ ['e', 'E'] ∧
    sign ∈ [[], ['+'], ['-']] ∧ IsDigits digits

/-- Digits, with or without a fraction and an exponent. -/
def IsDecimal (s : List Char) : Prop :=
  ∃ whole fraction exponent, s = whole ++ (fraction ++ exponent) ∧ IsDigits whole ∧
    IsFraction fraction ∧ IsExponent exponent

theorem takeDigits_append (hs : ∀ c ∈ s, c.isDigit = true) (hrest : takeDigits rest = ([], rest)) :
    takeDigits (s ++ rest) = (s.map (fun c => c.toNat - 48), rest) := by
  induction s with
  | nil => exact hrest
  | cons c s ih =>
    rw [List.cons_append, takeDigits, digitValue?_of_isDigit (hs c (by simp))]
    dsimp only
    rw [ih fun d hd => hs d (by simp [hd])]
    rfl

theorem takeDigits_isDigits (hs : IsDigits s) :
    takeDigits s = (s.map (fun c => c.toNat - 48), []) := by
  have taken := takeDigits_append hs.2 (rfl : takeDigits [] = ([], []))
  rwa [List.append_nil] at taken

theorem takeDigits_exponent (h : IsExponent s) : takeDigits s = ([], s) := by
  obtain rfl | ⟨mark, sign, digits, rfl, hmark, -⟩ := h
  · rfl
  · have other : digitValue? mark = none := by
      have all : ∀ mark ∈ ['e', 'E'], digitValue? mark = none :=
        List.forall_iff_forall_mem.1 (by decide)
      exact all mark hmark
    rw [takeDigits, other]

theorem splitSign_isDigits (hs : IsDigits s) : splitSign s = (false, s) := by
  obtain ⟨c, t, rfl⟩ := List.exists_cons_of_ne_nil hs.1
  exact splitSign_digit (isDigit_of_isDigit (hs.2 c (by simp))) t

theorem takeExponent_isExponent (h : IsExponent s) : ∃ e, takeExponent s = (e, []) := by
  obtain rfl | ⟨mark, sign, digits, rfl, hmark, hsign, hdigits⟩ := h
  · exact ⟨0, rfl⟩
  · have marks : (mark = 'e' || mark = 'E') = true := by simpa using hmark
    have split : ∃ negative, splitSign (sign ++ digits) = (negative, digits) := by
      simp only [List.mem_cons, List.not_mem_nil, or_false] at hsign
      obtain rfl | rfl | rfl := hsign
      · exact ⟨false, splitSign_isDigits hdigits⟩
      · exact ⟨false, rfl⟩
      · exact ⟨true, rfl⟩
    obtain ⟨negative, split⟩ := split
    obtain ⟨c, t, rfl⟩ := List.exists_cons_of_ne_nil hdigits.1
    rw [takeExponent, if_pos marks, split]
    dsimp only
    rw [takeDigits_isDigits hdigits]
    exact ⟨_, rfl⟩

/-- The digits of the fraction at the start of a text, and the rest. -/
def takeFraction (s : List Char) : List Nat × List Char :=
  match s with
  | '.' :: more => takeDigits more
  | _ => ([], s)

theorem takeFraction_append (hfraction : IsFraction fraction) (hexponent : IsExponent exponent) :
    takeDigits (fraction ++ exponent) = ([], fraction ++ exponent) ∧
      ∃ digits, takeFraction (fraction ++ exponent) = (digits, exponent) := by
  obtain rfl | ⟨digits, rfl, hdigits⟩ := hfraction
  · refine ⟨takeDigits_exponent hexponent, [], ?_⟩
    obtain rfl | ⟨mark, sign, digits, rfl, hmark, -⟩ := hexponent
    · rfl
    · simp only [List.mem_cons, List.not_mem_nil, or_false] at hmark
      obtain rfl | rfl := hmark
      · rfl
      · rfl
  · have point : digitValue? '.' = none := by decide
    refine ⟨?_, _, takeDigits_append hdigits.2 (takeDigits_exponent hexponent)⟩
    rw [List.cons_append, takeDigits, point]

theorem takeMagnitude?_of_takeDigits (negative : Bool) {digits : List Nat}
    (h : takeDigits s = (digits, rest)) (hne : digits ≠ []) : ∃ x, takeMagnitude? negative s =
      some (x, (takeExponent (takeFraction rest).2).2) := by
  have given : digits.isEmpty = false := List.isEmpty_eq_false_iff.2 hne
  unfold takeMagnitude?
  rw [h]
  dsimp only
  rw [given, Bool.false_and, if_neg Bool.false_ne_true]
  exact ⟨_, rfl⟩

theorem takeMagnitude?_isDecimal (negative : Bool) (h : IsDecimal s) :
    ∃ x, takeMagnitude? negative s = some (x, []) := by
  obtain ⟨whole, fraction, exponent, rfl, hwhole, hfraction, hexponent⟩ := h
  obtain ⟨other, digits, behind⟩ := takeFraction_append hfraction hexponent
  obtain ⟨e, he⟩ := takeExponent_isExponent hexponent
  obtain ⟨x, hx⟩ := takeMagnitude?_of_takeDigits negative (takeDigits_append hwhole.2 other)
    (mt List.map_eq_nil_iff.1 hwhole.1)
  rw [behind, he] at hx
  exact ⟨x, hx⟩

theorem isMargin_of_isDigits (h : IsDigits s) : ∀ c ∈ s, isMargin c = false := by
  intro c hc
  rw [isMargin, isBlank_of_digit (isDigit_of_isDigit (h.2 c hc)), Bool.false_and]

theorem isMargin_of_mark {mark : Char} {sign : List Char} (hmark : mark ∈ ['e', 'E'])
    (hsign : sign ∈ [[], ['+'], ['-']]) : ∀ c ∈ mark :: sign, isMargin c = false := by
  simp only [List.mem_cons, List.not_mem_nil, or_false] at hmark hsign
  obtain rfl | rfl := hmark <;> obtain rfl | rfl | rfl := hsign <;>
    exact List.forall_iff_forall_mem.1 (by decide)

theorem isMargin_of_isDecimal (h : IsDecimal s) : ∀ c ∈ s, isMargin c = false := by
  obtain ⟨whole, fraction, exponent, rfl, hwhole, hfraction, hexponent⟩ := h
  simp only [List.mem_append]
  rintro c (hc | hc | hc)
  · exact isMargin_of_isDigits hwhole c hc
  · obtain rfl | ⟨digits, rfl, hdigits⟩ := hfraction
    · cases hc
    · obtain rfl | hc := List.mem_cons.1 hc
      · decide
      · exact isMargin_of_isDigits hdigits c hc
  · obtain rfl | ⟨mark, sign, digits, rfl, hmark, hsign, hdigits⟩ := hexponent
    · cases hc
    · rw [← List.cons_append, List.mem_append] at hc
      obtain hc | hc := hc
      · exact isMargin_of_mark hmark hsign c hc
      · exact isMargin_of_isDigits hdigits c hc

theorem stripEndWhile_of_forall {p : Char → Bool} (h : ∀ c ∈ s, p c = false) :
    stripEndWhile p s = s := by
  obtain rfl | ⟨front, c, rfl⟩ := List.eq_nil_or_concat s
  · rfl
  · rw [List.concat_eq_append] at h ⊢
    exact stripEndWhile_append_of_not (h c (by simp))

theorem toLower_of_isDigit {c : Char} (h : c.isDigit = true) : c.toLower = c := by
  have small := (toNat_of_isDigit h).2
  refine dif_neg ?_
  rintro ⟨upper, -⟩
  have : 65 ≤ c.toNat := upper
  omega

/-- **A number in digits is read**, whatever its size. -/
theorem exists_readFloat? (negative : Bool) (h : IsDecimal s) :
    ∃ x, readFloat? (withSign negative s) = some x := by
  obtain ⟨x, hx⟩ := takeMagnitude?_isDecimal negative h
  have strip := stripEndWhile_of_forall (isMargin_of_isDecimal h)
  obtain ⟨whole, fraction, exponent, rfl, hwhole, -⟩ := h
  obtain ⟨c, t, rfl⟩ := List.exists_cons_of_ne_nil hwhole.1
  have digit := hwhole.2 c (by simp)
  -- The names of the numbers that are not finite begin with a letter.
  have named {d : Char} (hd : d.isDigit = false) (name : List Char) :
      ((c :: t) ++ (fraction ++ exponent)).map Char.toLower ≠ d :: name := by
    rw [List.cons_append, List.map_cons, toLower_of_isDigit digit]
    intro h
    rw [← (List.cons.inj h).1, digit] at hd
    cases hd
  unfold readFloat?
  rw [List.cons_append, splitSign_withSign negative (isDigit_of_isDigit digit)]
  dsimp only
  rw [← List.cons_append, strip, if_neg, if_neg, hx]
  · exact ⟨x, rfl⟩
  · exact named (by decide) _
  · rw [Bool.or_eq_true, decide_eq_true_eq, decide_eq_true_eq]
    rintro (h | h)
    · exact named (by decide) _ h
    · exact named (by decide) _ h

end ActionItems.Number
