import ActionItems.Proofs.Diff.Reading
import Mathlib.Data.List.TakeWhile

/-!
# Hunk headers

The form of a hunk header, `@@ -a,b +c,d @@` with any blanks before its signs and marks, is stated
as a way to put a line together (`IsHunkHeader`), and the reader of headers finds exactly the lines
of this form (`hunkDigits?_eq_some_iff`): no part of a header can be taken for another, as a blank,
a digit, a comma and a sign are different characters.

Such a line has a start in the new version unless the start has more digits than are converted
(`hunkStart?_of_isHunkHeader`); any other line is read as no header.
-/

namespace ActionItems.Diff

open ActionItems.Number ActionItems.Text

/-! ### The form of a header -/

/-- The digits of a number, of any script. -/
def IsNumber (digits : List Char) : Prop := digits ≠ [] ∧ ∀ c ∈ digits, isDigit c = true

/-- A length behind a start line, which may be missing. -/
def IsLength (text : List Char) : Prop :=
  text = [] ∨ ∃ digits, IsNumber digits ∧ text = ',' :: digits

/-- Blanks between the parts of a header. -/
def AreBlanks (text : List Char) : Prop := ∀ c ∈ text, isBlank c = true

/-- A line that says where a hunk starts: `start` are the digits of its start in the new version. -/
def IsHunkHeader (line start : List Char) : Prop :=
  ∃ before old oldLength between newLength behind rest,
    AreBlanks before ∧ IsNumber old ∧ IsLength oldLength ∧ AreBlanks between ∧ IsNumber start ∧
      IsLength newLength ∧ AreBlanks behind ∧
      line = "@@".toList ++ before ++ '-' :: (old ++ oldLength ++ between ++ '+' ::
        (start ++ newLength ++ behind ++ "@@".toList ++ rest))

/-! ### Parts of a header -/

theorem stripStart_append {blanks : List Char} (h : AreBlanks blanks) (s : List Char) :
    stripStart (blanks ++ s) = stripStart s :=
  List.dropWhile_append_of_pos h

theorem exists_stripStart (s : List Char) :
    ∃ blanks, AreBlanks blanks ∧ s = blanks ++ stripStart s := by
  refine ⟨s.takeWhile isBlank, fun c hc => List.mem_takeWhile_imp hc, ?_⟩
  exact (List.takeWhile_append_dropWhile).symm

theorem digits?_eq_some_iff {s digits rest : List Char} :
    digits? s = some (digits, rest) ↔
      s = digits ++ rest ∧ IsNumber digits ∧ ∀ c ∈ rest.head?, isDigit c = false := by
  unfold digits?
  rw [List.span_eq_takeWhile_dropWhile]
  constructor
  · intro h
    cases ht : s.takeWhile isDigit with
    | nil => rw [ht] at h; cases h
    | cons c t =>
      rw [ht] at h
      cases h
      refine ⟨?_, ⟨List.cons_ne_nil c t, fun d hd => ?_⟩, fun d hd => ?_⟩
      · rw [← ht]
        exact (List.takeWhile_append_dropWhile).symm
      · rw [← ht] at hd
        exact List.mem_takeWhile_imp hd
      · have := List.head?_dropWhile_not isDigit s
        rw [Option.mem_def.1 hd] at this
        exact this
  · rintro ⟨rfl, ⟨hne, hall⟩, hrest⟩
    have stop : rest.takeWhile isDigit = [] ∧ rest.dropWhile isDigit = rest := by
      cases rest with
      | nil => exact ⟨rfl, rfl⟩
      | cons c rest =>
        have hc := hrest c rfl
        exact ⟨List.takeWhile_cons_of_neg (by rw [hc]; decide),
          List.dropWhile_cons_of_neg (by rw [hc]; decide)⟩
    rw [List.takeWhile_append_of_pos hall, List.dropWhile_append_of_pos hall, stop.1, stop.2,
      List.append_nil]
    obtain ⟨c, t, rfl⟩ := List.exists_cons_of_ne_nil hne
    rfl

theorem exists_skipLength (s : List Char) :
    ∃ length, IsLength length ∧ s = length ++ skipLength s := by
  unfold skipLength
  split
  · next rest =>
    cases hd : digits? rest with
    | none => exact ⟨[], .inl rfl, rfl⟩
    | some found =>
      obtain ⟨digits, more⟩ := found
      obtain ⟨rfl, hdigits, -⟩ := digits?_eq_some_iff.1 hd
      exact ⟨',' :: digits, .inr ⟨digits, hdigits, rfl⟩, rfl⟩
  · exact ⟨[], .inl rfl, rfl⟩

/-- What follows a length is left: it begins with neither a digit nor a comma. -/
theorem skipLength_append {length rest : List Char} (h : IsLength length)
    (hrest : ∀ c ∈ rest.head?, isDigit c = false ∧ c ≠ ',') :
    skipLength (length ++ rest) = rest := by
  obtain rfl | ⟨digits, hdigits, rfl⟩ := h
  · unfold skipLength
    rw [List.nil_append]
    split
    · exact absurd rfl (hrest ',' rfl).2
    · rfl
  · have found : digits? (digits ++ rest) = some (digits, rest) :=
      digits?_eq_some_iff.2 ⟨rfl, hdigits, fun c hc => (hrest c hc).1⟩
    unfold skipLength
    rw [List.cons_append]
    simp only [found]

theorem digits?_append {digits length blanks : List Char} (hdigits : IsNumber digits)
    (hlength : IsLength length) (hblanks : AreBlanks blanks) {sign : Char}
    (hsign : isDigit sign = false ∧ sign ≠ ',') (rest : List Char) :
    digits? (digits ++ length ++ blanks ++ sign :: rest) =
      some (digits, length ++ blanks ++ sign :: rest) ∧
      skipLength (length ++ blanks ++ sign :: rest) = blanks ++ sign :: rest := by
  have behind : ∀ c ∈ (blanks ++ sign :: rest).head?, isDigit c = false ∧ c ≠ ',' := by
    intro c hc
    cases blanks with
    | nil =>
      obtain rfl : sign = c := Option.some.inj hc
      exact hsign
    | cons b blanks =>
      obtain rfl : b = c := Option.some.inj hc
      have hb := hblanks b (by simp)
      refine ⟨?_, ?_⟩
      · by_contra hdigit
        rw [isBlank_of_digit (by simpa using hdigit)] at hb
        cases hb
      · rintro rfl
        exact absurd hb (by decide)
  refine ⟨digits?_eq_some_iff.2 ⟨by simp, hdigits, fun c hc => ?_⟩, ?_⟩
  · obtain rfl | ⟨number, -, rfl⟩ := hlength
    · exact (behind c (by simpa using hc)).1
    · obtain rfl : ',' = c := Option.some.inj hc
      decide
  · rw [List.append_assoc]
    exact skipLength_append hlength behind

/-! ### The reader of headers -/

theorem stripStart_blanks {blanks : List Char} (h : AreBlanks blanks) {c : Char}
    (hc : isBlank c = false) (s : List Char) : stripStart (blanks ++ c :: s) = c :: s := by
  rw [stripStart_append h, stripStart_cons hc]

/-- **The lines that are read as hunk headers are those of their form.** -/
theorem hunkDigits?_eq_some_iff {line start : List Char} :
    hunkDigits? line = some start ↔ IsHunkHeader line start := by
  unfold hunkDigits?
  simp only [Option.bind_eq_bind, Option.bind_eq_some_iff, dropStart?_eq_some_iff, Option.pure_def,
    Option.some.injEq]
  constructor
  · rintro ⟨afterMark, rfl, afterMinus, hminus, ⟨old, afterOld⟩, hold, afterPlus, hplus,
      ⟨digits, afterStart⟩, hstart, rest, hclose, rfl⟩
    obtain ⟨before, hbefore, hmark⟩ := exists_stripStart afterMark
    obtain ⟨hold, hnumber, -⟩ := digits?_eq_some_iff.1 hold
    obtain ⟨oldLength, holdLength, hskip⟩ := exists_skipLength afterOld
    obtain ⟨between, hbetween, hstrip⟩ := exists_stripStart (skipLength afterOld)
    obtain ⟨hstart, hdigits, -⟩ := digits?_eq_some_iff.1 hstart
    obtain ⟨newLength, hnewLength, hskip'⟩ := exists_skipLength afterStart
    obtain ⟨behind, hbehind, hstrip'⟩ := exists_stripStart (skipLength afterStart)
    refine ⟨before, old, oldLength, between, newLength, behind, rest, hbefore, hnumber,
      holdLength, hbetween, hdigits, hnewLength, hbehind, ?_⟩
    rw [hmark, hminus, hold, hskip, hstrip, hplus, hstart, hskip', hstrip', hclose]
    simp
  · rintro ⟨before, old, oldLength, between, newLength, behind, rest, hbefore, hold, holdLength,
      hbetween, hstart, hnewLength, hbehind, rfl⟩
    have plus : isDigit '+' = false ∧ '+' ≠ ',' := by decide
    have close : isDigit '@' = false ∧ '@' ≠ ',' := by decide
    let tail := start ++ newLength ++ behind ++ '@' :: '@' :: rest
    have htail : start ++ newLength ++ behind ++ "@@".toList ++ rest = tail := List.append_assoc ..
    obtain ⟨hdigits, hskip⟩ := digits?_append hold holdLength hbetween plus tail
    obtain ⟨hdigits', hskip'⟩ := digits?_append hstart hnewLength hbehind close ('@' :: rest)
    rw [htail]
    refine ⟨_, List.append_assoc .., _, stripStart_blanks hbefore (by decide) _, (_, _),
      hdigits, tail, ?_, (_, _), hdigits', rest, ?_, rfl⟩
    · rw [hskip]
      exact stripStart_blanks hbetween (by decide) _
    · rw [hskip']
      exact stripStart_blanks hbehind (by decide) _

theorem IsHunkHeader.isNumber {line start : List Char} (h : IsHunkHeader line start) :
    IsNumber start := by
  obtain ⟨_, _, _, _, _, _, _, -, -, -, -, hstart, -⟩ := h
  exact hstart

/-- **A header has a start in the new version unless the start has too many digits.** -/
theorem hunkStart?_of_isHunkHeader {line start : List Char} (h : IsHunkHeader line start) :
    (digitLimit < start.length ∧ hunkStart? line = .error (.tooLong start.length)) ∨
      (start.length ≤ digitLimit ∧ ∃ n, hunkStart? line = .ok n) := by
  obtain ⟨hne, hall⟩ := h.isNumber
  obtain ⟨n, hread⟩ := readInteger_digits hne hall
  unfold hunkStart?
  rw [hunkDigits?_eq_some_iff.2 h]
  dsimp only
  rw [hread]
  by_cases hlong : digitLimit < start.length
  · rw [if_pos hlong]
    exact .inl ⟨hlong, rfl⟩
  · rw [if_neg hlong]
    exact .inr ⟨Nat.le_of_not_lt hlong, _, rfl⟩

/-- A line is refused for a start with too many digits and for nothing else. -/
theorem hunkStart?_eq_error_iff {line : List Char} {e : IntegerError} :
    hunkStart? line = .error e ↔
      ∃ start, IsHunkHeader line start ∧ digitLimit < start.length ∧ e = .tooLong start.length := by
  constructor
  · intro h
    cases hd : hunkDigits? line with
    | none =>
      unfold hunkStart? at h
      rw [hd] at h
      cases h
    | some start =>
      have header := hunkDigits?_eq_some_iff.1 hd
      obtain ⟨hlong, herror⟩ | ⟨-, n, hok⟩ := hunkStart?_of_isHunkHeader header
      · rw [herror] at h
        cases h
        exact ⟨start, header, hlong, rfl⟩
      · rw [hok] at h
        cases h
  · rintro ⟨start, header, hlong, rfl⟩
    obtain ⟨-, herror⟩ | ⟨hshort, -⟩ := hunkStart?_of_isHunkHeader header
    · exact herror
    · omega

end ActionItems.Diff
