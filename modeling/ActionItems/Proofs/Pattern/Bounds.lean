import ActionItems.Proofs.Pattern.Escape
import Mathlib.Data.List.TakeWhile

/-!
# How far bounds go

Bounds of a repetition are a number, or two with a comma between them that may be left out, up to a
closing brace (`bounds?_eq_some_iff`). A text that goes on with neither digits, nor a comma, nor a
brace does not touch bounds or a brace that stands for itself (`bounds?_append`). Bounds are refused
because a number is too large to be counted or has too many digits (`exists_values_iff`).
-/

namespace ActionItems.Pattern

open ActionItems.Number

variable {s after : List Char}

/-! ### Texts that go on after bounds -/

/-- A character that neither digits nor bounds nor a possessive repetition go on with. -/
structure IsInert (c : Char) : Prop where
  digit : ¬ IsHexDigit c
  mark : c ≠ ',' ∧ c ≠ '\x7d' ∧ c ≠ '+' ∧ c ≠ '\\'

theorem isInert_letter : IsInert 'y' := ⟨by unfold IsHexDigit; decide, by decide⟩

theorem isInert_brace : IsInert '\x7b' := ⟨by unfold IsHexDigit; decide, by decide⟩

/-- The digits at the start of a text end before an inert character. -/
theorem digits_append {c : Char} (hc : IsInert c) (s t : List Char) :
    digitsUpTo 10 (s ++ c :: t).length (s ++ c :: t) =
      ((digitsUpTo 10 s.length s).1, (digitsUpTo 10 s.length s).2 ++ c :: t) := by
  have nodigit : ∀ d ∈ (c :: t).head?, ¬ IsHexDigit d := by
    rintro d ⟨⟩
    exact hc.digit
  rw [digitsUpTo_append (by decide) _ s nodigit, digitsUpTo_of_length_le]
  rw [List.length_append]
  omega

/-- The end of bounds. -/
def close? (b : Bounds) : List Char → Option (Bounds × List Char)
  | '\x7d' :: after => some (b, after)
  | _ => none

/-- The bounds of a repetition, the digits of the first one read. -/
def afterLeast? (least : List Nat) : List Char → Option (Bounds × List Char)
  | ',' :: more =>
    close? ⟨least, (digitsUpTo 10 more.length more).1⟩ (digitsUpTo 10 more.length more).2
  | rest => close? ⟨least, least⟩ rest

theorem bounds?_eq (s : List Char) : bounds? s =
    if s.head? = some '\x7d' then none
    else afterLeast? (digitsUpTo 10 s.length s).1 (digitsUpTo 10 s.length s).2 := by
  unfold bounds?
  by_cases empty : s.head? = some '\x7d'
  · rw [if_pos empty, if_pos empty]
  · rw [if_neg empty, if_neg empty]
    dsimp only
    cases (digitsUpTo 10 s.length s).2 with
    | nil => rfl
    | cons d rest =>
      by_cases hd : d = ','
      · subst hd
        rfl
      · by_cases hb : d = '\x7d' <;> simp [afterLeast?, close?, hd, hb]

theorem close?_append {c : Char} (hc : c ≠ '\x7d') (b : Bounds) (s t : List Char) :
    close? b (s ++ c :: t) = (close? b s).map fun (b, after) => (b, after ++ c :: t) := by
  cases s with
  | nil => simp [close?, hc]
  | cons d s => by_cases hd : d = '\x7d' <;> simp [close?, hd]

/-- **Bounds end at their closing brace**, and a brace that stands for itself does so whatever the
text goes on with after an inert character. -/
theorem bounds?_append {c : Char} (hc : IsInert c) (s t : List Char) :
    bounds? (s ++ c :: t) = (bounds? s).map fun (b, after) => (b, after ++ c :: t) := by
  obtain ⟨comma, brace, -, -⟩ := hc.mark
  have head : (s ++ c :: t).head? = some '\x7d' ↔ s.head? = some '\x7d' := by
    cases s <;> simp [brace]
  rw [bounds?_eq, bounds?_eq, digits_append hc]
  by_cases empty : s.head? = some '\x7d'
  · rw [if_pos empty, if_pos (head.2 empty)]
    rfl
  · rw [if_neg empty, if_neg (fun h => empty (head.1 h))]
    generalize (digitsUpTo 10 s.length s).1 = least
    dsimp only
    cases (digitsUpTo 10 s.length s).2 with
    | nil => simp [afterLeast?, close?, comma, brace]
    | cons d rest =>
      by_cases hd : d = ','
      · subst hd
        have comma (rest : List Char) : afterLeast? least (',' :: rest) =
          close? ⟨least, (digitsUpTo 10 rest.length rest).1⟩ (digitsUpTo 10 rest.length rest).2 :=
            rfl
        rw [List.cons_append, comma, comma, digits_append hc]
        exact close?_append brace _ _ t
      · have plain (rest : List Char) : afterLeast? least (d :: rest) =
            close? ⟨least, least⟩ (d :: rest) := by
          simp [afterLeast?, hd]
        rw [List.cons_append, plain, plain]
        exact close?_append brace _ (d :: rest) t

/-! ### Bounds as they are written -/

/-- A text of decimal digits, which may be empty. -/
def IsNumeral (s : List Char) : Prop := ∀ c ∈ s, c.isDigit = true

/-- The values of decimal digits. -/
def digitValues (s : List Char) : List Nat := s.map fun c => c.toNat - 48

theorem isNumeral_takeWhile (s : List Char) : IsNumeral (s.takeWhile Char.isDigit) := fun _ h =>
  List.mem_takeWhile_imp h

theorem digitsUpTo_ten (s : List Char) :
    digitsUpTo 10 s.length s =
      (digitValues (s.takeWhile Char.isDigit), s.dropWhile Char.isDigit) := by
  induction s with
  | nil => rfl
  | cons c s ih =>
    by_cases digit : c.isDigit = true
    · have value : asciiDigit? 10 c = some (c.toNat - 48) := asciiDigit?_ten_iff.2 ⟨digit, rfl⟩
      simp only [List.length_cons, digitsUpTo, value, ih, List.takeWhile_cons_of_pos digit,
        List.dropWhile_cons_of_pos digit, digitValues, List.map_cons]
    · have value : asciiDigit? 10 c = none :=
        Option.eq_none_iff_forall_ne_some.2 fun d hd => digit (asciiDigit?_ten_iff.1 hd).1
      simp only [List.length_cons, digitsUpTo, value, List.takeWhile_cons_of_neg digit,
        List.dropWhile_cons_of_neg digit, digitValues, List.map_nil]

theorem digitsUpTo_numeral {n t : List Char} (hn : IsNumeral n) {c : Char}
    (hc : c.isDigit = false) :
    digitsUpTo 10 (n ++ c :: t).length (n ++ c :: t) = (digitValues n, c :: t) := by
  have stop : ¬ c.isDigit = true := Bool.eq_false_iff.1 hc
  rw [digitsUpTo_ten, List.takeWhile_append_of_pos hn, List.dropWhile_append_of_pos hn,
    List.takeWhile_cons_of_neg stop, List.dropWhile_cons_of_neg stop, List.append_nil]

/-- How bounds are written. -/
inductive Writes : List Char → Bounds → Prop
  | number {n : List Char} (given : n ≠ []) (digits : IsNumeral n) :
    Writes n ⟨digitValues n, digitValues n⟩
  | range {least greatest : List Char} (digits : IsNumeral least) (digits' : IsNumeral greatest) :
    Writes (least ++ ',' :: greatest) ⟨digitValues least, digitValues greatest⟩

theorem close?_eq_some_iff {b b' : Bounds} :
    close? b s = some (b', after) ↔ s = '\x7d' :: after ∧ b = b' := by
  unfold close?
  split
  · simp [and_comm]
  · next plain => simpa using fun hs => absurd hs (plain _)

theorem writes_of_bounds? {b : Bounds} (h : bounds? s = some (b, after)) :
    ∃ text, s = text ++ '\x7d' :: after ∧ Writes text b := by
  rw [bounds?_eq] at h
  split at h
  · cases h
  · next head =>
    rw [digitsUpTo_ten] at h
    have parts := List.takeWhile_append_dropWhile (p := Char.isDigit) (l := s)
    have digits := isNumeral_takeWhile s
    generalize s.takeWhile Char.isDigit = least at h parts digits
    generalize s.dropWhile Char.isDigit = rest at h parts
    subst parts
    unfold afterLeast? at h
    dsimp only at h
    split at h
    · next more =>
      rw [digitsUpTo_ten] at h
      have parts := List.takeWhile_append_dropWhile (p := Char.isDigit) (l := more)
      have digits' := isNumeral_takeWhile more
      obtain ⟨closed, rfl⟩ := close?_eq_some_iff.1 h
      dsimp only at closed
      rw [closed] at parts
      refine ⟨least ++ ',' :: more.takeWhile Char.isDigit, ?_, .range digits digits'⟩
      rw [List.append_assoc, List.cons_append, parts]
    · obtain ⟨rfl, rfl⟩ := close?_eq_some_iff.1 h
      refine ⟨least, rfl, .number ?_ digits⟩
      rintro rfl
      exact head rfl

theorem bounds?_of_writes {text : List Char} {b : Bounds} (h : Writes text b) (after : List Char) :
    bounds? (text ++ '\x7d' :: after) = some (b, after) := by
  rw [bounds?_eq]
  cases h with
  | number given digits =>
    obtain ⟨c, n, rfl⟩ := List.exists_cons_of_ne_nil given
    have head : (c :: n ++ '\x7d' :: after).head? ≠ some '\x7d' := by
      rintro ⟨⟩
      exact absurd (digits _ (List.mem_cons_self ..)) (by decide)
    rw [if_neg head, digitsUpTo_numeral digits (by decide)]
    rfl
  | @range least greatest digits digits' =>
    have head : (least ++ ',' :: greatest ++ '\x7d' :: after).head? ≠ some '\x7d' := by
      cases least with
      | nil => simp
      | cons c least =>
        rintro ⟨⟩
        exact absurd (digits _ (List.mem_cons_self ..)) (by decide)
    rw [if_neg head, List.append_assoc, List.cons_append, digitsUpTo_numeral digits (by decide)]
    show close? ⟨_, (digitsUpTo 10 (greatest ++ '\x7d' :: after).length
        (greatest ++ '\x7d' :: after)).1⟩
      (digitsUpTo 10 (greatest ++ '\x7d' :: after).length (greatest ++ '\x7d' :: after)).2 = _
    rw [digitsUpTo_numeral digits' (by decide)]
    rfl

/-- **Bounds are digits, or digits and digits after a comma**, up to a closing brace. -/
theorem bounds?_eq_some_iff {b : Bounds} :
    bounds? s = some (b, after) ↔ ∃ text, s = text ++ '\x7d' :: after ∧ Writes text b := by
  constructor
  · exact writes_of_bounds?
  · rintro ⟨text, rfl, written⟩
    exact bounds?_of_writes written after

theorem suffix_of_bounds? {b : Bounds} (h : bounds? s = some (b, after)) :
    ∃ taken, s = taken ++ after := by
  obtain ⟨text, rfl, -⟩ := bounds?_eq_some_iff.1 h
  exact ⟨text ++ ['\x7d'], by simp⟩

/-! ### Bounds that are refused -/

/-- A number that no bound can be, and why. -/
inductive Outsized (n : List Char) : ReadError → Prop
  | long (long : digitLimit < n.length) : Outsized n (.number (.tooLong n.length))
  | large (counted : n.length ≤ digitLimit) (large : repetitionLimit ≤ Nat.ofDigitChars 10 n 0) :
    Outsized n .repetition

/-- Bounds of which a number is refused: the only one, the first one, or the second one after a
first one that is not refused. -/
inductive OutsizedBounds : List Char → ReadError → Prop
  | number {n : List Char} {e : ReadError} (digits : IsNumeral n) (outsized : Outsized n e) :
    OutsizedBounds n e
  | least {least greatest : List Char} {e : ReadError} (digits : IsNumeral least)
    (digits' : IsNumeral greatest) (outsized : Outsized least e) :
    OutsizedBounds (least ++ ',' :: greatest) e
  | greatest {least greatest : List Char} {e : ReadError} (digits : IsNumeral least)
    (digits' : IsNumeral greatest) (counted : ∀ e, ¬ Outsized least e)
    (outsized : Outsized greatest e) :
    OutsizedBounds (least ++ ',' :: greatest) e

theorem not_outsized_malformed {text : List Char} : ¬ OutsizedBounds text .malformed := by
  rintro (⟨-, ⟨⟩⟩ | ⟨-, -, ⟨⟩⟩ | ⟨-, -, -, ⟨⟩⟩)

theorem digitsValue_digitValues (n : List Char) :
    digitsValue 10 (digitValues n) = Nat.ofDigitChars 10 n 0 := by
  unfold digitsValue digitValues Nat.ofDigitChars
  rw [List.foldl_map]
  rfl

theorem boundValue_eq_error_iff {n : List Char} {e : ReadError} :
    boundValue (digitValues n) = .error e ↔ Outsized n e := by
  have length : (digitValues n).length = n.length := List.length_map _
  unfold boundValue
  rw [digitsValue_digitValues, length]
  constructor
  · intro h
    split at h
    · next long =>
      cases h
      exact .long long
    · next long =>
      dsimp only at h
      split at h
      · next large =>
        cases h
        exact .large (Nat.le_of_not_lt long) large
      · cases h
  · intro h
    cases h with
    | long long => exact if_pos long
    | large counted large =>
      rw [if_neg (Nat.not_lt.2 counted)]
      exact if_pos large

theorem not_outsized_nil {e : ReadError} : ¬ Outsized [] e := by
  rw [← boundValue_eq_error_iff]
  exact nofun

theorem values_eq (least greatest : List Char) :
    Bounds.values ⟨digitValues least, digitValues greatest⟩ =
      boundValue (digitValues least) >>= fun v =>
        if greatest = [] then .ok (v, none)
        else boundValue (digitValues greatest) >>= fun w =>
          if w < v then .error .malformed else .ok (v, some w) := by
  have rest (v : Nat) : (do
      if (digitValues greatest).isEmpty then return (v, none)
      let w ← boundValue (digitValues greatest)
      if w < v then throw .malformed
      return (v, some w) : Except ReadError (Nat × Option Nat)) =
        if greatest = [] then .ok (v, none)
        else boundValue (digitValues greatest) >>= fun w =>
          if w < v then .error .malformed else .ok (v, some w) := by
    cases greatest with
    | nil => rfl
    | cons c greatest =>
      show (boundValue (digitValues (c :: greatest)) >>= _) =
          boundValue (digitValues (c :: greatest)) >>= _
      refine congrArg _ (funext fun w => ?_)
      by_cases order : w < v
      · rw [if_pos order, if_pos order]
        rfl
      · rw [if_neg order, if_neg order]
        rfl
  cases least with
  | nil => exact rest 0
  | cons c least => exact congrArg (boundValue (digitValues (c :: least)) >>= ·) (funext rest)

/-- Bounds are refused because of the first number, or because of the second one if the first one is
not refused. -/
theorem values_eq_error_iff {least greatest : List Char} {e : ReadError} (he : e ≠ .malformed) :
    Bounds.values ⟨digitValues least, digitValues greatest⟩ = .error e ↔
      Outsized least e ∨ (∀ e, ¬ Outsized least e) ∧ Outsized greatest e := by
  simp only [← boundValue_eq_error_iff, values_eq]
  cases boundValue (digitValues least) with
  | error e' => simp [bind, Except.bind]
  | ok v =>
    simp only [bind, Except.bind]
    split
    · next given =>
      subst given
      have := boundValue_eq_error_iff.not.2 (not_outsized_nil (e := e))
      simp [this]
    · cases boundValue (digitValues greatest) with
      | error e' => simp
      | ok w => by_cases order : w < v <;> simp [order, he.symm]

/-- **Bounds are refused if one of their numbers is outsized.** -/
theorem exists_values_iff {text : List Char} {e : ReadError} (he : e ≠ .malformed) :
    (∃ b, Writes text b ∧ b.values = .error e) ↔ OutsizedBounds text e := by
  constructor
  · rintro ⟨b, written, values⟩
    cases written with
    | number given digits =>
      rcases (values_eq_error_iff he).1 values with outsized | ⟨-, outsized⟩
      · exact .number digits outsized
      · exact .number digits outsized
    | range digits digits' =>
      rcases (values_eq_error_iff he).1 values with outsized | ⟨counted, outsized⟩
      · exact .least digits digits' outsized
      · exact .greatest digits digits' counted outsized
  · intro h
    cases h with
    | number digits outsized =>
      refine ⟨_, .number ?_ digits, (values_eq_error_iff he).2 (.inl outsized)⟩
      rintro rfl
      exact not_outsized_nil outsized
    | least digits digits' outsized =>
      exact ⟨_, .range digits digits', (values_eq_error_iff he).2 (.inl outsized)⟩
    | greatest digits digits' counted outsized =>
      exact ⟨_, .range digits digits', (values_eq_error_iff he).2 (.inr ⟨counted, outsized⟩)⟩

end ActionItems.Pattern
