import ActionItems.Json.Reader
import ActionItems.Proofs.Number.Floating
import Mathlib.Data.List.TakeWhile

/-!
# Numbers in a JSON text

A number is written as a whole part, with a minus sign in front of it if it is negative, and perhaps
a fraction and an exponent behind it. The reader takes of each part as much as there is (`Longest`),
and so finds the one number that stands at the start of a text (`numeralAt?_eq_some_iff`).
-/

namespace ActionItems.Json

open ActionItems.Number (IsDecimal digitLimit exists_readFloat? readFloat? readInteger
  readInteger_withSign withSign)
open ActionItems.Text (isDigit_of_isDigit)

variable {P : List Nat → Prop} {s part part' rest rest' : List Nat}

/-! ### As much as there is -/

/-- A text begins with `part`, and with nothing longer that `P` holds of; if it holds of no
beginning, `part` is empty. -/
structure Longest (P : List Nat → Prop) (part rest : List Nat) : Prop where
  valid : part = [] ∨ P part
  greatest : ∀ t, t <+: part ++ rest → P t → t.length ≤ part.length

theorem Longest.unique (h : Longest P part rest) (h' : Longest P part' rest')
    (same : part ++ rest = part' ++ rest') : part = part' ∧ rest = rest' := by
  have length_le {part part' rest rest' : List Nat} (h : Longest P part rest)
      (h' : Longest P part' rest') (same : part ++ rest = part' ++ rest') :
      part'.length ≤ part.length := by
    obtain rfl | valid := h'.valid
    · exact Nat.zero_le _
    · exact h.greatest part' (same ▸ List.prefix_append part' rest') valid
  exact List.append_inj same (Nat.le_antisymm (length_le h' h same.symm) (length_le h h' same))

theorem Longest.of_none (h : ∀ t, t <+: s → ¬ P t) : Longest P [] s :=
  ⟨.inl rfl, fun t ht valid => absurd valid (h t ht)⟩

/-! ### The parts of a number -/

/-- Digits, at least one. -/
def IsDigits (s : List Nat) : Prop := s ≠ [] ∧ ∀ n ∈ s, isDigit n = true

/-- A zero, or digits that do not begin with one. -/
def IsWhole (s : List Nat) : Prop := s = [0x30] ∨ (IsDigits s ∧ s.head? ≠ some 0x30)

/-- Digits behind a point. -/
def IsFraction (s : List Nat) : Prop := ∃ digits, s = 0x2E :: digits ∧ IsDigits digits

/-- Digits behind a mark and perhaps a sign. -/
def IsExponent (s : List Nat) : Prop :=
  ∃ mark sign digits, s = mark :: (sign ++ digits) ∧ mark ∈ [0x65, 0x45] ∧
    sign ∈ [[], [0x2B], [0x2D]] ∧ IsDigits digits

theorem append_digitsAt (s : List Nat) : (digitsAt s).1 ++ (digitsAt s).2 = s := by
  rw [digitsAt, List.span_eq_takeWhile_dropWhile, List.takeWhile_append_dropWhile]

theorem isDigit_of_mem_digitsAt {n : Nat} (h : n ∈ (digitsAt s).1) : isDigit n = true := by
  rw [digitsAt, List.span_eq_takeWhile_dropWhile] at h
  exact List.mem_takeWhile_imp h

theorem length_le_digitsAt {t : List Nat} (ht : t <+: s) (digits : IsDigits t) :
    t.length ≤ (digitsAt s).1.length := by
  obtain ⟨more, rfl⟩ := ht
  rw [digitsAt, List.span_eq_takeWhile_dropWhile, List.takeWhile_append_of_pos digits.2,
    List.length_append]
  exact Nat.le_add_right _ _

theorem digitsAt_cases (s : List Nat) :
    ((digitsAt s).1 = [] ∧ ∀ t, t <+: s → ¬ IsDigits t) ∨ IsDigits (digitsAt s).1 := by
  by_cases h : (digitsAt s).1 = []
  · refine .inl ⟨h, fun t ht digits => digits.1 ?_⟩
    have := length_le_digitsAt ht digits
    rwa [h, List.length_nil, Nat.le_zero, List.length_eq_zero_iff] at this
  · exact .inr ⟨h, fun _ => isDigit_of_mem_digitsAt⟩

theorem IsWhole.exists_cons (h : IsWhole s) : ∃ n t, s = n :: t ∧ isDigit n = true := by
  obtain rfl | ⟨digits, -⟩ := h
  · exact ⟨_, _, rfl, by decide⟩
  · obtain ⟨n, t, rfl⟩ := List.exists_cons_of_ne_nil digits.1
    exact ⟨n, t, rfl, digits.2 n (by simp)⟩

/-- A zero is a whole part, whatever follows it. -/
theorem longest_zero (rest : List Nat) : Longest IsWhole [0x30] rest := by
  refine ⟨.inr (.inl rfl), fun t ht valid => ?_⟩
  obtain rfl | ⟨⟨hne, -⟩, hzero⟩ := valid
  · exact Nat.le_refl _
  · obtain ⟨n, t, rfl⟩ := List.exists_cons_of_ne_nil hne
    obtain ⟨rfl, -⟩ := List.cons_prefix_cons.1 ht
    exact absurd rfl hzero

theorem longest_nonzero {n : Nat} (digit : isDigit n = true) (hn : n ≠ 0x30) (more : List Nat) :
    IsWhole (digitsAt (n :: more)).1 ∧
      Longest IsWhole (digitsAt (n :: more)).1 (digitsAt (n :: more)).2 := by
  have text := append_digitsAt (n :: more)
  have nonzero {t : List Nat} (ht : t <+: n :: more) : t.head? ≠ some 0x30 := by
    intro hhead
    obtain ⟨t, rfl⟩ := List.head?_eq_some_iff.1 hhead
    exact hn (List.cons_prefix_cons.1 ht).1.symm
  have digits : IsDigits (digitsAt (n :: more)).1 := by
    refine (digitsAt_cases _).resolve_left fun ⟨_, absent⟩ =>
      absent [n] (List.prefix_append [n] more) ?_
    exact ⟨List.cons_ne_nil n [], by simpa using digit⟩
  have whole : IsWhole (digitsAt (n :: more)).1 := .inr ⟨digits, nonzero ⟨_, text⟩⟩
  refine ⟨whole, .inr whole, fun t ht valid => ?_⟩
  rw [text] at ht
  obtain rfl | ⟨digits', -⟩ := valid
  · exact absurd rfl (nonzero ht)
  · exact length_le_digitsAt ht digits'

theorem wholeAt?_eq_some (h : wholeAt? s = some (part, rest)) :
    part ++ rest = s ∧ IsWhole part ∧ Longest IsWhole part rest := by
  unfold wholeAt? at h
  split at h
  · cases h
    exact ⟨rfl, .inl rfl, longest_zero rest⟩
  · next n more hzero =>
    split at h
    · next digit =>
      have found := Option.some.inj h
      have longest := longest_nonzero digit hzero more
      have text := append_digitsAt (n :: more)
      rw [found] at longest text
      exact ⟨text, longest⟩
    · cases h
  · cases h

theorem wholeAt?_eq_none (h : wholeAt? s = none) {t : List Nat} (ht : t <+: s) : ¬ IsWhole t := by
  intro valid
  obtain ⟨n, t, rfl, digit⟩ := valid.exists_cons
  obtain ⟨more, rfl⟩ := ht
  unfold wholeAt? at h
  split at h
  · cases h
  · next hcons =>
    cases hcons
    rw [if_pos digit] at h
    cases h
  · next hnil => cases hnil

/-- The digits behind `head`, with it, and the rest; nothing if there are none. -/
def digitsBehind (head more : List Nat) : List Nat × List Nat :=
  match digitsAt more with
  | ([], _) => ([], head ++ more)
  | (digits, after) => (head ++ digits, after)

theorem longest_digitsBehind (head more : List Nat)
    (hP : ∀ t, t <+: head ++ more → (P t ↔ ∃ digits, t = head ++ digits ∧ IsDigits digits)) :
    (digitsBehind head more).1 ++ (digitsBehind head more).2 = head ++ more ∧
      Longest P (digitsBehind head more).1 (digitsBehind head more).2 := by
  have text := append_digitsAt more
  unfold digitsBehind
  split
  · next after found =>
    obtain ⟨-, absent⟩ | digits := digitsAt_cases more
    · refine ⟨rfl, .of_none fun t ht valid => ?_⟩
      obtain ⟨digits, rfl, hdigits⟩ := (hP t ht).1 valid
      exact absent digits ((List.prefix_append_right_inj head).1 ht) hdigits
    · rw [found] at digits
      exact absurd rfl digits.1
  · next digits after hne found =>
    rw [found] at text
    have same : (head ++ digits) ++ after = head ++ more := by rw [List.append_assoc, text]
    refine ⟨same, .inr ?_, fun t ht valid => ?_⟩
    · refine (hP _ ⟨after, same⟩).2 ⟨digits, rfl, ?_⟩
      obtain ⟨hnil, -⟩ | hdigits := digitsAt_cases more
      · rw [found] at hnil
        exact absurd hnil hne
      · rwa [found] at hdigits
    · rw [same] at ht
      obtain ⟨digits', rfl, hdigits'⟩ := (hP t ht).1 valid
      have := length_le_digitsAt ((List.prefix_append_right_inj head).1 ht) hdigits'
      rw [found] at this
      rw [List.length_append, List.length_append]
      exact Nat.add_le_add_left this _

theorem longest_fractionAt (s : List Nat) :
    (fractionAt s).1 ++ (fractionAt s).2 = s ∧
      Longest IsFraction (fractionAt s).1 (fractionAt s).2 := by
  by_cases hpoint : ∃ more, s = 0x2E :: more
  · obtain ⟨more, rfl⟩ := hpoint
    exact longest_digitsBehind [0x2E] more fun t _ => Iff.rfl
  · have none : fractionAt s = ([], s) := by
      unfold fractionAt
      split
      · next more => exact absurd ⟨more, rfl⟩ hpoint
      · rfl
    rw [none]
    refine ⟨rfl, .of_none ?_⟩
    rintro _ ⟨more, rfl⟩ ⟨digits, rfl, -⟩
    exact hpoint ⟨_, rfl⟩

/-- The sign at the start of the text behind the mark of an exponent, and the text after it. -/
def exponentSign (s : List Nat) : List Nat × List Nat :=
  match s with
  | n :: more => if n = 0x2B || n = 0x2D then ([n], more) else ([], s)
  | [] => ([], s)

theorem append_exponentSign (s : List Nat) : (exponentSign s).1 ++ (exponentSign s).2 = s := by
  unfold exponentSign
  split
  · split <;> rfl
  · rfl

theorem exponentSign_append {sign digits : List Nat} (hsign : sign ∈ [[], [0x2B], [0x2D]])
    (hdigits : IsDigits digits) (more : List Nat) :
    exponentSign (sign ++ (digits ++ more)) = (sign, digits ++ more) := by
  obtain ⟨n, digits, rfl⟩ := List.exists_cons_of_ne_nil hdigits.1
  have digit := hdigits.2 n (by simp)
  simp only [List.mem_cons, List.not_mem_nil, or_false] at hsign
  obtain rfl | rfl | rfl := hsign
  · refine if_neg fun h => ?_
    obtain rfl | rfl : n = 0x2B ∨ n = 0x2D := by simpa using h
    · exact absurd digit (by decide)
    · exact absurd digit (by decide)
  · rfl
  · rfl

theorem mem_exponentSign (s : List Nat) : (exponentSign s).1 ∈ [[], [0x2B], [0x2D]] := by
  unfold exponentSign
  split
  · next n more =>
    split
    · next h =>
      obtain rfl | rfl : n = 0x2B ∨ n = 0x2D := by simpa using h
      · simp
      · simp
    · simp
  · simp

theorem cons_exponentSign (m : Nat) (more : List Nat) :
    (m :: (exponentSign more).1) ++ (exponentSign more).2 = m :: more := by
  rw [List.cons_append, append_exponentSign]

theorem exponentAt_mark {m : Nat} (hm : m ∈ [0x65, 0x45]) (more : List Nat) :
    exponentAt (m :: more) = digitsBehind (m :: (exponentSign more).1) (exponentSign more).2 := by
  have marks : (m = 0x65 || m = 0x45) = true := by simpa using hm
  show (if (m = 0x65 || m = 0x45) = true then _ else _) = _
  rw [if_pos marks, digitsBehind, cons_exponentSign]
  rfl

theorem exponentAt_of_not (h : ∀ m more, s = m :: more → m ∉ [0x65, 0x45]) :
    exponentAt s = ([], s) := by
  cases s with
  | nil => rfl
  | cons m more => exact if_neg (by simpa using h m more rfl)

theorem longest_exponentAt (s : List Nat) :
    (exponentAt s).1 ++ (exponentAt s).2 = s ∧
      Longest IsExponent (exponentAt s).1 (exponentAt s).2 := by
  by_cases hmark : ∃ m more, s = m :: more ∧ m ∈ [0x65, 0x45]
  · obtain ⟨m, more, rfl, hm⟩ := hmark
    rw [exponentAt_mark hm, ← cons_exponentSign m more]
    refine longest_digitsBehind _ _ fun t ht => ?_
    rw [cons_exponentSign] at ht
    constructor
    · rintro ⟨mark, sign, digits, rfl, -, hsign, hdigits⟩
      obtain ⟨rfl, after, rfl⟩ := List.cons_prefix_cons.1 ht
      rw [List.append_assoc, exponentSign_append hsign hdigits]
      exact ⟨digits, rfl, hdigits⟩
    · rintro ⟨digits, rfl, hdigits⟩
      exact ⟨m, _, digits, rfl, hm, mem_exponentSign more, hdigits⟩
  · push Not at hmark
    rw [exponentAt_of_not hmark]
    refine ⟨rfl, .of_none ?_⟩
    rintro _ ⟨more, rfl⟩ ⟨mark, sign, digits, rfl, hm, -⟩
    exact hmark mark _ rfl hm

/-! ### Numbers -/

/-- A number as it is written. -/
structure Numeral where
  sign : List Nat
  whole : List Nat
  fraction : List Nat
  exponent : List Nat

/-- The number stands at the start of a text, and `rest` behind it: every part of it is all that
there is of one. -/
structure Numeral.At (m : Numeral) (s rest : List Nat) : Prop where
  text : s = m.sign ++ (m.whole ++ (m.fraction ++ (m.exponent ++ rest)))
  sign : m.sign = [] ∨ m.sign = [0x2D]
  isWhole : IsWhole m.whole
  whole : Longest IsWhole m.whole (m.fraction ++ (m.exponent ++ rest))
  fraction : Longest IsFraction m.fraction (m.exponent ++ rest)
  exponent : Longest IsExponent m.exponent rest

/-- The sign at the start of a text, and the text after it. -/
def signAt (s : List Nat) : List Nat × List Nat :=
  match s with
  | 0x2D :: more => ([0x2D], more)
  | _ => ([], s)

/-- The number at the start of a text, and the text behind it. -/
def numeralAt? (s : List Nat) : Option (Numeral × List Nat) :=
  (wholeAt? (signAt s).2).map fun (whole, more) =>
    (⟨(signAt s).1, whole, (fractionAt more).1, (exponentAt (fractionAt more).2).1⟩,
      (exponentAt (fractionAt more).2).2)

theorem signAt_cons {n : Nat} (hn : n ≠ 0x2D) (t : List Nat) : signAt (n :: t) = ([], n :: t) := by
  unfold signAt
  split
  · next h => exact absurd (List.cons.inj h).1 hn
  · rfl

theorem signAt_append {sign : List Nat} (hsign : sign = [] ∨ sign = [0x2D]) (hwhole : IsWhole part)
    (more : List Nat) : signAt (sign ++ (part ++ more)) = (sign, part ++ more) := by
  obtain ⟨n, t, rfl, digit⟩ := hwhole.exists_cons
  obtain rfl | rfl := hsign
  · refine signAt_cons ?_ _
    rintro rfl
    exact absurd digit (by decide)
  · rfl

theorem append_signAt (s : List Nat) : (signAt s).1 ++ (signAt s).2 = s := by
  unfold signAt
  split <;> rfl

theorem signAt_cases (s : List Nat) : (signAt s).1 = [] ∨ (signAt s).1 = [0x2D] := by
  unfold signAt
  split
  · exact .inr rfl
  · exact .inl rfl

/-- **The number at the start of a text is found, if there is one.** -/
theorem numeralAt?_eq_some_iff {m : Numeral} : numeralAt? s = some (m, rest) ↔ m.At s rest := by
  constructor
  · intro h
    obtain ⟨⟨whole, more⟩, hwhole, hm⟩ := Option.map_eq_some_iff.1 h
    obtain ⟨textWhole, isWhole, longest⟩ := wholeAt?_eq_some hwhole
    obtain ⟨textFraction, fraction⟩ := longest_fractionAt more
    obtain ⟨textExponent, exponent⟩ := longest_exponentAt (fractionAt more).2
    obtain ⟨rfl, rfl⟩ := Prod.mk.inj hm
    exact {
      text := by rw [textExponent, textFraction, textWhole, append_signAt]
      sign := signAt_cases s
      isWhole
      whole := by rwa [textExponent, textFraction]
      fraction := by rwa [textExponent]
      exponent }
  · intro h
    -- What is found of each part is that part, as both are as long as can be.
    have sign := signAt_append h.sign h.isWhole (m.fraction ++ (m.exponent ++ rest))
    rw [← h.text] at sign
    have whole : wholeAt? (m.whole ++ (m.fraction ++ (m.exponent ++ rest))) =
        some (m.whole, m.fraction ++ (m.exponent ++ rest)) := by
      cases found : wholeAt? (m.whole ++ (m.fraction ++ (m.exponent ++ rest))) with
      | none => exact absurd h.isWhole (wholeAt?_eq_none found (List.prefix_append _ _))
      | some result =>
        obtain ⟨text, -, longest⟩ := wholeAt?_eq_some found
        obtain ⟨hpart, hrest⟩ := longest.unique h.whole text
        rw [← hpart, ← hrest]
    obtain ⟨text, longest⟩ := longest_fractionAt (m.fraction ++ (m.exponent ++ rest))
    obtain ⟨fraction, more⟩ := longest.unique h.fraction text
    obtain ⟨text', longest'⟩ := longest_exponentAt (m.exponent ++ rest)
    obtain ⟨exponent, last⟩ := longest'.unique h.exponent text'
    rw [numeralAt?, sign, whole, Option.map_some]
    dsimp only
    rw [fraction, more, exponent, last]

/-! ### Values of numbers -/

/-- The characters of a number. -/
def Numeral.written (m : Numeral) : List Nat := m.sign ++ m.whole ++ m.fraction ++ m.exponent

/-- A number without a fraction and an exponent is an integer. -/
def Numeral.isInteger (m : Numeral) : Bool := m.fraction.isEmpty && m.exponent.isEmpty

/-- The value of a number, and the cursor behind it. -/
def Numeral.read (m : Numeral) (offset : Nat) (rest : List Nat) : Except Failure (Value × Cursor) :=
  let after : Cursor := ⟨rest, offset + m.written.length⟩
  let chars := m.written.map Char.ofNat
  if m.isInteger then
    match readInteger 10 (String.ofList chars) with
    | .ok i => .ok (.int i, after)
    | .error e => .error (.number e)
  else
    match readFloat? chars with
    | some x => .ok (.float x, after)
    | none => .error (.at .value offset)

theorem number_eq (c : Cursor) : number c =
    (numeralAt? c.rest).elim (.error (.at .value c.offset)) fun found =>
      found.1.read c.offset found.2 := by
  unfold number
  split
  next sign unsigned found =>
    have hsign : signAt c.rest = (sign, unsigned) := found
    rw [numeralAt?, hsign]
    cases wholeAt? unsigned with
    | none => rfl
    | some found => rfl

theorem number_of_at {c : Cursor} {m : Numeral} (h : m.At c.rest rest) :
    number c = m.read c.offset rest := by
  rw [number_eq, numeralAt?_eq_some_iff.2 h, Option.elim_some]

theorem number_of_not_at {c : Cursor} (h : ∀ m rest, ¬ Numeral.At m c.rest rest) :
    number c = .error (.at .value c.offset) := by
  rw [number_eq]
  cases found : numeralAt? c.rest with
  | none => rfl
  | some result => exact absurd (numeralAt?_eq_some_iff.1 found) (h result.1 result.2)

theorem isDigit_ofNat {n : Nat} (h : isDigit n = true) : (Char.ofNat n).isDigit = true := by
  have all : ∀ n ≤ 0x39, isDigit n = true → (Char.ofNat n).isDigit = true := by decide
  refine all n ?_ h
  simp only [isDigit, Bool.and_eq_true, decide_eq_true_eq] at h
  exact h.2

theorem IsDigits.chars (h : IsDigits s) : Number.IsDigits (s.map Char.ofNat) := by
  refine ⟨mt List.map_eq_nil_iff.1 h.1, List.forall_mem_map.2 fun n hn => isDigit_ofNat (h.2 n hn)⟩

theorem IsWhole.chars (h : IsWhole s) : Number.IsDigits (s.map Char.ofNat) := by
  obtain rfl | ⟨digits, -⟩ := h
  · exact ⟨by decide, List.forall_iff_forall_mem.1 (by decide)⟩
  · exact digits.chars

section Values

variable {m : Numeral} (h : m.At s rest)

include h

theorem Numeral.At.isDecimal :
    IsDecimal (m.whole.map Char.ofNat ++
      (m.fraction.map Char.ofNat ++ m.exponent.map Char.ofNat)) := by
  refine ⟨_, _, _, rfl, h.isWhole.chars, ?_, ?_⟩
  · obtain hnil | ⟨digits, hfraction, hdigits⟩ := h.fraction.valid
    · exact .inl (by rw [hnil]; rfl)
    · exact .inr ⟨_, by rw [hfraction]; rfl, hdigits.chars⟩
  · obtain hnil | ⟨mark, sign, digits, hexponent, hmark, hsign, hdigits⟩ := h.exponent.valid
    · exact .inl (by rw [hnil]; rfl)
    · refine .inr ⟨_, _, _,
        by rw [hexponent, List.map_cons, List.map_append], ?_, ?_, hdigits.chars⟩
      · exact List.mem_map_of_mem hmark
      · exact List.mem_map_of_mem hsign

theorem Numeral.At.chars : m.written.map Char.ofNat = withSign (!m.sign.isEmpty)
    (m.whole.map Char.ofNat ++ (m.fraction.map Char.ofNat ++ m.exponent.map Char.ofNat)) := by
  rw [written, List.append_assoc, List.append_assoc]
  obtain hsign | hsign := h.sign
  · rw [hsign]
    simp [withSign]
  · rw [hsign]
    simp [withSign]

/-- Every number is read, but an integer with too many digits is refused for their number. -/
theorem Numeral.At.read_eq (offset : Nat) :
    (m.isInteger = true ∧ digitLimit < m.whole.length ∧
      m.read offset rest = .error (.number (.tooLong m.whole.length))) ∨
    (¬ (m.isInteger = true ∧ digitLimit < m.whole.length) ∧
      ∃ v, m.read offset rest = .ok (v, ⟨rest, offset + m.written.length⟩)) := by
  have decimal := h.isDecimal
  have chars := h.chars
  unfold read
  rw [chars]
  cases integer : m.isInteger with
  | false =>
    obtain ⟨x, hx⟩ := exists_readFloat? (!m.sign.isEmpty) decimal
    refine .inr ⟨fun h => absurd h.1 Bool.false_ne_true, .float x, ?_⟩
    dsimp only
    rw [hx]
    rfl
  | true =>
    obtain ⟨hfraction, hexponent⟩ : m.fraction = [] ∧ m.exponent = [] := by
      simpa [isInteger] using integer
    have digits := h.isWhole.chars
    obtain ⟨n, hn⟩ := readInteger_withSign (!m.sign.isEmpty) digits.1 fun c hc =>
      isDigit_of_isDigit (digits.2 c hc)
    rw [hfraction, hexponent, List.map_nil, List.append_nil, List.append_nil]
    dsimp only
    rw [hn, List.length_map]
    by_cases long : digitLimit < m.whole.length
    · rw [if_pos long]
      exact .inl ⟨rfl, long, rfl⟩
    · rw [if_neg long]
      exact .inr ⟨fun h => long h.2, _, rfl⟩

end Values

/-- An integer of more digits than are converted, `n` of them, stands at the start of a text. -/
def LongInteger (n : Nat) (s : List Nat) : Prop :=
  ∃ m rest, Numeral.At m s rest ∧ m.isInteger = true ∧ m.whole.length = n ∧ digitLimit < n

end ActionItems.Json
