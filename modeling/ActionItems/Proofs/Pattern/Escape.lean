import ActionItems.Pattern.Reader
import ActionItems.Proofs.Number.Decimal

/-!
# How far escapes go

An escape in a pattern ends where its digits do, or with the brace that closes a name: what is read
of it stays the same if the text after it is exchanged for another that does not go on with digits
(`escape?_local`, `setEscape?_local`).
-/

namespace ActionItems.Pattern

open ActionItems.Number

/-! ### Digits -/

theorem asciiDigit?_mono {base base' : Nat} (h : base ≤ base') {c : Char} {d : Nat}
    (hd : asciiDigit? base c = some d) : asciiDigit? base' c = some d := by
  unfold asciiDigit? digitIn? at hd ⊢
  split at hd
  · next ascii =>
    obtain ⟨value, small⟩ := Option.filter_eq_some_iff.1 hd
    have small : d < base' := Nat.lt_of_lt_of_le (of_decide_eq_true small) h
    rw [if_pos ascii]
    exact Option.filter_eq_some_iff.2 ⟨value, decide_eq_true small⟩
  · cases hd

theorem asciiDigit?_ten_iff {c : Char} {d : Nat} :
    asciiDigit? 10 c = some d ↔ c.isDigit = true ∧ d = c.toNat - 48 := by
  constructor
  · intro h
    unfold asciiDigit? digitIn? at h
    split at h
    · next ascii =>
      obtain ⟨value, small⟩ := Option.filter_eq_some_iff.1 h
      have small : d < 10 := of_decide_eq_true small
      have letterA : 'a'.toNat = 97 := rfl
      split at value
      · cases value
        omega
      · split at value
        · cases value
          omega
        · unfold Text.digitValue? at value
          rw [if_pos ascii] at value
          split at value
          · next digit => exact ⟨digit, (Option.some.inj value).symm⟩
          · cases value
    · cases h
  · rintro ⟨digit, rfl⟩
    have ascii : c.toNat < 128 := by
      have := toNat_of_isDigit digit
      omega
    exact (if_pos ascii).trans (digitIn?_of_isDigit digit)

/-- A digit of base sixteen. -/
def IsHexDigit (c : Char) : Prop := (asciiDigit? 16 c).isSome = true

theorem isHexDigit_of_asciiDigit? {base : Nat} (hb : base ≤ 16) {c : Char} {d : Nat}
    (h : asciiDigit? base c = some d) : IsHexDigit c := by
  unfold IsHexDigit
  rw [asciiDigit?_mono hb h]
  rfl

/-- Two texts that digits stop before alike: they begin with the same character, or neither begins
with a digit. -/
def Alike (s t : List Char) : Prop :=
  s.head? = t.head? ∨ (∀ c ∈ s.head?, ¬ IsHexDigit c) ∧ ∀ c ∈ t.head?, ¬ IsHexDigit c

/-- The digit that a text begins with. -/
def headDigit? (base : Nat) (s : List Char) : Option Nat := s.head?.bind (asciiDigit? base)

theorem headDigit?_eq_none {base : Nat} (hb : base ≤ 16) {s : List Char}
    (h : ∀ c ∈ s.head?, ¬ IsHexDigit c) : headDigit? base s = none :=
  Option.bind_eq_none_iff.2 fun c hc => Option.eq_none_iff_forall_ne_some.2 fun _ hd =>
    h c hc (isHexDigit_of_asciiDigit? hb hd)

theorem Alike.headDigit?_eq {base : Nat} (hb : base ≤ 16) {s t : List Char} (h : Alike s t) :
    headDigit? base s = headDigit? base t := by
  obtain same | ⟨hs, ht⟩ := h
  · rw [headDigit?, same, headDigit?]
  · rw [headDigit?_eq_none hb hs, headDigit?_eq_none hb ht]

theorem digitsUpTo_succ (base n : Nat) (s : List Char) : digitsUpTo base (n + 1) s =
    match headDigit? base s with
    | some d => (d :: (digitsUpTo base n s.tail).1, (digitsUpTo base n s.tail).2)
    | none => ([], s) := by
  cases s with
  | nil => rfl
  | cons c s =>
    show _ = match asciiDigit? base c with | some d => _ | none => _
    cases h : asciiDigit? base c <;> simp [digitsUpTo, h]

/-- A reader takes digits off a text, and the same ones whatever comes after them. -/
def TakesDigits {α : Type} (read : List Char → Option (α × List Char)) (s : List Char) (a : α)
    (after : List Char) : Prop :=
  ∃ digits, s = digits ++ after ∧ (∀ c ∈ digits, IsHexDigit c) ∧
    ∀ after', Alike after after' → read (digits ++ after') = some (a, after')

theorem digitsUpTo_local {base : Nat} (hb : base ≤ 16) (n : Nat) (s : List Char) :
    TakesDigits (fun s => some (digitsUpTo base n s)) s (digitsUpTo base n s).1
      (digitsUpTo base n s).2 := by
  induction n generalizing s with
  | zero => exact ⟨[], rfl, by simp, fun after' _ => rfl⟩
  | succ n ih =>
    rw [digitsUpTo_succ]
    cases hd : headDigit? base s with
    | none =>
      refine ⟨[], rfl, by simp, fun after' alike => ?_⟩
      show some (digitsUpTo base (n + 1) after') = _
      rw [digitsUpTo_succ, ← alike.headDigit?_eq hb, hd]
    | some d =>
      obtain ⟨c, hc, digit⟩ := Option.bind_eq_some_iff.1 hd
      obtain ⟨rest, rfl⟩ := List.head?_eq_some_iff.1 hc
      obtain ⟨digits, hs, hdigits, same⟩ := ih rest
      refine ⟨c :: digits, congrArg (c :: ·) hs,
        List.forall_mem_cons.2 ⟨isHexDigit_of_asciiDigit? hb digit, hdigits⟩,
        fun after' alike => ?_⟩
      have := Option.some.inj (same after' alike)
      have first : headDigit? base (c :: (digits ++ after')) = some d := digit
      show some (digitsUpTo base (n + 1) (c :: (digits ++ after'))) = _
      rw [digitsUpTo_succ, first, List.tail_cons, this]
      rfl

theorem digitsUpTo_append {base : Nat} (hb : base ≤ 16) (n : Nat) (s : List Char) {t : List Char}
    (ht : ∀ c ∈ t.head?, ¬ IsHexDigit c) :
    digitsUpTo base n (s ++ t) = ((digitsUpTo base n s).1, (digitsUpTo base n s).2 ++ t) := by
  obtain ⟨digits, hs, -, same⟩ := digitsUpTo_local hb n s
  have alike : Alike (digitsUpTo base n s).2 ((digitsUpTo base n s).2 ++ t) := by
    cases (digitsUpTo base n s).2 with
    | nil => exact .inr ⟨by simp, ht⟩
    | cons c rest => exact .inl rfl
  have := Option.some.inj (same _ alike)
  rwa [← List.append_assoc, ← hs] at this

theorem digitsUpTo_of_length_le {base n : Nat} {s : List Char} (h : s.length ≤ n) :
    digitsUpTo base n s = digitsUpTo base s.length s := by
  induction n generalizing s with
  | zero =>
    obtain rfl : s = [] := List.eq_nil_of_length_eq_zero (Nat.le_zero.1 h)
    rfl
  | succ n ih =>
    cases s with
    | nil => rfl
    | cons c rest => simp only [digitsUpTo, List.length_cons, ih (Nat.le_of_succ_le_succ h)]

/-! ### Escapes -/

section

variable {α β : Type} {read : List Char → Option (α × List Char)} {s after : List Char} {a : α}

theorem TakesDigits.congr {read' : List Char → Option (α × List Char)}
    (h : TakesDigits read s a after) (eq : ∀ s, read' s = read s) :
    TakesDigits read' s a after := by
  obtain rfl : read' = read := funext eq
  exact h

theorem takesDigits_nil (a : α) (s : List Char) : TakesDigits (fun s => some (a, s)) s a s :=
  ⟨[], rfl, by simp, fun _ _ => rfl⟩

/-- What digits are read as does not depend on what comes after them. -/
theorem TakesDigits.map {digits : List Char → β × List Char} {b : β}
    (h : TakesDigits (fun s => some (digits s)) s b after) (f : β → α) :
    TakesDigits (fun s => some (f (digits s).1, (digits s).2)) s (f b) after := by
  obtain ⟨taken, hs, htaken, same⟩ := h
  refine ⟨taken, hs, htaken, fun after' alike => ?_⟩
  have := Option.some.inj (same after' alike)
  dsimp only
  rw [this]

theorem TakesDigits.filter {digits : List Char → β × List Char} {b : β}
    (h : TakesDigits (fun s => some (digits s)) s b after) (f : β → α)
    (valid : β → Prop) [DecidablePred valid] (hb : valid b) :
    TakesDigits (fun s => if valid (digits s).1 then some (f (digits s).1, (digits s).2) else none)
      s (f b) after := by
  obtain ⟨taken, hs, htaken, same⟩ := h
  refine ⟨taken, hs, htaken, fun after' alike => ?_⟩
  have := Option.some.inj (same after' alike)
  dsimp only
  rw [this]
  exact if_pos hb

end

variable {s after : List Char} {e : Escaped}

theorem hexPoint?_local {n : Nat} (h : hexPoint? n s = some (e, after)) :
    TakesDigits (hexPoint? n) s e after := by
  unfold hexPoint? at h ⊢
  dsimp only at h ⊢
  split at h
  · next fits =>
    cases h
    have digits := digitsUpTo_local (Nat.le_refl 16) n s
    exact digits.filter (fun values => Escaped.point (digitsValue 16 values))
      (fun values => (values.length = n && digitsValue 16 values < 0x110000) = true) fits
  · cases h

theorem numericEscape?_local {letter : Char} (h : numericEscape? letter s = some (e, after)) :
    TakesDigits (numericEscape? letter) s e after := by
  unfold numericEscape? at h ⊢
  split at h
  · exact hexPoint?_local h
  · exact hexPoint?_local h
  · exact hexPoint?_local h
  · cases h

theorem digitsUpTo_cons_local {base : Nat} (hb : base ≤ 16) {c : Char}
    (hc : (asciiDigit? base c).isSome = true) (n : Nat) (s : List Char) :
    TakesDigits (fun s => some (digitsUpTo base (n + 1) (c :: s))) s
      (digitsUpTo base (n + 1) (c :: s)).1 (digitsUpTo base (n + 1) (c :: s)).2 := by
  obtain ⟨d, hd⟩ := Option.isSome_iff_exists.1 hc
  have first (s : List Char) : digitsUpTo base (n + 1) (c :: s) =
      (d :: (digitsUpTo base n s).1, (digitsUpTo base n s).2) := by
    simp [digitsUpTo, hd]
  simp only [first]
  have digits := digitsUpTo_local hb n s
  exact digits.map (d :: ·)

/-- The code point of up to three octal digits, the first one of which is given. -/
def octalPoint? (limit : Nat) (first : Char) (s : List Char) : Option (Escaped × List Char) :=
  let digits := digitsUpTo 8 3 (first :: s)
  if digitsValue 8 digits.1 ≤ limit then some (.point (digitsValue 8 digits.1), digits.2) else none

theorem octalPoint?_local {c : Char} (hc : (asciiDigit? 8 c).isSome = true) {limit : Nat}
    (h : octalPoint? limit c s = some (e, after)) :
    TakesDigits (octalPoint? limit c) s e after := by
  unfold octalPoint? at h
  dsimp only at h
  split at h
  · next fits =>
    cases h
    exact (digitsUpTo_cons_local (by decide) hc 2 s).filter
      (fun values => Escaped.point (digitsValue 8 values))
      (fun values => digitsValue 8 values ≤ limit) fits
  · cases h

theorem plainSetEscape?_local {c : Char} (h : plainSetEscape? (c :: s) = some (e, after)) :
    TakesDigits (fun s => plainSetEscape? (c :: s)) s e after := by
  cases named : (controlEscape? c).or (classEscape? c) with
  | some other =>
    have eq (s : List Char) : plainSetEscape? (c :: s) = some (other, s) := by
      simp only [plainSetEscape?, named]
    rw [eq] at h
    cases h
    exact (takesDigits_nil _ _).congr eq
  | none =>
    by_cases letter : (c = 'x' || c = 'u' || c = 'U') = true
    · have eq (s : List Char) : plainSetEscape? (c :: s) = numericEscape? c s := by
        simp only [plainSetEscape?, named, if_pos letter]
      rw [eq] at h
      exact (numericEscape?_local h).congr eq
    · by_cases octal : (asciiDigit? 8 c).isSome = true
      · have eq (s : List Char) : plainSetEscape? (c :: s) = octalPoint? 0o377 c s := by
          simp only [plainSetEscape?, octalPoint?, named, if_neg letter, if_pos octal]
        rw [eq] at h
        exact (octalPoint?_local octal h).congr eq
      · by_cases refused : (c.isDigit || isLetter c) = true
        · simp only [plainSetEscape?, named, if_neg letter, if_neg octal, if_pos refused] at h
          cases h
        · have eq (s : List Char) : plainSetEscape? (c :: s) = some (.point c.toNat, s) := by
            simp only [plainSetEscape?, named, if_neg letter, if_neg octal, if_neg refused]
          rw [eq] at h
          cases h
          exact (takesDigits_nil _ _).congr eq

/-- Three octal digits are seen alike where at most two decimal digits are taken. -/
theorem length_octal_eq {c : Char} {s taken after' : List Char}
    (h : s = taken ++ (digitsUpTo 10 2 (c :: s)).2)
    (alike : Alike (digitsUpTo 10 2 (c :: s)).2 after') (hc : c.isDigit = true) :
    (digitsUpTo 8 3 (c :: (taken ++ after'))).1.length = (digitsUpTo 8 3 (c :: s)).1.length := by
  have first : headDigit? 10 (c :: s) = some (c.toNat - 48) := asciiDigit?_ten_iff.2 ⟨hc, rfl⟩
  rw [digitsUpTo_succ, first, digitsUpTo_succ, List.tail_cons] at h alike
  cases hd : headDigit? 10 s with
  | none =>
    rw [hd] at h alike
    obtain rfl : taken = [] := List.self_eq_append_left.1 h
    have octal (t : List Char) (ht : headDigit? 10 t = none) : headDigit? 8 t = none := by
      cases ho : headDigit? 8 t with
      | none => rfl
      | some d =>
        obtain ⟨x, hx, digit⟩ := Option.bind_eq_some_iff.1 ho
        rw [headDigit?, hx, Option.bind_some, asciiDigit?_mono (by decide) digit] at ht
        cases ht
    have next : headDigit? 10 after' = none := (alike.headDigit?_eq (by decide)).symm.trans hd
    have here (t : List Char) : headDigit? 8 (c :: t) = asciiDigit? 8 c := rfl
    simp only [digitsUpTo_succ, List.nil_append, List.tail_cons, octal _ hd, octal _ next, here]
    cases asciiDigit? 8 c <;> rfl
  | some d =>
    obtain ⟨x, hx, digit⟩ := Option.bind_eq_some_iff.1 hd
    obtain ⟨rest, rfl⟩ := List.head?_eq_some_iff.1 hx
    rw [hd] at h alike
    obtain rfl : taken = [x] :=
      (List.append_cancel_right (show [x] ++ rest = taken ++ rest from h)).symm
    have alike : Alike rest after' := alike
    have here (c : Char) (t : List Char) : headDigit? 8 (c :: t) = asciiDigit? 8 c := rfl
    simp only [digitsUpTo_succ, List.singleton_append, List.tail_cons, here,
      alike.headDigit?_eq (by decide : 8 ≤ 16)]
    cases asciiDigit? 8 c <;> cases asciiDigit? 8 x <;> cases headDigit? 8 after' <;> rfl

theorem digitEscape?_local {source : Source} {c : Char} (hc : c.isDigit = true)
    (h : digitEscape? source c s = some (e, after)) :
    TakesDigits (digitEscape? source c) s e after := by
  have decimal : (asciiDigit? 10 c).isSome = true := by
    rw [asciiDigit?_ten_iff.2 ⟨hc, rfl⟩]
    rfl
  unfold digitEscape? at h
  dsimp only at h
  split at h
  · next three =>
    split at h
    · next fits =>
      cases h
      have octal : (asciiDigit? 8 c).isSome = true := by
        cases hd : headDigit? 8 (c :: s) with
        | none =>
          rw [digitsUpTo_succ, hd] at three
          cases three
        | some d =>
          rw [show asciiDigit? 8 c = some d from hd]
          rfl
      obtain ⟨taken, hs, htaken, same⟩ := digitsUpTo_cons_local (by decide) octal 2 s
      refine ⟨taken, hs, htaken, fun after' alike => ?_⟩
      have := Option.some.inj (same after' alike)
      unfold digitEscape?
      dsimp only
      rw [this, if_pos three, if_pos fits]
    · cases h
  · next three =>
    split at h
    · next closed =>
      cases h
      obtain ⟨taken, hs, htaken, same⟩ := digitsUpTo_cons_local (by decide) decimal 1 s
      refine ⟨taken, hs, htaken, fun after' alike => ?_⟩
      have := Option.some.inj (same after' alike)
      -- The octal digits may go beyond the decimal ones that are taken.
      rw [← length_octal_eq hs alike hc] at three
      unfold digitEscape?
      dsimp only
      rw [if_neg three, this]
      exact if_pos closed
    · cases h

theorem plainEscape?_local {source : Source} {c : Char}
    (h : plainEscape? source (c :: s) = some (e, after)) :
    TakesDigits (fun s => plainEscape? source (c :: s)) s e after := by
  cases named : (classEscape? c).or ((anchorEscape? c).or (controlEscape? c)) with
  | some other =>
    have eq (s : List Char) : plainEscape? source (c :: s) = some (other, s) := by
      simp only [plainEscape?, named]
    rw [eq] at h
    cases h
    exact (takesDigits_nil _ _).congr eq
  | none =>
    by_cases letter : (c = 'x' || c = 'u' || c = 'U') = true
    · have eq (s : List Char) : plainEscape? source (c :: s) = numericEscape? c s := by
        simp only [plainEscape?, named, if_pos letter]
      rw [eq] at h
      exact (numericEscape?_local h).congr eq
    · by_cases zero : c = '0'
      · have eq (s : List Char) : plainEscape? source (c :: s) =
            some (.point (digitsValue 8 (digitsUpTo 8 3 (c :: s)).1),
              (digitsUpTo 8 3 (c :: s)).2) := by
          simp only [plainEscape?, named, if_neg letter, if_pos zero]
        rw [eq] at h
        cases h
        have octal : (asciiDigit? 8 c).isSome = true := by rw [zero]; decide
        exact ((digitsUpTo_cons_local (by decide) octal 2 s).map fun values =>
          Escaped.point (digitsValue 8 values)).congr eq
      · by_cases digit : c.isDigit = true
        · have eq (s : List Char) : plainEscape? source (c :: s) = digitEscape? source c s := by
            simp only [plainEscape?, named, if_neg letter, if_neg zero, if_pos digit]
          rw [eq] at h
          exact (digitEscape?_local digit h).congr eq
        · by_cases refused : isLetter c = true
          · simp only [plainEscape?, named, if_neg letter, if_neg zero, if_neg digit,
              if_pos refused] at h
            cases h
          · have eq (s : List Char) : plainEscape? source (c :: s) = some (.point c.toNat, s) := by
              simp only [plainEscape?, named, if_neg letter, if_neg zero, if_neg digit,
                if_neg refused]
            rw [eq] at h
            cases h
            exact (takesDigits_nil _ _).congr eq

/-! ### Names -/

/-- A name ends with its closing brace, whatever comes after that. -/
theorem charName?_local {name : List Char} (h : charName? s = some (name, after)) :
    ∃ inner, s = inner ++ '\x7d' :: after ∧
      ∀ after', charName? (inner ++ '\x7d' :: after') = some (name, after') := by
  fun_induction charName? s generalizing name with
  | case1 rest =>
    cases h
    exact ⟨[], rfl, fun _ => rfl⟩
  | case2 c rest ih =>
    obtain ⟨⟨name, left⟩, more, hname⟩ := Option.map_eq_some_iff.1 h
    cases hname
    obtain ⟨inner, rfl, same⟩ := ih more
    refine ⟨'\\' :: c :: inner, rfl, fun after' => ?_⟩
    rw [List.cons_append, List.cons_append, charName?, same]
    rfl
  | case3 c rest notLast notPair ih =>
    obtain ⟨⟨name, left⟩, more, hname⟩ := Option.map_eq_some_iff.1 h
    cases hname
    obtain ⟨inner, rfl, same⟩ := ih more
    refine ⟨c :: inner, rfl, fun after' => ?_⟩
    rw [List.cons_append, charName?, same]
    · rfl
    · exact notLast
    · intro d more backslash _
      obtain ⟨d, more, hmore⟩ :=
        List.exists_cons_of_ne_nil (List.append_ne_nil_of_right_ne_nil inner
        (List.cons_ne_nil '\x7d' after))
      exact notPair d more backslash hmore
  | case4 => cases h

section

variable {α : Type} {read : List Char → Option (α × List Char)} {a : α}

/-- A reader takes digits off a text, or all up to a brace, and the same whatever comes after
that. -/
def Takes (read : List Char → Option (α × List Char)) (s : List Char) (a : α) (after : List Char) :
    Prop :=
  ∃ taken, s = taken ++ after ∧ ((∀ c ∈ taken, IsHexDigit c) ∨ taken.getLast? = some '\x7d') ∧
    ∀ after', Alike after after' → read (taken ++ after') = some (a, after')

theorem TakesDigits.takes (h : TakesDigits read s a after) : Takes read s a after := by
  obtain ⟨digits, hs, hdigits, same⟩ := h
  exact ⟨digits, hs, .inl hdigits, same⟩

end

variable [CharNames]

theorem namedEscape?_local (h : namedEscape? s = some (e, after)) :
    Takes namedEscape? s e after := by
  unfold namedEscape? at h
  split at h
  · next rest =>
    obtain ⟨⟨name, left⟩, closed, h⟩ := Option.bind_eq_some_iff.1 h
    obtain ⟨point, named, h⟩ := Option.bind_eq_some_iff.1 h
    cases h
    obtain ⟨inner, rfl, same⟩ := charName?_local closed
    refine ⟨'\x7b' :: inner ++ ['\x7d'], by simp, .inr List.getLast?_concat, fun after' _ => ?_⟩
    have again : charName? (inner ++ ['\x7d'] ++ after') = some (name, after') := by
      rw [List.append_assoc]
      exact same after'
    show (charName? (inner ++ ['\x7d'] ++ after') >>= _) = _
    rw [again]
    show (namedPoint? name >>= _) = _
    rw [named]
    rfl
  · cases h

theorem setEscape?_local {c : Char} (h : setEscape? (c :: s) = some (e, after)) :
    Takes (fun s => setEscape? (c :: s)) s e after := by
  by_cases name : c = 'N'
  · subst name
    exact namedEscape?_local h
  · have plain (s : List Char) : setEscape? (c :: s) = plainSetEscape? (c :: s) :=
      setEscape?.eq_2 _ fun rest hrest => name (List.cons.inj hrest).1
    simp only [plain] at h ⊢
    exact (plainSetEscape?_local h).takes

theorem escape?_local {source : Source} {c : Char} (h : escape? source (c :: s) = some (e, after)) :
    Takes (fun s => escape? source (c :: s)) s e after := by
  by_cases name : c = 'N'
  · subst name
    exact namedEscape?_local h
  · have plain (s : List Char) : escape? source (c :: s) = plainEscape? source (c :: s) :=
      escape?.eq_2 source _ fun rest hrest => name (List.cons.inj hrest).1
    simp only [plain] at h ⊢
    exact (plainEscape?_local h).takes

end ActionItems.Pattern
