import ActionItems.Proofs.Pattern.Bounds
import ActionItems.Proofs.Pattern.Set

/-!
# Tokens of patterns

A pattern is read token by token: `Source.token` is the next token of a text, and `parts_succ` reads
a sequence by its tokens. How far a token goes, and that it stays the same whatever the text goes on
with after an inert character, is proved along the ways to read one (`Scans`): `token_local`,
`token_before_letter`. Only at a brace with bounds that are refused a token fails for a reason other
than being malformed (`isRefused_of_token`).
-/

namespace ActionItems.Pattern

/-! ### Before inert characters -/

theorem alike_inert {c c' : Char} (hc : IsInert c) (hc' : IsInert c') (s r r' : List Char) :
    Alike (s ++ c :: r) (s ++ c' :: r') := by
  cases s with
  | nil =>
    refine .inr ⟨?_, ?_⟩
    · rintro d ⟨⟩
      exact hc.digit
    · rintro d ⟨⟩
      exact hc'.digit
  | cons d s => exact .inl rfl

theorem ne_backslash {c : Char} (hc : IsInert c) (s r : List Char) : s ++ c :: r ≠ ['\\'] := by
  intro h
  cases s with
  | nil =>
    cases h
    exact hc.mark.2.2.2 rfl
  | cons d s => simp at h

/-! ### Refused bounds -/

/-- A text after an opening brace with bounds that are refused. -/
def IsRefused (s : List Char) (e : ReadError) : Prop :=
  ∃ b after, bounds? s = some (b, after) ∧ after ≠ ['\\'] ∧ b.values = .error e

/-- **A brace is refused with the bounds after it**, if not only a backslash comes after them. -/
theorem isRefused_iff {s : List Char} {e : ReadError} (he : e ≠ .malformed) : IsRefused s e ↔
    ∃ text after, s = text ++ '\x7d' :: after ∧ OutsizedBounds text e ∧ after ≠ ['\\'] := by
  simp only [IsRefused, bounds?_eq_some_iff, ← exists_values_iff he]
  constructor
  · rintro ⟨b, after, ⟨text, hs, written⟩, more, values⟩
    exact ⟨text, after, hs, ⟨b, written, values⟩, more⟩
  · rintro ⟨text, after, hs, ⟨b, written, values⟩, more⟩
    exact ⟨b, after, ⟨text, hs, written⟩, more, values⟩

variable [CharNames]

/-! ### Tokens -/

/-- What comes next in a pattern. -/
inductive Token where
  /-- The end of a sequence: a bar, a closing parenthesis or the end of the text. -/
  | stop
  | part (node : Node)
  | repeated (least : Nat) (greatest : Option Nat)
  /-- An opening parenthesis. -/
  | opening

/-- The next token, and the text after it. -/
def Source.token (source : Source) : Except ReadError (Token × List Char) :=
  match source.rest with
  | [] => .ok (.stop, source.rest)
  | '|' :: _ => .ok (.stop, source.rest)
  | ')' :: _ => .ok (.stop, source.rest)
  | '\\' :: rest =>
    match escape? source rest with
    | some (e, after) => .ok (.part e.node, after)
    | none => .error .malformed
  | '[' :: rest =>
    match charSet? rest with
    | some (set, after) => .ok (.part (.char set), after)
    | none => .error .malformed
  | '*' :: rest => .ok (.repeated 0 none, rest)
  | '+' :: rest => .ok (.repeated 1 none, rest)
  | '?' :: rest => .ok (.repeated 0 (some 1), rest)
  | '\x7b' :: rest =>
    match bounds? rest with
    | some (b, after) =>
      if after = ['\\'] then .error .malformed
      else b.values.map fun (least, greatest) => (.repeated least greatest, after)
    | none => .ok (.part (.char (.single '\x7b'.toNat)), rest)
  | '.' :: rest => .ok (.part (.char .anyButNewline), rest)
  | '^' :: rest => .ok (.part (.anchor .start), rest)
  | '$' :: rest => .ok (.part (.anchor .finish), rest)
  | '(' :: rest => .ok (.opening, rest)
  | c :: rest => .ok (.part (.char (.single c.toNat)), rest)

/-- The source of a group, after its opening parenthesis. -/
def Source.inner (source : Source) (rest : List Char) : Source :=
  ⟨rest, source.groups + 1, (source.groups + 1) :: source.unclosed⟩

/-- The parts of a sequence, after a group and its closing parenthesis, if that is there. -/
def afterGroup (fuel : Nat) (read : List Node) (source : Source) (body : Node) (closed : Source) :
    Except ReadError (Node × Source) :=
  match closed.rest with
  | ')' :: rest =>
    parts fuel (.group (source.groups + 1) body :: read) ⟨rest, closed.groups, source.unclosed⟩
  | _ => .error .malformed

/-- The parts of a sequence, after its next token. -/
def afterToken (fuel : Nat) (read : List Node) (source : Source) :
    Token × List Char → Except ReadError (Node × Source)
  | (.stop, _) => .ok (sequence read, source)
  | (.part node, rest) => parts fuel (node :: read) { source with rest }
  | (.repeated least greatest, rest) => do
    let (read, rest) ← repeatLast read least greatest rest
    parts fuel read { source with rest }
  | (.opening, rest) => do
    let (body, closed) ← alternatives fuel (source.inner rest)
    afterGroup fuel read source body closed

section

variable (rest : List Char) (groups : Nat) (unclosed : List Nat)

theorem token_escape : Source.token ⟨'\\' :: rest, groups, unclosed⟩ =
    match escape? ⟨'\\' :: rest, groups, unclosed⟩ rest with
    | some (e, after) => .ok (.part e.node, after)
    | none => .error .malformed := rfl

theorem token_set : Source.token ⟨'[' :: rest, groups, unclosed⟩ =
    match charSet? rest with
    | some (set, after) => .ok (.part (.char set), after)
    | none => .error .malformed := rfl

theorem token_brace : Source.token ⟨'\x7b' :: rest, groups, unclosed⟩ =
    match bounds? rest with
    | some (b, after) =>
      if after = ['\\'] then .error .malformed
      else b.values.map fun (least, greatest) => (.repeated least greatest, after)
    | none => .ok (.part (.char (.single '\x7b'.toNat)), rest) := rfl

/-- The characters with which something else begins than a character that stands for itself. -/
def tokenMarks : List Char := ['|', ')', '\\', '[', '*', '+', '?', '\x7b', '.', '^', '$', '(']

/-- **Any other character is a token of its own.** -/
theorem token_of_not_mem {c : Char} (h : c ∉ tokenMarks) :
    Source.token ⟨c :: rest, groups, unclosed⟩ = .ok (.part (.char (.single c.toNat)), rest) := by
  unfold Source.token
  dsimp only
  split <;> rename_i hs
  case h_1 => cases hs
  case h_14 =>
    cases hs
    rfl
  -- Every other case is about one of the marks.
  all_goals
    cases hs
    exact absurd (by decide) h

end

/-- **A sequence is read token by token.** -/
theorem parts_succ (fuel : Nat) (read : List Node) (source : Source) :
    parts (fuel + 1) read source = source.token >>= afterToken fuel read source := by
  obtain ⟨rest, groups, unclosed⟩ := source
  rw [parts]
  dsimp only
  split
  · rfl
  · rfl
  · rfl
  · next rest =>
    rw [token_escape]
    cases escape? ⟨'\\' :: rest, groups, unclosed⟩ rest <;> rfl
  · next rest =>
    rw [token_set]
    cases charSet? rest <;> rfl
  · rfl
  · rfl
  · rfl
  · next rest =>
    rw [token_brace]
    cases bounds? rest with
    | none => rfl
    | some result =>
      obtain ⟨b, after⟩ := result
      dsimp only
      split
      · rfl
      · cases b.values <;> rfl
  · rfl
  · rfl
  · rfl
  · rfl
  · simp only [Source.token, *]
    rfl

/-- Whether a token is told by one character. -/
def IsSingle (c : Char) (t : Token) : Prop :=
  ∀ rest groups unclosed, Source.token ⟨c :: rest, groups, unclosed⟩ = .ok (t, rest)

/-- How a token is read. -/
inductive Scans (source : Source) : List Char → Token → List Char → Prop
  | stop {s : List Char} (ends : ∀ c ∈ s.head?, c = '|' ∨ c = ')') : Scans source s .stop s
  | single {c : Char} {t : Token} (goes : t ≠ .stop) (told : IsSingle c t) (rest : List Char) :
    Scans source (c :: rest) t rest
  | escape {rest after : List Char} {e : Escaped}
    (escaped : escape? source rest = some (e, after)) :
    Scans source ('\\' :: rest) (.part e.node) after
  | set {rest after : List Char} {set : CharSet} (members : charSet? rest = some (set, after)) :
    Scans source ('[' :: rest) (.part (.char set)) after
  | bounds {rest after : List Char} {b : Bounds} {least : Nat} {greatest : Option Nat}
    (bounds : bounds? rest = some (b, after)) (more : after ≠ ['\\'])
    (values : b.values = .ok (least, greatest)) :
    Scans source ('\x7b' :: rest) (.repeated least greatest) after
  | brace {rest : List Char} (plain : bounds? rest = none) :
    Scans source ('\x7b' :: rest) (.part (.char (.single '\x7b'.toNat))) rest

/-- What reading a token gives: a token, or an error, which is `malformed` unless bounds are
refused. -/
inductive TokenRead (source : Source) : Except ReadError (Token × List Char) → Prop
  | scanned {t : Token} {rest : List Char} (scan : Scans source source.rest t rest)
    (opens : t = .opening → source.rest = '(' :: rest) : TokenRead source (.ok (t, rest))
  | malformed : TokenRead source (.error .malformed)
  | refused {s : List Char} {e : ReadError} (brace : source.rest = '\x7b' :: s)
    (refused : IsRefused s e) :
    TokenRead source (.error e)

/-- **How a token is read, for every text.** -/
theorem tokenRead (source : Source) : TokenRead source source.token := by
  obtain ⟨s, groups, unclosed⟩ := source
  unfold Source.token
  dsimp only
  split
  -- The end of the text, a bar and a closing parenthesis.
  case h_1 | h_2 | h_3 => exact .scanned (.stop (by simp)) nofun
  case h_4 rest =>
    split
    · next escaped => exact .scanned (.escape escaped) nofun
    · exact .malformed
  case h_5 rest =>
    split
    · next members => exact .scanned (.set members) nofun
    · exact .malformed
  case h_9 rest =>
    split
    · next b after bounds =>
      split
      · exact .malformed
      · next more =>
        cases values : b.values with
        | error e => exact .refused rfl ⟨b, after, bounds, more, values⟩
        | ok v => exact .scanned (.bounds bounds more values) nofun
    · next plain => exact .scanned (.brace plain) nofun
  -- The marks that are tokens of their own.
  case h_6 | h_7 | h_8 | h_10 | h_11 | h_12 =>
    exact .scanned (.single (by simp) (fun _ _ _ => rfl) _) nofun
  case h_13 => exact .scanned (.single (by simp) (fun _ _ _ => rfl) _) fun _ => rfl
  case h_14 =>
    refine .scanned (.single (by simp) (fun rest groups unclosed => ?_) _) nofun
    unfold Source.token
    split <;> simp_all

theorem scans_of_token {source : Source} {t : Token} {rest : List Char}
    (h : source.token = .ok (t, rest)) : Scans source source.rest t rest := by
  have read := tokenRead source
  rw [h] at read
  cases read with
  | scanned scan opens => exact scan

/-- A token that is no stop takes something off the text. -/
theorem shorter_of_token {source : Source} {t : Token} {rest : List Char}
    (h : source.token = .ok (t, rest)) (ht : t ≠ .stop) :
    ∃ taken, taken ≠ [] ∧ source.rest = taken ++ rest := by
  have scan := scans_of_token h
  generalize source.rest = s at scan
  cases scan with
  | stop ends => exact absurd rfl ht
  | @single c _ goes told rest => exact ⟨[c], by simp, rfl⟩
  | @escape s _ e escaped =>
    cases s with
    | nil => cases escaped
    | cons d s =>
      obtain ⟨digits, rfl, -, -⟩ := escape?_local escaped
      exact ⟨'\\' :: d :: digits, by simp, rfl⟩
  | set members =>
    obtain ⟨inner, rfl, -⟩ := charSet?_local members
    exact ⟨'[' :: (inner ++ [']']), by simp, by simp⟩
  | bounds bounds more values =>
    obtain ⟨taken, rfl⟩ := suffix_of_bounds? bounds
    exact ⟨'\x7b' :: taken, by simp, rfl⟩
  | brace plain => exact ⟨['\x7b'], by simp, rfl⟩

theorem rest_of_stop {source : Source} {rest : List Char} (h : source.token = .ok (.stop, rest)) :
    rest = source.rest := by
  have scan := scans_of_token h
  generalize source.rest = s at scan
  generalize ht : Token.stop = t at scan
  cases scan with
  | stop ends => rfl
  | single goes told rest => exact absurd ht.symm goes
  | _ => cases ht

theorem rest_of_opening {source : Source} {rest : List Char}
    (h : source.token = .ok (.opening, rest)) : source.rest = '(' :: rest := by
  have read := tokenRead source
  rw [h] at read
  cases read with
  | scanned scan opens => exact opens rfl

/-! ### Texts that go on after an inert character -/

/-- An escape that ends before an inert character is the same whatever the text goes on with. -/
theorem escape?_exchange {c c' : Char} (hc : IsInert c) (hc' : IsInert c') {s left r : List Char}
    {source : Source} {e : Escaped} (h : escape? source (s ++ c :: r) = some (e, left ++ c :: r))
    (r' : List Char) : escape? source (s ++ c' :: r') = some (e, left ++ c' :: r') := by
  cases s with
  | nil =>
    -- An escape takes at least one character.
    obtain ⟨digits, hr, -, -⟩ := escape?_local h
    have := congrArg List.length hr
    simp only [List.length_append, List.length_cons] at this
    omega
  | cons d s =>
    obtain ⟨digits, hr, -, same⟩ := escape?_local h
    rw [← List.append_assoc] at hr
    obtain rfl : s = digits ++ left := List.append_cancel_right hr
    rw [List.cons_append, List.append_assoc]
    exact same _ (alike_inert hc hc' left r r')

theorem charSet?_exchange {c : Char} {s left r : List Char} {set : CharSet}
    (h : charSet? (s ++ c :: r) = some (set, left ++ c :: r)) (c' : Char) (r' : List Char) :
    charSet? (s ++ c' :: r') = some (set, left ++ c' :: r') := by
  obtain ⟨inner, hr, same⟩ := charSet?_local h
  rw [← List.cons_append, ← List.append_assoc] at hr
  obtain rfl : s = inner ++ ']' :: left := List.append_cancel_right hr
  rw [List.append_assoc, List.cons_append, same]

/-- **A token that ends before an inert character** is the same whatever the text goes on with. -/
theorem token_local {c c' : Char} (hc : IsInert c) (hc' : IsInert c') {s left r : List Char}
    {groups : Nat} {unclosed : List Nat} {t : Token} (hs : s ≠ [])
    (h : Source.token ⟨s ++ c :: r, groups, unclosed⟩ = .ok (t, left ++ c :: r)) (r' : List Char) :
    Source.token ⟨s ++ c' :: r', groups, unclosed⟩ = .ok (t, left ++ c' :: r') := by
  obtain ⟨d, s, rfl⟩ := List.exists_cons_of_ne_nil hs
  rw [List.cons_append] at h ⊢
  have scan := scans_of_token h
  dsimp only at scan
  generalize hw : d :: (s ++ c :: r) = w at scan
  generalize hl : left ++ c :: r = l at scan
  cases scan with
  | stop ends =>
    obtain rfl : left = d :: s := List.append_cancel_right (hl.trans hw.symm)
    rw [← hw] at ends
    obtain rfl | rfl := ends d rfl
    · rfl
    · rfl
  | single goes told rest =>
    cases hw
    obtain rfl : left = s := List.append_cancel_right hl
    exact told _ _ _
  | @escape _ _ e escaped =>
    cases hw
    subst hl
    have again : escape? ⟨'\\' :: (s ++ c' :: r'), groups, unclosed⟩ (s ++ c' :: r') =
        some (e, left ++ c' :: r') :=
      escape?_exchange hc hc' escaped r'
    rw [token_escape, again]
  | set members =>
    cases hw
    subst hl
    rw [token_set, charSet?_exchange members c' r']
  | bounds bounds more values =>
    cases hw
    subst hl
    rw [bounds?_append hc] at bounds
    obtain ⟨⟨b, left'⟩, hb, he⟩ := Option.map_eq_some_iff.1 bounds
    obtain ⟨rfl, hleft⟩ := Prod.mk.inj he
    obtain rfl : left' = left := List.append_cancel_right hleft
    rw [token_brace, bounds?_append hc', hb]
    dsimp only [Option.map_some]
    rw [if_neg (ne_backslash hc' left' r'), values]
    rfl
  | brace plain =>
    cases hw
    obtain rfl : left = s := List.append_cancel_right hl
    rw [bounds?_append hc] at plain
    rw [token_brace, bounds?_append hc', Option.map_eq_none_iff.1 plain]
    rfl

/-! ### Tokens before a letter -/

/-- An escape does not go beyond a letter that no escape begins with, if only closing parentheses
come after that. -/
theorem escape?_before_letter {s x rest : List Char} {source : Source} {e : Escaped}
    (hx : ∀ c ∈ x, c = ')') (h : escape? source (s ++ 'y' :: x) = some (e, rest)) :
    ∃ left, rest = left ++ 'y' :: x := by
  cases s with
  | nil => cases h
  | cons d s =>
    obtain ⟨taken, hr, htaken, -⟩ := escape?_local h
    obtain ⟨left, hleft, hy⟩ | ⟨left, -, hafter⟩ := List.append_eq_append_iff.1 hr
    · cases left with
      | nil => exact ⟨[], hy.symm⟩
      | cons y left =>
        -- The letter would be taken: it is no digit, and no brace that closes a name comes after
        -- it.
        cases hy
        rcases htaken with digits | brace
        · have : IsHexDigit 'y' := digits 'y' (by rw [hleft]; simp)
          exact absurd this isInert_letter.digit
        · have last : '\x7d' ∈ 'y' :: left := by
            rw [hleft, List.getLast?_append, Option.or_of_isSome (by simp)] at brace
            exact List.mem_of_getLast? brace
          rcases List.mem_cons.1 last with h | h
          · cases h
          · cases hx _ (List.mem_append_left rest h)
    · exact ⟨left, hafter⟩

theorem charSet?_before_letter {s x rest : List Char} {set : CharSet} (hx : ∀ c ∈ x, c = ')')
    (h : charSet? (s ++ 'y' :: x) = some (set, rest)) : ∃ left, rest = left ++ 'y' :: x := by
  obtain ⟨inner, hr, -⟩ := charSet?_local h
  obtain ⟨left, -, hy⟩ | ⟨left, -, hafter⟩ := List.append_eq_append_iff.1 hr
  · have bracket : ']' ∈ 'y' :: x := by
      rw [hy]
      simp
    rcases List.mem_cons.1 bracket with h | h
    · cases h
    · cases hx _ h
  · cases left with
    | nil => cases hafter
    | cons b left =>
      cases hafter
      exact ⟨left, rfl⟩

/-- A token before a letter that no escape begins with does not go beyond it, if only closing
parentheses come after that. -/
theorem token_before_letter {s x rest : List Char} {groups : Nat} {unclosed : List Nat} {t : Token}
    (hs : s ≠ []) (hx : ∀ c ∈ x, c = ')')
    (h : Source.token ⟨s ++ 'y' :: x, groups, unclosed⟩ = .ok (t, rest)) :
    ∃ left, rest = left ++ 'y' :: x := by
  obtain ⟨d, s, rfl⟩ := List.exists_cons_of_ne_nil hs
  rw [List.cons_append] at h
  have scan := scans_of_token h
  dsimp only at scan
  generalize hw : d :: (s ++ 'y' :: x) = w at scan
  cases scan with
  | stop ends => exact ⟨d :: s, hw.symm⟩
  | single goes told rest =>
    cases hw
    exact ⟨s, rfl⟩
  | escape escaped =>
    cases hw
    exact escape?_before_letter hx escaped
  | set members =>
    cases hw
    exact charSet?_before_letter hx members
  | bounds bounds more values =>
    cases hw
    rw [bounds?_append isInert_letter] at bounds
    obtain ⟨⟨b, left⟩, -, he⟩ := Option.map_eq_some_iff.1 bounds
    cases he
    exact ⟨left, rfl⟩
  | brace plain =>
    cases hw
    exact ⟨s, rfl⟩

/-! ### Tokens that are refused -/

theorem token_of_isRefused {s : List Char} {e : ReadError} (h : IsRefused s e) (groups : Nat)
    (unclosed : List Nat) : Source.token ⟨'\x7b' :: s, groups, unclosed⟩ = .error e := by
  obtain ⟨b, after, bounds, more, values⟩ := h
  rw [token_brace, bounds]
  dsimp only
  rw [if_neg more, values]
  rfl

/-- A pattern is refused as malformed, or because of bounds. -/
theorem isRefused_of_token {source : Source} {e : ReadError} (he : e ≠ .malformed)
    (h : source.token = .error e) : ∃ s, source.rest = '\x7b' :: s ∧ IsRefused s e := by
  have read := tokenRead source
  rw [h] at read
  cases read with
  | malformed => exact absurd rfl he
  | refused brace refused => exact ⟨_, brace, refused⟩

end ActionItems.Pattern
