import ActionItems.Proofs.Pattern.Reading

/-!
# Where a pattern is refused

A text is refused where its reading comes upon a brace with bounds that are refused. Up to there it
is the beginning of a pattern, and of that alone: with a letter, and with a closing parenthesis for
each group that is open there, it is one (`read_eq_error_iff_beginning`). What is read before the
brace does not depend on how the text goes on (`Reads.exchange`), so from the brace on the text may
be exchanged for the letter (`Refuses.exists_reads`) and the letter for the brace (`Reads.refuses`).
-/

namespace ActionItems.Pattern

variable [CharNames] {c c' : Char} {task : Task} {source after : Source} {node : Node}
  {s left r x z : List Char} {e : ReadError}

/-! ### Exchanging what comes after -/

omit [CharNames] in
theorem repeatLast_append (hc : IsInert c) (read : List Node) (least : Nat) (greatest : Option Nat)
    (s t : List Char) : repeatLast read least greatest (s ++ c :: t) =
      (repeatLast read least greatest s).map fun (read, rest) => (read, rest ++ c :: t) := by
  have plus : c ≠ '+' := hc.mark.2.2.1
  unfold repeatLast
  cases s with
  | nil =>
    simp only [List.nil_append]
    split <;> simp_all [Except.map]
  | cons d s =>
    by_cases hd : d = '+'
    · subst hd
      cases read with
      | nil => rfl
      | cons body before => cases body <;> rfl
    · simp only [List.cons_append]
      split <;> simp_all [Except.map]

omit [CharNames] in
/-- A repetition ends before an inert character, and is the same whatever the text goes on with. -/
theorem repeatLast_local (hc : IsInert c) {read read' : List Node} {least : Nat}
    {greatest : Option Nat} {rest : List Char}
    (h : repeatLast read least greatest (s ++ c :: r) = .ok (read', rest)) :
    ∃ left, rest = left ++ c :: r ∧ ∀ {c' : Char}, IsInert c' → ∀ r',
      repeatLast read least greatest (s ++ c' :: r') = .ok (read', left ++ c' :: r') := by
  rw [repeatLast_append hc] at h
  cases own : repeatLast read least greatest s with
  | error e =>
    rw [own] at h
    cases h
  | ok result =>
    rw [own] at h
    cases h
    refine ⟨result.2, rfl, fun hc' r' => ?_⟩
    rw [repeatLast_append hc', own]
    rfl

omit [CharNames] in
theorem repeatLast_exchange (hc : IsInert c) (hc' : IsInert c') {read read' : List Node}
    {least : Nat} {greatest : Option Nat}
    (h : repeatLast read least greatest (s ++ c :: r) = .ok (read', left ++ c :: r))
    (r' : List Char) :
    repeatLast read least greatest (s ++ c' :: r') = .ok (read', left ++ c' :: r') := by
  obtain ⟨left', hleft, same⟩ := repeatLast_local hc h
  obtain rfl : left = left' := List.append_cancel_right hleft
  exact same hc' r'

theorem token_exchange (hc : IsInert c) (hc' : IsInert c') {t : Token} {rest : List Char}
    (h : source.token = .ok (t, rest)) (hs : source.rest = s ++ c :: r) (hne : s ≠ [])
    (hrest : rest = left ++ c :: r) (r' : List Char) :
    Source.token { source with rest := s ++ c' :: r' } = .ok (t, left ++ c' :: r') := by
  obtain ⟨w, groups, unclosed⟩ := source
  subst hs hrest
  exact token_local hc hc' hne h r'

theorem Reads.exists_rest (h : Reads task source node after) (hleft : left ≠ [])
    (ha : after.rest = left ++ c :: r) : ∃ s, s ≠ [] ∧ source.rest = s ++ c :: r := by
  obtain ⟨taken, htaken⟩ := h.suffix
  refine ⟨taken ++ left, List.append_ne_nil_of_right_ne_nil _ hleft, ?_⟩
  rw [← htaken, ha, List.append_assoc]

/-- **What is read up to a place does not depend on the text behind an inert character after
it.** -/
theorem Reads.exchange (hc : IsInert c) (hc' : IsInert c') (h : Reads task source node after)
    (hs : source.rest = s ++ c :: r) (hleft : left ≠ []) (ha : after.rest = left ++ c :: r)
    (r' : List Char) :
    Reads task { source with rest := s ++ c' :: r' } node
      { after with rest := left ++ c' :: r' } := by
  have hne : s ≠ [] := by
    obtain ⟨s', hne, hs'⟩ := h.exists_rest hleft ha
    rwa [List.append_cancel_right (hs.symm.trans hs')]
  -- What each part leaves ends with what the whole leaves, so the exchanged text is behind all of
  -- them.
  induction h generalizing s left with
  | stop token =>
    obtain rfl : s = left := List.append_cancel_right (hs.symm.trans ha)
    exact .stop (token_exchange hc hc' token hs hne ((rest_of_stop token).trans hs) r')
  | part token more ih =>
    obtain ⟨s₁, hne₁, hs₁⟩ := more.exists_rest hleft ha
    exact .part (token_exchange hc hc' token hs hne hs₁ r') (ih hs₁ hleft ha hne₁)
  | repeated token last more ih =>
    obtain ⟨s₂, hne₂, hs₂⟩ := more.exists_rest hleft ha
    obtain ⟨taken, htaken⟩ := suffix_of_repeatLast last
    dsimp only at hs₂
    subst hs₂
    rw [← List.append_assoc] at htaken
    rw [← htaken] at last
    exact .repeated (token_exchange hc hc' token hs hne htaken.symm r')
      (repeatLast_exchange hc hc' last r') (ih rfl hleft ha hne₂)
  | group token inner close more ih ih' =>
    obtain ⟨s₂, hne₂, hs₂⟩ := more.exists_rest hleft ha
    dsimp only at hs₂
    subst hs₂
    obtain ⟨s₁, hne₁, hs₁⟩ := inner.exists_rest (List.cons_ne_nil ')' s₂) close
    exact .group (token_exchange hc hc' token hs hne hs₁ r')
      (ih hs₁ (List.cons_ne_nil _ _) close hne₁) rfl (ih' rfl hleft ha hne₂)
  | @one source node after first last ih =>
    refine .one (ih hs hleft ha hne) ?_
    obtain ⟨d, left, rfl⟩ := List.exists_cons_of_ne_nil hleft
    rw [ha] at last
    exact last
  | more one bar others ih ih' =>
    obtain ⟨s₂, hne₂, hs₂⟩ := others.exists_rest hleft ha
    dsimp only at hs₂
    subst hs₂
    exact .more (ih hs (List.cons_ne_nil '|' s₂) bar hne) rfl (ih' rfl hleft ha hne₂)

/-! ### From the letter to the brace -/

omit [CharNames] in
/-- Of two ends of a text, one that begins otherwise than the other is a part of what follows it or
goes beyond it. -/
theorem suffix_or_beyond {d d' : Char} {t t' w : List Char} (hd : d ≠ d') (h : d :: t <:+ w)
    (h' : d' :: t' <:+ w) : d :: t <:+ t' ∨ ∃ m, t = m ++ d' :: t' := by
  rcases List.suffix_or_suffix_of_suffix h h' with inside | ⟨taken, htaken⟩
  · rcases List.suffix_cons_iff.1 inside with same | inside
    · exact absurd (List.cons.inj same).1 hd
    · exact .inl inside
  · cases taken with
    | nil => exact absurd (List.cons.inj htaken).1 (Ne.symm hd)
    | cons x m => exact .inr ⟨m, (List.cons.inj htaken).2.symm⟩

/-- A token before the letter is the same with the brace in its place. -/
theorem token_brace_of_letter (hx : ∀ d ∈ x, d = ')') (hne : s ≠ [])
    (hs : source.rest = s ++ 'y' :: x) {t : Token} {rest : List Char}
    (token : source.token = .ok (t, rest)) : ∃ l, rest = l ++ 'y' :: x ∧
      ∀ z, Source.token { source with rest := s ++ '\x7b' :: z } = .ok (t, l ++ '\x7b' :: z) := by
  obtain ⟨w, groups, unclosed⟩ := source
  subst hs
  obtain ⟨l, hl⟩ := token_before_letter hne hx token
  exact ⟨l, hl, token_exchange isInert_letter isInert_brace token rfl hne hl⟩

/-- **Where a letter and closing parentheses can be read, refused bounds are come upon.** -/
theorem Reads.refuses (hx : ∀ d ∈ x, d = ')') (hz : IsRefused z e)
    (h : Reads task source node after) (hs : source.rest = s ++ 'y' :: x) (ha : after.rest <:+ x) :
    Refuses e task { source with rest := s ++ '\x7b' :: z } := by
  have here (read : List Node) (source : Source) :
      Refuses e (.parts read) { source with rest := [] ++ '\x7b' :: z } :=
    .here (token_of_isRefused hz source.groups source.unclosed)
  -- The reading passes the letter, since it leaves no more than what follows it: either the letter
  -- comes next, and the brace is refused in its place, or it comes in the rest, inside a group or
  -- behind it.
  induction h generalizing s with
  | @stop read source rest token =>
    -- The letter would be left over.
    have := ha.length_le
    rw [hs, List.length_append, List.length_cons] at this
    omega
  | @part read source part rest node after token more ih =>
    by_cases hne : s = []
    · exact hne ▸ here read source
    · obtain ⟨l, rfl, token'⟩ := token_brace_of_letter hx hne hs token
      exact .part (token' z) (ih rfl ha)
  | @repeated read read' source least greatest rest rest' node after token last more ih =>
    by_cases hne : s = []
    · exact hne ▸ here read source
    · obtain ⟨l, rfl, token'⟩ := token_brace_of_letter hx hne hs token
      obtain ⟨l', rfl, same⟩ := repeatLast_local isInert_letter last
      exact .repeated (token' z) (same isInert_brace z) (ih rfl ha)
  | @group read source rest rest' body closed node after token inner close more ih ih' =>
    by_cases hne : s = []
    · exact hne ▸ here read source
    · obtain ⟨l, rfl, token'⟩ := token_brace_of_letter hx hne hs token
      have ends := inner.suffix
      rw [close] at ends
      rcases suffix_or_beyond (by decide) ends (List.suffix_append l ('y' :: x))
        with inside | ⟨m, rfl⟩
      · exact .inside (token' z) (ih rfl (close ▸ inside))
      · exact .behind (token' z) (inner.exchange isInert_letter isInert_brace rfl
          (List.cons_ne_nil ')' m) close z)
          rfl (ih' rfl ha)
  | one first last ih => exact .first (ih hs ha)
  | @more source first second mid after rest one bar others ih ih' =>
    have ends := one.suffix
    rw [bar, hs] at ends
    rcases suffix_or_beyond (by decide) ends (List.suffix_append s ('y' :: x))
      with inside | ⟨m, rfl⟩
    · exact .first (ih hs (bar ▸ inside))
    · exact .later (one.exchange isInert_letter isInert_brace hs (List.cons_ne_nil '|' m) bar z) rfl
        (ih' rfl ha)

/-! ### From the brace to the letter -/

theorem Reads.unclosed_eq (h : Reads task source node after) :
    after.unclosed = source.unclosed := by
  induction h with
  | stop => rfl
  | part _ _ ih => exact ih
  | repeated _ _ _ ih => exact ih
  | group _ _ _ _ _ ih => exact ih
  | one _ _ ih => exact ih
  | more _ _ _ ih ih' => exact ih'.trans ih

theorem token_of_closed {t : List Char} (ends : ∀ c ∈ t.head?, c = ')') (groups : Nat)
    (unclosed : List Nat) : Source.token ⟨t, groups, unclosed⟩ = .ok (.stop, t) := by
  cases t with
  | nil => rfl
  | cons c t =>
    obtain rfl := ends c rfl
    rfl

/-- After `beginning`, a letter and closing parentheses for the groups that are open there can be
read, whatever comes after them, if that ends a sequence. -/
def CanClose (task : Task) (source : Source) (beginning : List Char) : Prop :=
  ∃ k node groups, ∀ t : List Char, (∀ c ∈ t.head?, c = ')') →
    Reads task { source with rest := beginning ++ 'y' :: (List.replicate k ')' ++ t) } node
      ⟨t, groups, source.unclosed⟩

/-- A token before the brace is the same with the letter in its place. -/
theorem token_letter_of_brace {t : Token} {rest : List Char} (token : source.token = .ok (t, rest))
    (ht : t ≠ .stop) (hs : rest = s ++ '\x7b' :: z) : ∃ s', source.rest = s' ++ '\x7b' :: z ∧
      ∀ w, Source.token { source with rest := s' ++ 'y' :: w } = .ok (t, s ++ 'y' :: w) := by
  obtain ⟨taken, hne, htaken⟩ := shorter_of_token token ht
  rw [hs, ← List.append_assoc] at htaken
  exact ⟨_, htaken, token_exchange isInert_brace isInert_letter token htaken
    (List.append_ne_nil_of_left_ne_nil hne _) hs⟩

/-- **Where refused bounds are come upon, a letter and closing parentheses can be read.** -/
theorem Refuses.exists_reads (he : e ≠ .malformed) (h : Refuses e task source) :
    ∃ s z, source.rest = s ++ '\x7b' :: z ∧ IsRefused z e ∧ CanClose task source s := by
  induction h with
  | @here read source token =>
    obtain ⟨z, hz, refused⟩ := isRefused_of_token he token
    refine ⟨[], z, hz, refused, 0, sequence (.char (.single 'y'.toNat) :: read), source.groups,
      fun t ends => ?_⟩
    have letter : Source.token ⟨'y' :: t, source.groups, source.unclosed⟩ =
        .ok (.part (.char (.single 'y'.toNat)), t) := rfl
    exact .part letter (.stop (token_of_closed ends source.groups source.unclosed))
  | part token more ih =>
    obtain ⟨s, z, hs, refused, k, node, groups, reads⟩ := ih
    obtain ⟨s', hs', token'⟩ := token_letter_of_brace token (by simp) hs
    exact ⟨s', z, hs', refused, k, node, groups, fun t ends => .part (token' _) (reads t ends)⟩
  | repeated token last more ih =>
    obtain ⟨s, z, hs, refused, k, node, groups, reads⟩ := ih
    dsimp only at hs
    subst hs
    obtain ⟨taken, htaken⟩ := suffix_of_repeatLast last
    rw [← List.append_assoc] at htaken
    rw [← htaken] at last
    obtain ⟨s', hs', token'⟩ := token_letter_of_brace token (by simp) htaken.symm
    exact ⟨s', z, hs', refused, k, node, groups, fun t ends =>
      .repeated (token' _) (repeatLast_exchange isInert_brace isInert_letter last _) (reads t ends)⟩
  | @inside read source rest token inner ih =>
    -- One parenthesis more closes this group, and nothing comes after it.
    obtain ⟨s, z, hs, refused, k, body, groups, reads⟩ := ih
    obtain ⟨s', hs', token'⟩ := token_letter_of_brace token (by simp) hs
    refine ⟨s', z, hs', refused, k + 1, sequence (.group (source.groups + 1) body :: read), groups,
      fun t ends => ?_⟩
    have inner' := reads (')' :: t) (by simp)
    rw [List.replicate_succ', List.append_assoc]
    exact .group (token' _) inner' rfl (.stop (token_of_closed ends groups source.unclosed))
  | @behind read source rest rest' body closed token inner close more ih =>
    obtain ⟨s, z, hs, refused, k, node, groups, reads⟩ := ih
    dsimp only at hs
    subst hs
    obtain ⟨s₁, -, hs₁⟩ := inner.exists_rest (List.cons_ne_nil ')' s) close
    obtain ⟨s', hs', token'⟩ := token_letter_of_brace token (by simp) hs₁
    exact ⟨s', z, hs', refused, k, node, groups, fun t ends => .group (token' _)
      (inner.exchange isInert_brace isInert_letter hs₁ (List.cons_ne_nil ')' s) close _) rfl
        (reads t ends)⟩
  | first first ih =>
    obtain ⟨s, z, hs, refused, k, node, groups, reads⟩ := ih
    refine ⟨s, z, hs, refused, k, node, groups, fun t ends => .one (reads t ends) fun bar => ?_⟩
    cases ends _ bar
  | @later source first mid rest one bar others ih =>
    obtain ⟨s, z, hs, refused, k, node, groups, reads⟩ := ih
    dsimp only at hs
    subst hs
    obtain ⟨s', -, hs'⟩ := one.exists_rest (List.cons_ne_nil '|' s) bar
    refine ⟨s', z, hs', refused, k, .alt first node, groups, fun t ends => ?_⟩
    have others' := reads t ends
    dsimp only at others'
    rw [one.unclosed_eq] at others'
    exact .more (one.exchange isInert_brace isInert_letter hs' (List.cons_ne_nil '|' s) bar _) rfl
      (one.unclosed_eq.symm ▸ others')

/-! ### Whole patterns -/

/-- A text that some letter and closing parentheses make a pattern of. -/
def MayGoOn (s : List Char) : Prop := ∃ k node, read (s ++ 'y' :: List.replicate k ')') = .ok node

/-- **A text is refused, and not only malformed, if and only if outsized bounds follow the beginning
of a pattern.** -/
theorem read_eq_error_iff_beginning (he : e ≠ .malformed) : read s = .error e ↔
    ∃ first text rest, s = first ++ '\x7b' :: (text ++ '\x7d' :: rest) ∧ OutsizedBounds text e ∧
      rest ≠ ['\\'] ∧ MayGoOn first := by
  rw [read_eq_error_iff he]
  constructor
  · intro refuses
    obtain ⟨first, z, rfl, refused, k, node, groups, reads⟩ := refuses.exists_reads he
    obtain ⟨text, rest, rfl, outsized, more⟩ := (isRefused_iff he).1 refused
    have whole := reads [] (by simp)
    rw [List.append_nil] at whole
    exact ⟨first, text, rest, rfl, outsized, more, k, node, read_eq_ok_iff.2 ⟨_, whole, rfl⟩⟩
  · rintro ⟨first, text, rest, rfl, outsized, more, k, node, whole⟩
    obtain ⟨after, reads, empty⟩ := read_eq_ok_iff.1 whole
    exact reads.refuses (fun d hd => List.eq_of_mem_replicate hd)
      ((isRefused_iff he).2 ⟨text, rest, rfl, outsized, more⟩) rfl (empty ▸ List.nil_suffix)

/-! ### Texts without groups -/

/-- Closing parentheses after a letter are left over where no group was opened. -/
theorem Reads.rest_ne_nil (hx : ∀ d ∈ x, d = ')') (hne : x ≠ []) (h : Reads task source node after)
    (plain : '(' ∉ source.rest) (hs : (∃ s, source.rest = s ++ 'y' :: x) ∨ source.rest = x) :
    after.rest ≠ [] := by
  have stops {source : Source} {t : Token} {rest : List Char} (token : source.token = .ok (t, rest))
      (hs : source.rest = x) : t = .stop := by
    obtain ⟨w, groups, unclosed⟩ := source
    subst hs
    obtain ⟨d, x, rfl⟩ := List.exists_cons_of_ne_nil hne
    obtain rfl := hx d (List.mem_cons_self ..)
    cases token
    rfl
  induction h with
  | @stop read source rest token =>
    obtain ⟨s, hs⟩ | hs := hs
    · simp [hs]
    · exact hs ▸ hne
  | @part read source part rest node after token more ih =>
    have plain' := fun h => plain ((suffix_of_token token (by simp)).subset h)
    obtain ⟨s, hs⟩ | hs := hs
    · obtain ⟨w, groups, unclosed⟩ := source
      dsimp only at hs
      subst hs
      by_cases first : s = []
      · subst first
        cases token
        exact ih plain' (.inr rfl)
      · exact ih plain' (.inl (token_before_letter first hx token))
    · cases stops token hs
  | @repeated read read' source least greatest rest rest' node after token last more ih =>
    have suffix := (suffix_of_repeatLast last).trans (suffix_of_token token (by simp))
    have plain' := fun h => plain (suffix.subset h)
    obtain ⟨s, hs⟩ | hs := hs
    · obtain ⟨w, groups, unclosed⟩ := source
      dsimp only at hs
      subst hs
      by_cases first : s = []
      · subst first
        cases token
      · obtain ⟨l, rfl⟩ := token_before_letter first hx token
        obtain ⟨l', rfl, -⟩ := repeatLast_local isInert_letter last
        exact ih plain' (.inl ⟨l', rfl⟩)
    · cases stops token hs
  | group token inner close more ih ih' => exact absurd (by simp [rest_of_opening token]) plain
  | one first last ih => exact ih plain hs
  | @more source first second mid after rest one bar others ih ih' =>
    have ends := one.suffix
    rw [bar] at ends
    have plain' := fun h => plain (ends.subset (List.mem_cons_of_mem '|' h))
    have outside : '|' ∉ x := fun h => absurd (hx _ h) (by decide)
    obtain ⟨s, hs⟩ | hs := hs
    · rw [hs] at ends
      rcases suffix_or_beyond (by decide) ends (List.suffix_append s ('y' :: x))
        with inside | ⟨m, rfl⟩
      · exact absurd (inside.subset (List.mem_cons_self ..)) outside
      · exact ih' plain' (.inl ⟨m, rfl⟩)
    · rw [hs] at ends
      exact absurd (ends.subset (List.mem_cons_self ..)) outside

/-- **A text without groups that may go on goes on with a letter alone.** -/
theorem mayGoOn_iff (plain : '(' ∉ s) : MayGoOn s ↔ ∃ node, read (s ++ ['y']) = .ok node := by
  constructor
  · rintro ⟨k, node, whole⟩
    obtain ⟨after, reads, empty⟩ := read_eq_ok_iff.1 whole
    by_cases hk : k = 0
    · subst hk
      exact ⟨node, whole⟩
    · refine absurd empty (reads.rest_ne_nil (fun d hd => List.eq_of_mem_replicate hd)
        (by simpa using hk) ?_ (.inl ⟨s, rfl⟩))
      simp [plain]
  · rintro ⟨node, whole⟩
    exact ⟨0, node, whole⟩

end ActionItems.Pattern
