import ActionItems.Glob
import ActionItems.Proofs.Options.Usability
import ActionItems.Proofs.Pattern.Refusal

/-!
# Globs that are refused

A glob that is malformed is passed over, but one with outsized bounds after the beginning of a
pattern is refused (`compile?_eq_error_iff`), and with it every list that it is in
(`exists_compileAll_iff`). The notation of search patterns has braces, commas and digits only where
the glob has them (`exists_append_of_asPattern`), so the bounds can be told from the glob itself.
Among the globs of options there are neither commas nor groups, so there the bounds are one number,
and the beginning is one that a letter makes a pattern of (`isRefused_iff_of_isGlob`).
-/

namespace ActionItems.Glob

open ActionItems.Pattern

variable {c : Char} {s z u v glob : List Char} {e : ReadError}

/-! ### Characters that stand for themselves alone -/

/-- A character that stands in a search pattern only where the glob has it. -/
def IsPlain (c : Char) : Prop := c ∉ ['*', '?', '.', '[', '^', '/', ']', '\\']

instance : Decidable (IsPlain c) := inferInstanceAs (Decidable (c ∉ _))

theorem asPatternChar_of_isPlain (hc : IsPlain c) : asPatternChar c = [c] := by
  unfold asPatternChar
  split
  · exact absurd (by decide) hc
  · exact absurd (by decide) hc
  · exact absurd (by decide) hc
  · rfl

theorem eq_of_mem_asPatternChar (hc : IsPlain c) {d : Char} (h : c ∈ asPatternChar d) : d = c := by
  unfold IsPlain at hc
  unfold asPatternChar at h
  split at h
  · simp_all
  · simp_all
  · simp_all
  · exact (List.mem_singleton.1 h).symm

theorem isPlain_of_isDigit (h : c.isDigit = true) : IsPlain c := by
  unfold IsPlain
  simp only [List.mem_cons, List.not_mem_nil, or_false]
  rintro (rfl | rfl | rfl | rfl | rfl | rfl | rfl | rfl) <;> cases h

theorem isPlain_of_outsized {text : List Char} (h : OutsizedBounds text e) :
    ∀ c ∈ text, IsPlain c := by
  have numeral {n : List Char} (digits : IsNumeral n) : ∀ c ∈ n, IsPlain c := fun c hc =>
    isPlain_of_isDigit (digits c hc)
  have comma : IsPlain ',' := by decide
  cases h with
  | number digits _ => exact numeral digits
  | least digits digits' _ =>
    exact List.forall_mem_append.2 ⟨numeral digits, List.forall_mem_cons.2 ⟨comma, numeral digits'⟩⟩
  | greatest digits digits' _ _ =>
    exact List.forall_mem_append.2 ⟨numeral digits, List.forall_mem_cons.2 ⟨comma, numeral digits'⟩⟩

theorem asPattern_append (u v : List Char) : asPattern (u ++ v) = asPattern u ++ asPattern v :=
  List.flatMap_append

theorem asPattern_of_isPlain (h : ∀ c ∈ s, IsPlain c) : asPattern s = s := by
  induction s with
  | nil => rfl
  | cons c s ih =>
    obtain ⟨hc, hs⟩ := List.forall_mem_cons.1 h
    show asPatternChar c ++ asPattern s = c :: s
    rw [asPatternChar_of_isPlain hc, ih hs]
    rfl

/-- **A plain character of a pattern is one of the glob.** -/
theorem exists_append_of_asPattern (hc : IsPlain c) (h : asPattern glob = s ++ c :: z) :
    ∃ u v, glob = u ++ c :: v ∧ asPattern u = s ∧ asPattern v = z := by
  induction glob generalizing s with
  | nil => simp [asPattern] at h
  | cons d glob ih =>
    change asPatternChar d ++ asPattern glob = _ at h
    rcases List.append_eq_append_iff.1 h with ⟨left, hs, hrest⟩ | ⟨left, hchar, hrest⟩
    · obtain ⟨u, v, rfl, hu, rfl⟩ := ih hrest
      exact ⟨d :: u, v, rfl, by rw [hs, ← hu]; rfl, rfl⟩
    · cases left with
      | nil =>
        obtain ⟨u, v, rfl, hu, rfl⟩ := ih (s := []) hrest.symm
        refine ⟨d :: u, v, rfl, ?_, rfl⟩
        show asPatternChar d ++ asPattern u = s
        rw [hchar, hu, List.append_nil, List.append_nil]
      | cons c' left =>
        obtain ⟨rfl, hz⟩ := List.cons.inj hrest
        obtain rfl : d = c := eq_of_mem_asPatternChar hc (by rw [hchar]; simp)
        rw [asPatternChar_of_isPlain hc] at hchar
        cases s with
        | nil =>
          cases hchar
          exact ⟨[], glob, rfl, rfl, hz.symm⟩
        | cons x s => simp at hchar

theorem asPatternChar_ne_nil (d : Char) : asPatternChar d ≠ [] := by
  unfold asPatternChar
  split <;> exact List.cons_ne_nil _ _

/-- A text of plain characters is the notation of itself alone. -/
theorem asPattern_eq_iff (h : ∀ c ∈ s, IsPlain c) : asPattern u = s ↔ u = s := by
  constructor
  · rintro rfl
    induction u with
    | nil => rfl
    | cons d u ih =>
      obtain ⟨c, more, hd⟩ := List.exists_cons_of_ne_nil (asPatternChar_ne_nil d)
      have hc : c ∈ asPatternChar d := by
        rw [hd]
        exact List.mem_cons_self ..
      have plain : IsPlain c := h c (List.mem_append_left _ hc)
      obtain rfl := eq_of_mem_asPatternChar plain hc
      show d :: u = asPatternChar d ++ asPattern u
      rw [asPatternChar_of_isPlain plain, ← ih fun c hc => h c (List.mem_append_right _ hc)]
      rfl
  · rintro rfl
    exact asPattern_of_isPlain h

theorem asPattern_eq_backslash_iff : asPattern u = ['\\'] ↔ u = ['\\'] := by
  constructor
  · intro h
    cases u with
    | nil => cases h
    | cons d u =>
      change asPatternChar d ++ asPattern u = _ at h
      unfold asPatternChar at h
      split at h
      · cases h
      · cases h
      · cases h
      · obtain ⟨rfl, hu⟩ := List.cons.inj h
        rw [(asPattern_eq_iff (by simp)).1 hu]
  · rintro rfl
    rfl

/-! ### The characters of globs of options -/

theorem isGlob_of_ofValue {raw : Value} {o : Options} (h : Options.ofValue raw = .ok o) :
    ∀ glob ∈ o.ignoreFiles, Options.IsGlob glob.toList := by
  have settled : Options.Settled raw "ignore_files" (.globs o.ignoreFiles) :=
    Options.settled_of_ofValue h ("ignore_files", .globs o.ignoreFiles) (by simp [Options.settings])
  rcases settled with ⟨v, -, -, -, -, -, globs⟩ | ⟨-, stands⟩
  · exact globs
  · obtain standing : o.ignoreFiles = [] := by simpa [Options.settings] using stands
    simp [standing]

/-- The globs of options have neither commas, nor groups, nor backslashes. -/
theorem not_mem_of_isGlob (h : Options.IsGlob glob) (hc : c ∈ [',', '(', '\\']) : c ∉ glob := by
  obtain ⟨noWord, noMark, noFeed⟩ : Text.isWord c = false ∧ c ∉ "*[]\x7b\x7d?./-".toList ∧
      c ≠ '\n' := by
    simp only [List.mem_cons, List.not_mem_nil, or_false] at hc
    rcases hc with rfl | rfl | rfl <;> decide
  obtain ⟨body, hglob, -, all⟩ := h
  have hbody : c ∉ body := fun hmem => by
    rcases all c hmem with isWord | isMark
    · rw [noWord] at isWord
      cases isWord
    · exact noMark isMark
  rcases hglob with rfl | rfl
  · exact hbody
  · simp [hbody, noFeed]

/-! ### Globs that are refused -/

variable [CharNames]

theorem compile?_eq_ok_some_iff {text : String} {node : Node} :
    compile? text = .ok (some node) ↔ read (asPattern text.toList) = .ok node := by
  unfold compile?
  cases read (asPattern text.toList) with
  | ok node => simp
  | error e => cases e <;> simp

theorem compile?_eq_error_iff_read {text : String} :
    compile? text = .error e ↔ e ≠ .malformed ∧ read (asPattern text.toList) = .error e := by
  unfold compile?
  constructor
  · intro h
    split at h
    · cases h
    · cases h
    · next other hread =>
      cases h
      exact ⟨fun he => other he, hread⟩
  · rintro ⟨he, h⟩
    rw [h]
    cases e with
    | malformed => exact absurd rfl he
    | repetition => rfl
    | number => rfl

/-- The beginning of a glob: some letter and closing parentheses make one of it. -/
def IsBeginning (first : List Char) : Prop :=
  ∃ k node, compile? (String.ofList (first ++ 'y' :: List.replicate k ')')) = .ok (some node)

/-- A glob with outsized bounds after a beginning, and more than a backslash or nothing after
them. -/
def IsRefused (glob : List Char) (e : ReadError) : Prop :=
  ∃ first bounds rest, glob = first ++ '\x7b' :: (bounds ++ '\x7d' :: rest) ∧
    OutsizedBounds bounds e ∧ rest ≠ ['\\'] ∧ IsBeginning first

theorem isBeginning_iff : IsBeginning u ↔ MayGoOn (asPattern u) := by
  have letter (k : Nat) : asPattern (u ++ 'y' :: List.replicate k ')') =
      asPattern u ++ 'y' :: List.replicate k ')' := by
    rw [asPattern_append, asPattern_of_isPlain (s := 'y' :: List.replicate k ')')]
    intro c hc
    rcases List.mem_cons.1 hc with rfl | hc
    · decide
    · rw [List.eq_of_mem_replicate hc]
      decide
  simp only [IsBeginning, MayGoOn, compile?_eq_ok_some_iff, String.toList_ofList, letter]

/-- **A glob is refused where outsized bounds come after a beginning**, and for no other reason. -/
theorem compile?_eq_error_iff {text : String} :
    compile? text = .error e ↔ IsRefused text.toList e := by
  rw [compile?_eq_error_iff_read]
  constructor
  · rintro ⟨he, h⟩
    obtain ⟨first, bounds, rest, hpattern, outsized, more, goes⟩ :=
      (read_eq_error_iff_beginning he).1 h
    obtain ⟨u, v, hglob, rfl, hv⟩ := exists_append_of_asPattern (by decide) hpattern
    obtain ⟨n, w, rfl, hn, rfl⟩ := exists_append_of_asPattern (by decide) hv
    rw [asPattern_eq_iff (isPlain_of_outsized outsized)] at hn
    subst hn
    exact ⟨u, n, w, hglob, outsized, mt asPattern_eq_backslash_iff.2 more, isBeginning_iff.2 goes⟩
  · rintro ⟨first, bounds, rest, hglob, outsized, more, goes⟩
    have he : e ≠ .malformed := fun he => not_outsized_malformed (he ▸ outsized)
    refine ⟨he, (read_eq_error_iff_beginning he).2 ⟨asPattern first, bounds, asPattern rest,
      ?_, outsized, mt asPattern_eq_backslash_iff.1 more, isBeginning_iff.1 goes⟩⟩
    have opening (t : List Char) : asPattern ('\x7b' :: t) = '\x7b' :: asPattern t := rfl
    have closing (t : List Char) : asPattern ('\x7d' :: t) = '\x7d' :: asPattern t := rfl
    rw [hglob, asPattern_append, opening, asPattern_append, closing,
      asPattern_of_isPlain (isPlain_of_outsized outsized)]

/-! ### Lists of globs -/

theorem exists_compileAll_iff {globs : List String} :
    (∃ patterns, compileAll globs = .ok patterns) ↔
      ∀ glob ∈ globs, ∀ e, ¬ IsRefused glob.toList e := by
  induction globs with
  | nil => simp [compileAll]
  | cons glob globs ih =>
    rw [List.forall_mem_cons, ← ih]
    simp only [← compile?_eq_error_iff, compileAll]
    cases compile? glob with
    | error e => simp [bind, Except.bind]
    | ok first => cases compileAll globs <;> simp [bind, Except.bind, pure, Except.pure]

/-- A path is matched by the globs whose patterns occur in it; a malformed one has none. -/
theorem anyMatch_iff {globs : List String} {patterns : List Node}
    (h : compileAll globs = .ok patterns) (path : String) : anyMatch patterns path = true ↔
      ∃ glob ∈ globs, ∃ node, compile? glob = .ok (some node) ∧ search node path.toList = true := by
  induction globs generalizing patterns with
  | nil =>
    cases h
    simp [anyMatch]
  | cons glob globs ih =>
    obtain ⟨first, hfirst, h⟩ := Except.of_bind_ok h
    obtain ⟨rest, hrest, h⟩ := Except.of_bind_ok h
    cases h
    have own : anyMatch (first.toList ++ rest) path = true ↔
        (∃ node, first = some node ∧ search node path.toList = true) ∨
        anyMatch rest path = true := by
      cases first <;> simp [anyMatch]
    rw [own, ih hrest, List.exists_mem_cons_iff, hfirst]
    simp

/-! ### Globs of options -/

/-- A glob with an outsized number in braces after the beginning of a glob. -/
def IsOutsized (glob : List Char) (e : ReadError) : Prop :=
  ∃ first number rest, glob = first ++ '\x7b' :: (number ++ '\x7d' :: rest) ∧ IsNumeral number ∧
    Outsized number e ∧ ∃ node, compile? (String.ofList (first ++ ['y'])) = .ok (some node)

/-- **A glob of options is refused because of one number.** -/
theorem isRefused_iff_of_isGlob (h : Options.IsGlob glob) :
    IsRefused glob e ↔ IsOutsized glob e := by
  constructor
  · rintro ⟨first, bounds, rest, rfl, outsized, -, goes⟩
    -- Without a comma there is one number, and without a group no parenthesis has to be closed.
    have comma : ',' ∉ bounds := by
      have := not_mem_of_isGlob h (c := ',') (by simp)
      simp_all
    have groups : '(' ∉ asPattern first := fun hmem => by
      obtain ⟨s, z, hs⟩ := List.append_of_mem hmem
      obtain ⟨u, v, rfl, -, -⟩ := exists_append_of_asPattern (by decide) hs
      exact not_mem_of_isGlob h (c := '(') (by simp) (by simp)
    obtain ⟨node, hnode⟩ := (mayGoOn_iff groups).1 (isBeginning_iff.1 goes)
    have letter : compile? (String.ofList (first ++ ['y'])) = .ok (some node) := by
      rw [compile?_eq_ok_some_iff, String.toList_ofList, asPattern_append]
      exact hnode
    cases outsized with
    | number digits outsized => exact ⟨first, bounds, rest, rfl, digits, outsized, node, letter⟩
    | least => exact absurd (by simp) comma
    | greatest => exact absurd (by simp) comma
  · rintro ⟨first, number, rest, rfl, digits, outsized, node, letter⟩
    refine ⟨first, number, rest, rfl, .number digits outsized, ?_, 0, node, letter⟩
    rintro rfl
    exact not_mem_of_isGlob h (c := '\\') (by simp) (by simp)

/-- A number that is too large to be counted. -/
example : compile? "a\x7b4294967295\x7d" = .error .repetition := rfl

/-- The same after a character that is asked for by its name. -/
example :
    @compile? CharNames.ascii "\\N\x7bDIGIT ONE\x7d\x7b4294967295\x7d" = .error .repetition := by
  decide +kernel

end ActionItems.Glob
