import ActionItems.Proofs.Glob.Meaning
import ActionItems.Proofs.Keyword.Alone
import ActionItems.Proofs.Pattern.Whole

/-!
# Which globs are options

A glob among the options is a text that a pattern for whole texts matches: marks of directories at
its ends, which may be missing, and characters between them (`globNotation`). The marks are such
characters themselves, so however a text is shared between the parts of the pattern, it is a text of
these characters and at least one of them, and each such text can be shared (`spells_globBody`). A
line feed at the end of a text does not count for the pattern, so it does not count here
(`isGlob_iff_matches`). With that it is known of any list of texts whether it is an option, and that
blanks are in none of its globs, a line feed at the end apart (`globs_settled`).
-/

namespace ActionItems.Options

open ActionItems.Glob ActionItems.Pattern ActionItems.Text

variable {c : Char} {s : List Char}

/-- The pattern of globs: the root or directories of any depth in front, and all below a directory
at the end. -/
def globNotation : String := "^(/?(\\*\\*/)?[\\w*\\[\\]\x7b\x7d?./-]+(/\\*\\*)?/?)$"

/-- The characters of globs as a set. -/
def globSet : CharSet := ⟨false, .inside .word :: points "*[]\x7b\x7d?./-".toList⟩

/-- A character that stands for itself. -/
def mark (c : Char) : Node := .char (.single c.toNat)

/-- A part that may be missing. -/
def perhaps (body : Node) : Node := .loop 0 (some 1) false body

/-- What comes before the characters of a glob. -/
def globFront : Node :=
  .seq (perhaps (mark '/')) (perhaps (.group 2 (.seq (.seq (mark '*') (mark '*')) (mark '/'))))

/-- The pattern of globs between its anchors. -/
def globBody : Node :=
  .group 1 (.seq (.seq (.seq globFront (.loop 1 none false (.char globSet)))
    (perhaps (.group 3 (.seq (.seq (mark '/') (mark '*')) (mark '*'))))) (perhaps (mark '/')))

theorem read_globNotation [CharNames] : Pattern.read globNotation.toList = .ok (whole globBody) :=
  rfl

theorem isRegular_globBody : IsRegular globBody := by
  repeat constructor

theorem test_globSet : globSet.test c = true ↔ isGlobChar c = true := by
  have marks : CharSet.test ⟨false, points "*[]\x7b\x7d?./-".toList⟩ c = true ↔
      c ∈ "*[]\x7b\x7d?./-".toList := by
    simp [test_points]
  rw [isGlobChar_iff, ← marks, globSet, CharSet.test, CharSet.test, List.any_cons]
  simp [SetItem.test, CharClass.test]

theorem within_mark (h : isGlobChar c = true) : Within (isGlobChar · = true) (mark c) := by
  intro d hd
  have same : CharSet.test ⟨false, points [c]⟩ d = true := hd
  obtain rfl : d = c := by simpa [test_points] using same
  exact h

/-- **The pattern spells the texts of characters of globs**, and no empty text. -/
theorem spells_globBody : Spells globBody s ↔ s ≠ [] ∧ ∀ c ∈ s, isGlobChar c = true := by
  constructor
  · intro h
    have slash : Within (isGlobChar · = true) (mark '/') := within_mark (by decide)
    have star : Within (isGlobChar · = true) (mark '*') := within_mark (by decide)
    have within : Within (isGlobChar · = true) globBody :=
      ⟨⟨⟨⟨slash, ⟨star, star⟩, slash⟩, fun c => test_globSet.1⟩, ⟨slash, star⟩, star⟩, slash⟩
    refine ⟨?_, h.forall_of_within within⟩
    obtain ⟨_, last, outer, -, rfl⟩ := spells_seq.1 (spells_group.1 h)
    obtain ⟨_, below, inner, -, rfl⟩ := spells_seq.1 outer
    obtain ⟨front, middle, -, between, rfl⟩ := spells_seq.1 inner
    have given : middle ≠ [] := List.length_pos_iff.1 (spells_many.1 between).1
    simp [given]
  · rintro ⟨nonempty, all⟩
    have middle : Spells (.loop 1 none false (.char globSet)) s :=
      .many (List.length_pos_iff.2 nonempty) fun c hc => test_globSet.2 (all c hc)
    have cut : Spells globBody ([] ++ [] ++ s ++ [] ++ []) :=
      .group (.seq (.seq (.seq (.seq .absent .absent) middle) .absent) .absent)
    simpa using cut

/-- **A text may be a glob if and only if the pattern of globs matches it.** -/
theorem isGlob_iff_matches : IsGlob s ↔ matchesAt (whole globBody) ⟨[], s, []⟩ = true := by
  simp only [matches_whole_iff isRegular_globBody, spells_globBody, isGlobChar_iff]
  rfl

/-! ### Blanks -/

theorem isBlank_of_isGlobChar (h : isGlobChar c = true) : isBlank c = false := by
  by_contra blank
  rw [Bool.not_eq_false] at blank
  rcases isGlobChar_iff.1 h with word | mem
  · rw [Keywords.isWord_of_isBlank blank] at word
    cases word
  · have solid : ∀ c ∈ "*[]\x7b\x7d?./-".toList, isBlank c = false :=
      List.forall_iff_forall_mem.1 (by decide)
    rw [solid c mem] at blank
    cases blank

/-- A glob has no blanks but a line feed at its end. -/
theorem IsGlob.solid (h : IsGlob s) :
    ∃ body, (s = body ∨ s = body ++ ['\n']) ∧ ∀ c ∈ body, isBlank c = false := by
  obtain ⟨body, hs, -, all⟩ := h
  exact ⟨body, hs, fun c hc => isBlank_of_isGlobChar (isGlobChar_iff.2 (all c hc))⟩

/-! ### Lists of globs -/

theorem Holds.texts_eq {v : Value} {texts texts' : List String} (h : Holds v (texts.map .text))
    (h' : Holds v (texts'.map .text)) : texts = texts' := by
  have same : texts.map Value.text = texts'.map .text :=
    Option.some.inj ((items?_eq_some_iff.2 h).symm.trans (items?_eq_some_iff.2 h'))
  exact List.map_injective_iff.2 (fun _ _ => Value.text.inj) same

/-- Texts are read as globs if all of them may be, and otherwise not at all. -/
theorem readGlobs?_texts {v : Value} {globs : List String} (h : Holds v (globs.map .text))
    (least : 1 ≤ globs.length) (greatest : globs.length ≤ 7) :
    readGlobs? v = if ∀ g ∈ globs, isGlob g.toList = true then some globs else none := by
  split
  · next all =>
    exact readGlobs?_eq_some_iff.2 ⟨h, least, greatest, fun g hg => isGlob_iff.1 (all g hg)⟩
  · next missed =>
    refine Option.eq_none_iff_forall_ne_some.2 fun others hread => missed ?_
    obtain ⟨h', -, -, all⟩ := readGlobs?_eq_some_iff.1 hread
    obtain rfl := h.texts_eq h'
    exact fun g hg => isGlob_iff.2 (all g hg)

/-- **Lists of texts are settled.** One to seven texts are the globs of the options if the pattern
of globs matches each of them, and are passed over otherwise. The pattern matches a text of word
characters and marks that is not empty, and the same with a line feed behind it; so a line feed at
its end is the only blank that a glob can have. -/
theorem globs_settled [CharNames] {globs : List String} (least : 1 ≤ globs.length)
    (greatest : globs.length ≤ 7) {v : Value} (h : Holds v (globs.map .text)) :
    ∃ glob, Pattern.read globNotation.toList = .ok glob ∧
      (Setting.read? "ignore_files" v = .ok (some (.globs globs)) ↔
        ∀ g ∈ globs, matchesAt glob ⟨[], g.toList, []⟩ = true) ∧
      (Setting.read? "ignore_files" v = .ok none ↔
        ∃ g ∈ globs, matchesAt glob ⟨[], g.toList, []⟩ = false) ∧
      ∀ g : String, (matchesAt glob ⟨[], g.toList, []⟩ = true ↔
          ∃ body, (g.toList = body ∨ g.toList = body ++ ['\n']) ∧ body ≠ [] ∧
            ∀ c ∈ body, isWord c = true ∨ c ∈ "*[]\x7b\x7d?./-".toList) ∧
        (matchesAt glob ⟨[], g.toList, []⟩ = true →
          ∃ body, (g.toList = body ∨ g.toList = body ++ ['\n']) ∧
            ∀ c ∈ body, isBlank c = false) := by
  have found : Setting.read? "ignore_files" v =
      .ok (if ∀ g ∈ globs, isGlob g.toList = true then some (.globs globs) else none) := by
    have read : Setting.read? "ignore_files" v = .ok ((readGlobs? v).map .globs) := by
      cases h <;> rfl
    rw [read, readGlobs?_texts h least greatest]
    split <;> rfl
  have same (g : String) : isGlob g.toList = matchesAt (whole globBody) ⟨[], g.toList, []⟩ := by
    rw [Bool.eq_iff_iff, isGlob_iff, isGlob_iff_matches]
  refine ⟨whole globBody, read_globNotation, ?_, ?_,
    fun g => ⟨?_, fun hg => (isGlob_iff_matches.2 hg).solid⟩⟩
  · rw [found]
    simp [same]
  · rw [found]
    simp [same]
  · exact isGlob_iff_matches.symm

/-- A list with directories of any depth is an option, also with a line feed at its end, and one
with a blank inside a glob is not. -/
theorem globs_settled_newline :
    Setting.read? "ignore_files" (.list [.text "**/build/**", .text "*.min.js\n"]) =
        .ok (some (.globs ["**/build/**", "*.min.js\n"])) ∧
      Setting.read? "ignore_files" (.list [.text "a b", .text "c"]) = .ok none := by
  let _ := CharNames.none
  obtain ⟨glob, -, accepted, -, form⟩ :=
    globs_settled (by decide : 1 ≤ ["**/build/**", "*.min.js\n"].length) (by decide) (.list _)
  obtain ⟨glob', -, -, refused, spaced⟩ :=
    globs_settled (by decide : 1 ≤ ["a b", "c"].length) (by decide) (.list _)
  constructor
  · refine accepted.2 (List.forall_mem_cons.2 ⟨?_, List.forall_mem_singleton.2 ?_⟩)
    · exact (form _).1.2 ⟨"**/build/**".toList, .inl rfl,
        by decide, List.forall_iff_forall_mem.1 (by decide)⟩
    · exact (form _).1.2 ⟨"*.min.js".toList, .inr rfl,
        by decide, List.forall_iff_forall_mem.1 (by decide)⟩
  · refine refused.2 ⟨"a b", List.mem_cons_self, Bool.eq_false_iff.2 fun found => ?_⟩
    obtain ⟨body, hbody | hbody, solid⟩ := (spaced "a b").2 found
    · exact absurd (solid ' ' (hbody ▸ by decide)) (by decide)
    · exact absurd (congrArg List.getLast? hbody) (by simp)

end ActionItems.Options
