import ActionItems.Proofs.Diff.Files
import ActionItems.Proofs.Diff.HunkHeader
import ActionItems.Proofs.Except

/-!
# Where the reading of a diff fails

Every way in which a line is taken is a constructor of `Takes`. Between two lines a reading is
`Coherent`: an open file that is not ignored is one of the files, and in a hunk lines have positive
numbers. So an added line always finds its file and makes a line of it, and a coherent reading fails
at a hunk header whose start has more digits than are converted, or not at all (`Coherent.step`,
`Coherent.run`).

A reading that ignores no file looks at every line, so it comes to its end if and only if the diff
has no such header (`addedLines_ok_iff`).
-/

namespace ActionItems.Diff

open ActionItems.Number ActionItems.Text

theorem pos_of_hunkStart? {line : List Char} {start : Nat}
    (h : hunkStart? line = .ok (some start)) : 1 ≤ start := by
  unfold hunkStart? at h
  cases hd : hunkDigits? line with
  | none => rw [hd] at h; cases h
  | some digits =>
    rw [hd] at h
    obtain ⟨n, -, h⟩ := Except.of_bind_ok h
    split at h
    · next hpos =>
      cases h
      omega
    · cases h

namespace Progress

variable {ignored : String → Bool} {p q : Progress}

/-- How a line is taken. -/
inductive Takes (ignored : String → Bool) (p : Progress) :
    List Char → Except ReadError Progress → Prop
  | file (text : List Char) : Takes ignored p (fileMark ++ text) (.ok (p.openFile ignored text))
  /-- The file is ignored. -/
  | passed {line : List Char} (nofile : ¬ fileMark <+: line) (skips : p.skipping = true) :
    Takes ignored p line (.ok p)
  /-- The start of a hunk is not converted. -/
  | refused {text : List Char} {e : IntegerError} (active : p.skipping = false)
    (start : hunkStart? (hunkMark ++ text) = .error e) :
    Takes ignored p (hunkMark ++ text) (.error (.number e))
  /-- The header of a hunk is malformed or the hunk has no lines in the new version. -/
  | closed {text : List Char} (active : p.skipping = false)
    (start : hunkStart? (hunkMark ++ text) = .ok none) :
    Takes ignored p (hunkMark ++ text) (.ok { p with inHunk := false, line := p.line + 1 })
  | opened {text : List Char} {n : Nat} (active : p.skipping = false)
    (start : hunkStart? (hunkMark ++ text) = .ok (some n)) :
    Takes ignored p (hunkMark ++ text) (.ok { p with inHunk := true, line := n })
  | added {text : List Char} {path : String} (nofile : ¬ "++ ".toList <+: text)
    (active : p.skipping = false) (hunk : p.inHunk = true) (current : p.current? = some path) :
    Takes ignored p ('+' :: text) ((p.add path text).map fun q => { q with line := q.line + 1 })
  /-- The line is only counted. -/
  | plain {line : List Char} (nofile : ¬ fileMark <+: line) (nohunk : ¬ hunkMark <+: line)
    (active : p.skipping = false)
    (outside : ['+'] <+: line → p.inHunk = false ∨ p.current? = none) :
    Takes ignored p line (.ok (p.count line))

theorem count_hunkMark (p : Progress) (text : List Char) :
    p.count (hunkMark ++ text) = { p with line := p.line + 1 } :=
  count_of_present (isAbsent_cons (by decide) (by decide) _) p

theorem body_hunkMark (p : Progress) (text : List Char) :
    p.body (hunkMark ++ text) = p.openHunk (hunkMark ++ text) := by
  unfold Progress.body
  rw [List.isPrefixOf_iff_prefix.2 (List.prefix_append _ _), if_pos rfl]

/-- The result of a line is told by the way in which it is taken. -/
theorem Takes.eq {line : List Char} {r : Except ReadError Progress} (h : Takes ignored p line r) :
    p.step ignored line = r := by
  have hunk (text : List Char) : dropStart? fileMark (hunkMark ++ text) = none :=
    dropStart?_eq_none (not_prefix_cons (by decide) _ _)
  cases h with
  | file text => exact step_fileMark p text
  | passed nofile skips => exact step_of_skipping (dropStart?_eq_none nofile) skips
  | @refused text e active start =>
    rw [step_eq_body (hunk text) active, body_hunkMark, openHunk, start]
    rfl
  | @closed text active start =>
    rw [step_eq_body (hunk text) active, body_hunkMark, openHunk, start]
    exact congrArg Except.ok (count_hunkMark _ text)
  | @opened text n active start =>
    rw [step_eq_body (hunk text) active, body_hunkMark, openHunk, start]
    show Except.ok (count _ _) = _
    rw [count_hunkMark]
    simp only [Nat.sub_add_cancel (pos_of_hunkStart? start)]
  | @added text path nofile active hin current =>
    rw [step_eq_body (dropStart?_plus nofile) active, body_plus, hin, current]
    dsimp only
    cases p.add path text with
    | error e => rfl
    | ok q => exact congrArg Except.ok (count_plus q text)
  | @plain _ nofile nohunk active outside =>
    have body : p.body line = .ok p := by
      unfold Progress.body
      rw [Bool.eq_false_iff.2 (fun h => nohunk (List.isPrefixOf_iff_prefix.1 h)),
        if_neg Bool.false_ne_true]
      split
      · next text path hin current =>
        rcases outside ⟨text, rfl⟩ with h | h
        · rw [hin] at h; cases h
        · rw [current] at h; cases h
      · rfl
    rw [step_eq_body (dropStart?_eq_none nofile) active, body]
    rfl

theorem Takes.step {line : List Char} {r : Except ReadError Progress} (h : Takes ignored p line r) :
    Takes ignored p line (p.step ignored line) := by
  rw [h.eq]
  exact h

/-- **Every line is taken in one of these ways.** -/
theorem takes_step (ignored : String → Bool) (p : Progress) (line : List Char) :
    Takes ignored p line (p.step ignored line) := by
  by_cases hfile : fileMark <+: line
  · obtain ⟨text, rfl⟩ := hfile
    exact Takes.step (.file text)
  cases hs : p.skipping with
  | true => exact Takes.step (.passed hfile hs)
  | false =>
    by_cases hhunk : hunkMark <+: line
    · obtain ⟨text, rfl⟩ := hhunk
      match hstart : hunkStart? (hunkMark ++ text) with
      | .error e => exact Takes.step (.refused hs hstart)
      | .ok none => exact Takes.step (.closed hs hstart)
      | .ok (some n) => exact Takes.step (.opened hs hstart)
    · by_cases hadd : ['+'] <+: line ∧ p.inHunk = true ∧ p.current?.isSome
      · obtain ⟨⟨text, rfl⟩, hin, hcur⟩ := hadd
        obtain ⟨path, hpath⟩ := Option.isSome_iff_exists.1 hcur
        have nofile : ¬ "++ ".toList <+: text := fun h => hfile <| by
          rw [show fileMark = '+' :: "++ ".toList by decide]
          exact List.cons_prefix_cons.2 ⟨rfl, h⟩
        exact Takes.step (.added nofile hs hin hpath)
      · have outside : ['+'] <+: line → p.inHunk = false ∨ p.current? = none := by
          intro hplus
          cases hin : p.inHunk with
          | false => exact .inl rfl
          | true => exact .inr (Option.not_isSome_iff_eq_none.1 fun hcur => hadd ⟨hplus, hin, hcur⟩)
        exact Takes.step (.plain hfile hhunk hs outside)

theorem eq_of_map_add {path : String} {text : List Char} {f : Progress → Progress}
    (h : (p.add path text).map f = .ok q) : ∃ lines, p.files.find? path = some lines ∧ 1 ≤ p.line ∧
      q =
        f { p with files := p.files.put path (lines ++ [⟨path, p.line, String.ofList text⟩]) } := by
  cases hadd : p.add path text with
  | error e => rw [hadd] at h; cases h
  | ok b =>
    rw [hadd] at h
    cases h
    obtain ⟨lines, found, pos, rfl⟩ := eq_of_add hadd
    exact ⟨lines, found, pos, rfl⟩

/-! ### Coherent readings -/

/-- What holds before every line: a file that is open and not ignored is one of the files, and the
lines of a hunk have positive numbers. -/
structure Coherent (ignored : String → Bool) (p : Progress) : Prop where
  file : ∀ path, p.current? = some path → p.skipping = false →
    path ≠ "" ∧ path ∈ p.files.keys ∧ ignored path = false
  hunk : p.inHunk = true → 1 ≤ p.line ∧ p.skipping = false

theorem coherent_start (ignored : String → Bool) : Coherent ignored {} where
  file := by rintro path ⟨⟩
  hunk := by rintro ⟨⟩

theorem ne_of_headerPath? {text : List Char} {path : String} (h : headerPath? text = some path) :
    path ≠ "" := by
  unfold headerPath? at h
  dsimp only at h
  split at h
  · cases h
  · split at h
    · cases h
    · next hne =>
      cases h
      rw [List.isEmpty_iff] at hne
      exact fun he => hne (by simpa using congrArg String.toList he)

theorem coherent_openFile (ignored : String → Bool) (p : Progress) (text : List Char) :
    (p.openFile ignored text).Coherent ignored := by
  refine ⟨?_, fun h => by rw [inHunk_openFile] at h; cases h⟩
  unfold Progress.openFile
  cases hpath : headerPath? text with
  | none => rintro path ⟨⟩
  | some path =>
    dsimp only
    split
    · rintro _ - ⟨⟩
    · next kept =>
      rintro _ ⟨⟩ -
      refine ⟨ne_of_headerPath? hpath, ?_, by simpa using kept⟩
      rw [← Keyed.find?_isSome_iff, Keyed.find?_put_self]
      rfl

theorem Coherent.count (h : p.Coherent ignored) (line : List Char) :
    (p.count line).Coherent ignored := by
  cases ha : isAbsent line with
  | true => rwa [count_of_absent ha]
  | false =>
    rw [count_of_present ha]
    exact ⟨h.file, fun hin => ⟨Nat.le_add_left 1 p.line, (h.hunk hin).2⟩⟩

/-- An added line of a coherent reading is recorded. -/
theorem Coherent.add (h : p.Coherent ignored) {path : String} (hcur : p.current? = some path)
    (hin : p.inHunk = true) (text : List Char) :
    ∃ lines, p.files.find? path = some lines ∧ p.add path text =
      .ok { p with files := p.files.put path (lines ++ [⟨path, p.line, String.ofList text⟩]) } := by
  obtain ⟨hline, hs⟩ := h.hunk hin
  obtain ⟨hne, hmem, -⟩ := h.file path hcur hs
  obtain ⟨lines, hlines⟩ := Option.isSome_iff_exists.1 (Keyed.find?_isSome_iff.2 hmem)
  refine ⟨lines, hlines, ?_⟩
  unfold Progress.add
  rw [hlines]
  simp only [AddedLine.make_ok hline hne]

/-- **A coherent reading stays coherent**, or it fails at a hunk header whose start is not
converted. -/
theorem Coherent.step (h : p.Coherent ignored) (line : List Char) :
    (∃ q, p.step ignored line = .ok q ∧ q.Coherent ignored) ∨
      ∃ e, p.skipping = false ∧ hunkMark <+: line ∧ hunkStart? line = .error e ∧
        p.step ignored line = .error (.number e) := by
  have taken := takes_step ignored p line
  generalize p.step ignored line = r at taken
  cases taken with
  | file text => exact .inl ⟨_, rfl, coherent_openFile ignored p text⟩
  | passed nofile skips => exact .inl ⟨p, rfl, h⟩
  | refused active start => exact .inr ⟨_, active, List.prefix_append _ _, start, rfl⟩
  | closed active start => exact .inl ⟨_, rfl, h.file, by rintro ⟨⟩⟩
  | opened active start => exact .inl ⟨_, rfl, h.file, fun _ => ⟨pos_of_hunkStart? start, active⟩⟩
  | @added text path nofile active hin current =>
    obtain ⟨lines, -, hadd⟩ := h.add current hin text
    rw [hadd]
    refine .inl ⟨_, rfl, fun other hother hs => ?_, fun _ => ⟨Nat.le_add_left 1 p.line, active⟩⟩
    obtain ⟨hne, hmem, hkept⟩ := h.file other hother hs
    refine ⟨hne, ?_, hkept⟩
    rw [Keyed.keys_put]
    split
    · exact hmem
    · exact List.mem_append_left _ hmem
  | plain nofile nohunk active outside => exact .inl ⟨_, rfl, h.count line⟩

theorem Coherent.of_step (h : p.Coherent ignored) {line : List Char}
    (hstep : p.step ignored line = .ok q) : q.Coherent ignored := by
  obtain ⟨b, hb, hcoherent⟩ | ⟨e, -, -, -, he⟩ := h.step line
  · rwa [Except.ok.inj (hstep.symm.trans hb)]
  · rw [hstep] at he
    cases he

/-- **A run over lines comes to its end or stops at a hunk header whose start is not converted.** -/
theorem Coherent.run (h : p.Coherent ignored) (lines : List (List Char)) :
    (∃ q, Reads ignored p lines q ∧ q.Coherent ignored) ∨
      ∃ before line after q e, lines = before ++ line :: after ∧ Reads ignored p before q ∧
        q.skipping = false ∧ hunkMark <+: line ∧ hunkStart? line = .error e ∧
        lines.foldlM (Progress.step ignored) p = .error (.number e) := by
  -- The first header that is refused ends the run, whatever comes after it.
  induction lines generalizing p with
  | nil => exact .inl ⟨p, Reads.nil p, h⟩
  | cons line lines ih =>
    obtain ⟨b, hstep, hb⟩ | ⟨e, hs, hmark, hstart, hstep⟩ := h.step line
    · obtain ⟨q, reads, hq⟩ | ⟨before, last, after, q, e, rfl, reads, hs, hmark, hstart, hrun⟩ :=
        ih hb
      · exact .inl ⟨q, Reads.cons hstep reads, hq⟩
      · refine .inr ⟨line :: before, last, after, q, e, rfl, Reads.cons hstep reads, hs, hmark,
          hstart, ?_⟩
        rw [List.foldlM_cons, hstep]
        exact hrun
    · refine .inr ⟨[], line, lines, p, e, rfl, Reads.nil p, hs, hmark, hstart, ?_⟩
      rw [List.foldlM_cons, hstep]
      rfl

theorem not_reads_of_error {before after : List (List Char)} {line : List Char} {e : IntegerError}
    {r : Progress} (hq : Reads ignored p before q) (hs : q.skipping = false)
    (hmark : hunkMark <+: line) (hstart : hunkStart? line = .error e) :
    ¬ Reads ignored p (before ++ line :: after) r := by
  intro reads
  obtain ⟨b, hb, hrest⟩ := reads.of_append
  obtain rfl := hq.unique hb
  obtain ⟨c, hstep, -⟩ := hrest.of_cons
  obtain ⟨text, rfl⟩ := hmark
  have refused : Takes ignored q _ _ := .refused hs hstart
  rw [refused.eq] at hstep
  cases hstep

theorem skipping_of_reads {lines : List (List Char)} (h : Reads (fun _ => false) p lines q)
    (hs : p.skipping = false) : q.skipping = false := by
  refine h.invariant (I := fun _ p => p.skipping = false) ?_ hs
  intro line rest a b ha hstep
  have taken := takes_step (fun _ => false) a line
  rw [hstep] at taken
  generalize hr : Except.ok b = r at taken
  cases taken with
  | file text =>
    cases hr
    unfold Progress.openFile
    cases headerPath? text with
    | none => rfl
    | some path => rfl
  | passed nofile skips => rw [ha] at skips; cases skips
  | refused active start => cases hr
  | closed active start => cases hr; exact active
  | opened active start => cases hr; exact active
  | added nofile active hin current =>
    obtain ⟨lines, -, -, rfl⟩ := eq_of_map_add hr.symm
    exact active
  | plain nofile nohunk active outside =>
    cases hr
    unfold Progress.count
    split <;> exact active

end Progress

/-! ### Diffs -/

/-- The lines of a diff as they are read. -/
def linesOf (diff : String) : List (List Char) := (splitLines diff.toList).map dropReturns

theorem addedLines_eq_map (ignored : String → Bool) (diff : String) : addedLines ignored diff =
    ((linesOf diff).foldlM (Progress.step ignored) {}).map Progress.files := by
  unfold addedLines
  show (linesOf diff).foldlM (Progress.step ignored) {} >>= _ = _
  cases (linesOf diff).foldlM (Progress.step ignored) {} <;> rfl

/-- A hunk header whose start has more digits than are converted. -/
def IsOverlong (line start : List Char) : Prop :=
  hunkMark <+: line ∧ IsHunkHeader line start ∧ digitLimit < start.length

/-- **A diff is read if and only if none of its hunk headers has a start of too many digits**, and
if it is not, one of them is the reason. -/
theorem addedLines_ok_iff (diff : String) :
    ((∃ files, addedLines (fun _ => false) diff = .ok files) ↔
      ∀ line ∈ linesOf diff, ∀ start, ¬ IsOverlong line start) ∧
    ∀ e, addedLines (fun _ => false) diff = .error e →
      ∃ line ∈ linesOf diff, ∃ start, IsOverlong line start ∧
        e = .number (.tooLong start.length) := by
  have run := (Progress.coherent_start fun _ => false).run (linesOf diff)
  constructor
  · constructor
    · rintro ⟨files, h⟩ line hline start ⟨hmark, header, hlong⟩
      obtain ⟨q, reads, -⟩ := Progress.reads_of_addedLines h
      obtain ⟨before, after, hlines⟩ := List.append_of_mem hline
      rw [← linesOf, hlines] at reads
      obtain ⟨b, hb, -⟩ := reads.of_append
      have hs : b.skipping = false := Progress.skipping_of_reads hb rfl
      exact Progress.not_reads_of_error hb hs hmark
        (hunkStart?_eq_error_iff.2 ⟨start, header, hlong, rfl⟩) reads
    · intro short
      obtain ⟨q, reads, -⟩ | ⟨before, line, after, q, e, hlines, -, -, hmark, hstart, -⟩ := run
      · exact ⟨q.files, addedLines_of_reads rfl reads⟩
      · obtain ⟨start, header, hlong, -⟩ := hunkStart?_eq_error_iff.1 hstart
        have hline : line ∈ linesOf diff := by rw [hlines]; simp
        exact absurd ⟨hmark, header, hlong⟩ (short line hline start)
  · intro e h
    obtain ⟨q, reads, -⟩ | ⟨before, line, after, q, e', hlines, -, -, hmark, hstart, hrun⟩ := run
    · rw [addedLines_of_reads rfl reads] at h
      cases h
    · obtain ⟨start, header, hlong, rfl⟩ := hunkStart?_eq_error_iff.1 hstart
      refine ⟨line, by rw [hlines]; simp, start, ⟨hmark, header, hlong⟩, ?_⟩
      rw [addedLines_eq_map, hrun] at h
      cases h
      rfl

end ActionItems.Diff
