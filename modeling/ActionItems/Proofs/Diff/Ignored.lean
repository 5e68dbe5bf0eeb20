import ActionItems.Proofs.Diff.Coherence
import ActionItems.Proofs.Glob

/-!
# Files that are ignored

To ignore files while a diff is read is to leave them out of what is read without ignoring any
(`addedLines_filter`). The two readings are compared line by line. They part at the header of an
ignored file, where one of them passes over lines that the other one counts and reads as headers of
hunks. `Sifts` says what they still have in common there: the open file is ignored, so whatever is
found in it is left out. At the next file header both close their hunk, and nothing depends any more
on the number of the line.
-/

namespace ActionItems.Diff

namespace Progress

variable {ignored : String → Bool} {p p' q : Progress}

/-- The reading `q` ignores files that `p` reads. It is at the same place, or it passes over an
ignored file. -/
structure Sifts (ignored : String → Bool) (p q : Progress) : Prop where
  whole : p.Coherent fun _ => false
  coherent : q.Coherent ignored
  active : p.skipping = false
  files : q.files = p.files.filter (!ignored ·.1)
  passing : q.skipping = true → ∃ path, p.current? = some path ∧ ignored path = true
  /-- Outside of hunks the numbers of the next line may differ. -/
  along : q.skipping = false →
    q.current? = p.current? ∧ q.inHunk = p.inHunk ∧ (p.inHunk = true → q.line = p.line)

theorem sifts_start (ignored : String → Bool) : Sifts ignored {} {} where
  whole := coherent_start _
  coherent := coherent_start _
  active := rfl
  files := rfl
  passing := by rintro ⟨⟩
  along _ := ⟨rfl, rfl, fun _ => rfl⟩

/-- A file header brings the readings together, or has an ignored file passed over. -/
theorem sifts_openFile (files : q.files = p.files.filter (!ignored ·.1)) (text : List Char) :
    Sifts ignored (p.openFile (fun _ => false) text) (q.openFile ignored text) := by
  have whole := coherent_openFile (fun _ => false) p text
  have coherent := coherent_openFile ignored q text
  unfold Progress.openFile at whole coherent ⊢
  cases hpath : headerPath? text with
  | none =>
    rw [hpath] at whole coherent
    exact ⟨whole, coherent, rfl, files, by rintro ⟨⟩, fun _ => ⟨rfl, rfl, by rintro ⟨⟩⟩⟩
  | some path =>
    rw [hpath] at whole coherent
    dsimp only at whole coherent ⊢
    rw [if_neg Bool.false_ne_true] at whole ⊢
    cases hkeep : ignored path with
    | true =>
      rw [hkeep, if_pos rfl] at coherent
      rw [if_pos rfl]
      refine ⟨whole, coherent, rfl, ?_, fun _ => ⟨path, rfl, hkeep⟩, by rintro ⟨⟩⟩
      rw [Keyed.filter_put (!ignored ·) (by rw [hkeep]; rfl)]
      exact files
    | false =>
      rw [hkeep, if_neg Bool.false_ne_true] at coherent
      rw [if_neg Bool.false_ne_true]
      refine ⟨whole, coherent, rfl, ?_, by rintro ⟨⟩, fun _ => ⟨rfl, rfl, by rintro ⟨⟩⟩⟩
      rw [← Keyed.put_filter (!ignored ·) (by rw [hkeep]; rfl), ← files]

/-- What is read of an ignored file is left out. -/
theorem Sifts.step_passing (h : Sifts ignored p q) (passing : q.skipping = true) {line : List Char}
    (nofile : ¬ fileMark <+: line) (hstep : p.step (fun _ => false) line = .ok p') :
    Sifts ignored p' q := by
  obtain ⟨path, current, dropped⟩ := h.passing passing
  have still : q.skipping = false → q.current? = p'.current? ∧ q.inHunk = p'.inHunk ∧
      (p'.inHunk = true → q.line = p'.line) := by
    rw [passing]
    rintro ⟨⟩
  have whole := h.whole.of_step hstep
  have taken := takes_step (fun _ => false) p line
  rw [hstep] at taken
  generalize hr : Except.ok p' = r at taken
  cases taken with
  | file text => exact absurd (List.prefix_append _ _) nofile
  | passed _ skips => exact Bool.noConfusion (h.active.symm.trans skips)
  | refused => cases hr
  | closed => cases hr; exact ⟨whole, h.coherent, h.active, h.files, h.passing, still⟩
  | opened => cases hr; exact ⟨whole, h.coherent, h.active, h.files, h.passing, still⟩
  | @added text other _ _ hin hother =>
    obtain ⟨lines, -, hadd⟩ := h.whole.add hother hin text
    rw [hadd] at hr
    cases hr
    obtain rfl : path = other := Option.some.inj (current.symm.trans hother)
    refine ⟨whole, h.coherent, h.active, ?_, h.passing, still⟩
    rw [Keyed.filter_put (!ignored ·) (by rw [dropped]; rfl)]
    exact h.files
  | plain =>
    cases hr
    cases ha : isAbsent line with
    | true => rwa [count_of_absent ha]
    | false =>
      rw [count_of_present ha] at whole still ⊢
      exact ⟨whole, h.coherent, h.active, h.files, h.passing, still⟩

/-- Where nothing is passed over, both readings take a line alike. -/
theorem Sifts.step_along (h : Sifts ignored p q) (along : q.skipping = false) {line : List Char}
    (nofile : ¬ fileMark <+: line) (hstep : p.step (fun _ => false) line = .ok p') :
    ∃ q', q.step ignored line = .ok q' ∧ Sifts ignored p' q' := by
  obtain ⟨hcurrent, hinHunk, hline⟩ := h.along along
  have whole := h.whole.of_step hstep
  have taken := takes_step (fun _ => false) p line
  rw [hstep] at taken
  generalize hr : Except.ok p' = r at taken
  cases taken with
  | file text => exact absurd (List.prefix_append _ _) nofile
  | passed _ skips => exact Bool.noConfusion (h.active.symm.trans skips)
  | refused => cases hr
  | closed active start =>
    cases hr
    have other : Takes ignored q _ _ := .closed along start
    exact ⟨_, other.eq, whole, h.coherent.of_step other.eq, active, h.files, h.passing, fun _ =>
      ⟨hcurrent, rfl, by rintro ⟨⟩⟩⟩
  | opened active start =>
    cases hr
    have other : Takes ignored q _ _ := .opened along start
    exact ⟨_, other.eq, whole, h.coherent.of_step other.eq, active, h.files, h.passing, fun _ =>
      ⟨hcurrent, rfl, fun _ => rfl⟩⟩
  | @added text path noplus active hin current =>
    have hqin : q.inHunk = true := hinHunk.trans hin
    have hqcurrent : q.current? = some path := hcurrent.trans current
    obtain ⟨-, -, kept⟩ := h.coherent.file path hqcurrent along
    have other : Takes ignored q _ _ := .added noplus along hqin hqcurrent
    obtain ⟨lines, hfind, hadd⟩ := h.whole.add current hin text
    obtain ⟨lines', hfind', hadd'⟩ := h.coherent.add hqcurrent hqin text
    rw [hadd] at hr
    rw [hadd'] at other
    cases hr
    -- The path is kept, so both have found the same lines under it.
    have keep : (!ignored path) = true := by rw [kept]; rfl
    obtain rfl : lines = lines' := by
      rw [h.files, Keyed.find?_filter (!ignored ·) keep, hfind] at hfind'
      exact Option.some.inj hfind'
    refine ⟨_, other.eq, whole, h.coherent.of_step other.eq, active, ?_, h.passing, fun _ =>
      ⟨hcurrent, hinHunk, fun _ => congrArg (· + 1) (hline hin)⟩⟩
    show q.files.put path _ = (p.files.put path _).filter _
    rw [← Keyed.put_filter (!ignored ·) keep, ← h.files, hline hin]
  | plain _ nohunk active outside =>
    cases hr
    have other : Takes ignored q line _ := .plain nofile nohunk along fun hplus =>
      (outside hplus).imp (fun hin => hinHunk.trans hin) (fun hcur => hcurrent.trans hcur)
    have coherent := h.coherent.of_step other.eq
    refine ⟨_, other.eq, ?_⟩
    cases ha : isAbsent line with
    | true => rwa [count_of_absent ha, count_of_absent ha]
    | false =>
      rw [count_of_present ha] at whole coherent ⊢
      rw [count_of_present ha]
      exact ⟨whole, coherent, active, h.files, h.passing, fun _ =>
        ⟨hcurrent, hinHunk, fun hin => congrArg (· + 1) (hline hin)⟩⟩

/-- **What the reading of all files takes, the other one takes too.** -/
theorem Sifts.step (h : Sifts ignored p q) {line : List Char}
    (hstep : p.step (fun _ => false) line = .ok p') :
    ∃ q', q.step ignored line = .ok q' ∧ Sifts ignored p' q' := by
  by_cases hfile : fileMark <+: line
  · obtain ⟨text, rfl⟩ := hfile
    rw [step_fileMark] at hstep
    cases hstep
    exact ⟨_, step_fileMark q text, sifts_openFile h.files text⟩
  · cases hs : q.skipping with
    | true =>
      exact ⟨q, step_of_skipping (dropStart?_eq_none hfile) hs, h.step_passing hs hfile hstep⟩
    | false => exact h.step_along hs hfile hstep

theorem Sifts.run {lines : List (List Char)} (h : Sifts ignored p q)
    (reads : Reads (fun _ => false) p lines p') :
    ∃ q', Reads ignored q lines q' ∧ Sifts ignored p' q' := by
  induction lines generalizing p q with
  | nil =>
    obtain rfl := (Reads.nil p).unique reads
    exact ⟨q, Reads.nil q, h⟩
  | cons line lines ih =>
    obtain ⟨b, hstep, hrest⟩ := reads.of_cons
    obtain ⟨c, hc, hbc⟩ := h.step hstep
    obtain ⟨q', hq', hr⟩ := ih hbc hrest
    exact ⟨q', Reads.cons hc hq', hr⟩

end Progress

/-- **To ignore files while a diff is read is to leave them out afterwards.** -/
theorem addedLines_filter {diff : String} {files : Keyed (List AddedLine)} (ignored : String → Bool)
    (h : addedLines (fun _ => false) diff = .ok files) :
    addedLines ignored diff = .ok (files.filter (!ignored ·.1)) := by
  obtain ⟨p, reads, rfl⟩ := Progress.reads_of_addedLines h
  obtain ⟨q, hq, sifts⟩ := (Progress.sifts_start ignored).run reads
  have run : (linesOf diff).foldlM (Progress.step ignored) {} = .ok q := hq
  rw [addedLines_eq_map, run, ← sifts.files]
  rfl

/-- **Globs leave out of a diff that is read the files that they match**, and nothing else changes:
the other files keep their order, their lines and the numbers of these. A path is matched by the
globs that give a pattern, and those that give none leave every file in. -/
theorem addedLines_globs [CharNames] {globs : List String} {patterns : List Pattern.Node}
    {diff : String} {files : Keyed (List AddedLine)} (hglobs : Glob.compileAll globs = .ok patterns)
    (h : addedLines (Glob.anyMatch []) diff = .ok files) :
    addedLines (Glob.anyMatch patterns) diff =
      .ok (files.filter fun e => !Glob.anyMatch patterns e.1) ∧
      ∀ path, Glob.anyMatch patterns path = true ↔
        ∃ glob ∈ globs, ∃ node, Glob.compile? glob = .ok (some node) ∧
          Pattern.search node path.toList = true :=
  ⟨addedLines_filter _ h, Glob.anyMatch_iff hglobs⟩

attribute [local instance] CharNames.ascii

/-- An ignored file, a removed one and one that follows them. The other glob is malformed. -/
theorem addedLines_globs_removed :
    let globs := ["*.lock", "[a"]
    let diff := "+++ b/a.py\n@@ -0,0 +3 @@\n+# todo\n+++ b/b.lock\n@@ -1 +9 @@\n+x\n" ++
      "+++ /dev/null\n+y\n+++ c.py\n@@ -4 +7 @@\n+z"
    let files : Keyed (List AddedLine) :=
      [("a.py", [⟨"a.py", 3, "# todo"⟩]), ("b.lock", [⟨"b.lock", 9, "x"⟩]),
        ("c.py", [⟨"c.py", 7, "z"⟩])]
    addedLines (Glob.anyMatch []) diff = .ok files ∧
      ∃ patterns, Glob.compileAll globs = .ok patterns ∧ addedLines (Glob.anyMatch patterns) diff =
        .ok [("a.py", [⟨"a.py", 3, "# todo"⟩]), ("c.py", [⟨"c.py", 7, "z"⟩])] := by
  intro globs diff files
  have all : addedLines (Glob.anyMatch []) diff = .ok files := by decide +kernel
  have compiled : ∃ patterns, Glob.compileAll globs = .ok patterns ∧
      (files.filter fun e => !Glob.anyMatch patterns e.1) =
        [("a.py", [⟨"a.py", 3, "# todo"⟩]), ("c.py", [⟨"c.py", 7, "z"⟩])] := by
    refine ⟨_, rfl, ?_⟩
    decide +kernel
  obtain ⟨patterns, hglobs, kept⟩ := compiled
  have rest := (addedLines_globs hglobs all).1
  rw [kept] at rest
  exact ⟨all, patterns, hglobs, rest⟩

end ActionItems.Diff
