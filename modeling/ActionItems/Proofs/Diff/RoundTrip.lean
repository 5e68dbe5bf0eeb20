import ActionItems.Proofs.Diff.Reading

/-!
# Reading written diffs

A written diff of well-formed sections is read back: `addedLines` yields the paths of the sections
in order, each with its added lines (`addedLines_write`). No added text may read as a file header,
as its line would be taken for one.

The reading is followed section by section. `AtFile` says that a file is open and which lines were
found in it; the lines of a hunk (`reads_body`), the hunks (`reads_hunks`) and the sections
(`reads_sections`) each take it one step further.
-/

namespace ActionItems.Diff

open ActionItems.Number ActionItems.Text

/-! ### Numbers of added lines -/

theorem numbered_cons (path : String) (start : Nat) (line : BodyLine) (rest : List BodyLine) :
    numbered path start (line :: rest) =
      (line.added?.map fun text => AddedLine.mk path start text).toList ++
        numbered path (if line.isNew then start + 1 else start) rest := by
  have shift : ∀ i, start + ((line :: rest).take (i + 1)).countP BodyLine.isNew =
      (if line.isNew then start + 1 else start) + (rest.take i).countP BodyLine.isNew := by
    intro i
    rw [List.take_succ_cons, List.countP_cons]
    split <;> omega
  have tail : (rest.zipIdx.map (Prod.map id (· + 1))).filterMap (fun e =>
        e.1.added?.map fun text =>
          AddedLine.mk path (start + ((line :: rest).take e.2).countP BodyLine.isNew) text) =
      numbered path (if line.isNew then start + 1 else start) rest := by
    rw [List.filterMap_map]
    refine congrArg (fun f => rest.zipIdx.filterMap f) (funext fun e => ?_)
    simp only [Function.comp_apply, Prod.map_fst, Prod.map_snd, id_eq, shift]
  unfold numbered at tail ⊢
  rw [List.zipIdx_cons', List.filterMap_cons, tail]
  cases line.added? <;> rfl

theorem added_mem_of_mem_numbered {path : String} {start : Nat} {body : List BodyLine}
    {l : AddedLine} (h : l ∈ numbered path start body) : BodyLine.added l.text ∈ body := by
  obtain ⟨e, he, hl⟩ := List.mem_filterMap.1 h
  obtain ⟨text, ht, rfl⟩ := Option.map_eq_some_iff.1 hl
  rw [BodyLine.added?_eq_some_iff] at ht
  show BodyLine.added text ∈ body
  rw [← ht]
  exact List.fst_mem_of_mem_zipIdx he

/-! ### Reading several lines -/

/-- An added line as it is read: without the carriage returns at its end. -/
def trimReturns (l : AddedLine) : AddedLine :=
  { l with text := String.ofList (dropReturns l.text.toList) }

namespace Progress

variable {ignored : String → Bool} {p q r : Progress} {path : String}
  {table : Keyed (List AddedLine)} {found : List AddedLine}

/-- The lines take the reading from `p` to `q`. -/
def Reads (ignored : String → Bool) (p : Progress) (lines : List (List Char))
    (q : Progress) : Prop :=
  lines.foldlM (Progress.step ignored) p = .ok q

theorem Reads.nil (p : Progress) : Reads ignored p [] p := rfl

theorem Reads.cons {line : List Char} {rest : List (List Char)}
    (h : p.step ignored line = .ok q) (hr : Reads ignored q rest r) :
    Reads ignored p (line :: rest) r := by
  unfold Reads at hr ⊢
  rw [List.foldlM_cons, h]
  exact hr

theorem Reads.append {lines rest : List (List Char)} (h : Reads ignored p lines q)
    (hr : Reads ignored q rest r) : Reads ignored p (lines ++ rest) r := by
  unfold Reads at h hr ⊢
  rw [List.foldlM_append, h]
  exact hr

/-- The file at `path` is open: it is not ignored, its lines so far are `found`, and the other files
are those of `table`. -/
structure AtFile (p : Progress) (table : Keyed (List AddedLine)) (path : String)
    (found : List AddedLine) : Prop where
  files : p.files = table.put path found
  current : p.current? = some path
  active : p.skipping = false

theorem AtFile.find? (h : p.AtFile table path found) : p.files.find? path = some found := by
  rw [h.files]
  exact Keyed.find?_put_self path found table

theorem AtFile.withLine (h : p.AtFile table path found) (n : Nat) :
    ({ p with line := n } : Progress).AtFile table path found :=
  ⟨h.files, h.current, h.active⟩

/-! ### Reading a hunk -/

variable (ignored)

theorem step_bodyLine (hp : p.AtFile table path found) (hin : p.inHunk = true) (hpath : path ≠ "")
    (hn : 1 ≤ p.line) {line : BodyLine} (hline : line.NoHeader) :
    ∃ q, p.step ignored (dropReturns line.chars) = .ok q ∧
      q.AtFile table path (found ++
        (line.added?.map fun text => trimReturns ⟨path, p.line, text⟩).toList) ∧
      q.inHunk = true ∧ q.line = if line.isNew then p.line + 1 else p.line := by
  cases ha : line.added? with
  | some text =>
    obtain rfl := BodyLine.added?_eq_some_iff.1 ha
    have plain : ¬ "++ ".toList <+: dropReturns text.toList := fun h =>
      hline text rfl (h.trans (dropReturns_prefix_self _))
    rw [BodyLine.chars, dropReturns_cons (by decide)]
    refine ⟨_, step_plus plain hp.active hin hp.current hp.find? hpath hn, ?_, hin, rfl⟩
    refine ⟨?_, hp.current, hp.active⟩
    show Keyed.put _ _ p.files = _
    rw [hp.files, Keyed.put_put]
    rfl
  | none =>
    obtain ⟨hadd, hhunk, habsent⟩ := plain_of_added? ha
    have step := step_of_plain ignored hadd hhunk p
    rw [hp.active, if_neg Bool.false_ne_true] at step
    have same :
        found ++ (Option.map (fun text => trimReturns ⟨path, p.line, text⟩) none).toList = found :=
      List.append_nil found
    rw [same]
    cases hnew : line.isNew with
    | true =>
      rw [count_of_present (by rw [habsent, hnew]; rfl)] at step
      exact ⟨_, step, hp.withLine _, hin, rfl⟩
    | false =>
      rw [count_of_absent (by rw [habsent, hnew]; rfl)] at step
      exact ⟨_, step, hp, hin, rfl⟩

/-- **The lines of a hunk** add their texts to the file, numbered from where the reading stands. -/
theorem reads_body {body : List BodyLine} (hp : p.AtFile table path found) (hin : p.inHunk = true)
    (hpath : path ≠ "") (hn : 1 ≤ p.line)
    (hbody : ∀ line ∈ body, line.NoHeader) :
    ∃ q, Reads ignored p (body.map fun line => dropReturns line.chars) q ∧
      q.AtFile table path (found ++ (numbered path p.line body).map trimReturns) ∧
      q.inHunk = true ∧ 1 ≤ q.line := by
  induction body generalizing p found with
  | nil => exact ⟨p, .nil p, by simpa [numbered] using hp, hin, hn⟩
  | cons line body ih =>
    obtain ⟨q, hstep, hq, hqin, hqline⟩ :=
      step_bodyLine ignored hp hin hpath hn (hbody line (by simp))
    have hqn : 1 ≤ q.line := by rw [hqline]; split <;> omega
    obtain ⟨r, hr, hat, hrin, hrn⟩ := ih hq hqin hqn (fun l hl => hbody l (by simp [hl]))
    refine ⟨r, .cons hstep hr, ?_, hrin, hrn⟩
    rw [numbered_cons, List.map_append, ← List.append_assoc, ← hqline]
    convert hat using 3
    cases line.added? <;> rfl

theorem step_hunkHeader {h : Hunk} (hw : h.WellFormed) (hp : p.AtFile table path found) :
    ∃ q, p.step ignored (dropReturns h.header) = .ok q ∧ q.AtFile table path found ∧
      q.inHunk = true ∧ q.line = h.start := by
  have header : dropReturns h.header = h.mark ++ dropReturns h.heading.toList :=
    dropReturns_append (not_mem_mark (by decide) (by decide) h) _
  have start := hunkStart?_mark hw (dropReturns h.heading.toList)
  rw [header]
  rw [mark_append] at start ⊢
  exact ⟨_, step_hunkMark hp.active start hw.start_pos, ⟨hp.files, hp.current, hp.active⟩, rfl, rfl⟩

/-- A hunk adds its lines to the file. -/
theorem reads_hunk {h : Hunk} (hw : h.WellFormed) (hp : p.AtFile table path found)
    (hpath : path ≠ "") (hbody : ∀ line ∈ h.body, line.NoHeader) :
    ∃ q, Reads ignored p (h.lines.map dropReturns) q ∧
      q.AtFile table path (found ++ (h.addedLines path).map trimReturns) := by
  obtain ⟨q, hstep, hq, hin, hline⟩ := step_hunkHeader ignored hw hp
  obtain ⟨r, hr, hat, -, -⟩ := reads_body ignored hq hin hpath
    (by rw [hline]; exact hw.start_pos) hbody
  rw [hline] at hat
  refine ⟨r, ?_, hat⟩
  unfold Hunk.lines
  rw [List.map_cons, List.map_map]
  exact .cons hstep hr

theorem reads_hunks {hunks : List Hunk} (hw : ∀ h ∈ hunks, h.WellFormed)
    (hp : p.AtFile table path found) (hpath : path ≠ "")
    (hbody : ∀ line ∈ hunks.flatMap Hunk.body, line.NoHeader) :
    ∃ q, Reads ignored p ((hunks.flatMap Hunk.lines).map dropReturns) q ∧
      q.AtFile table path (found ++ (hunks.flatMap (Hunk.addedLines path)).map trimReturns) := by
  induction hunks generalizing p found with
  | nil => exact ⟨p, .nil p, by simpa using hp⟩
  | cons h hunks ih =>
    obtain ⟨q, hr, hq⟩ := reads_hunk ignored (hw h (by simp)) hp hpath
      (fun l hl => hbody l (by simp [hl]))
    obtain ⟨r, hr', hat⟩ := ih (fun k hk => hw k (by simp [hk])) hq
      (fun l hl => hbody l (by rw [List.flatMap_cons]; exact List.mem_append_right _ hl))
    refine ⟨r, ?_, ?_⟩
    · rw [List.flatMap_cons, List.map_append]
      exact hr.append hr'
    · rw [List.flatMap_cons, List.map_append, ← List.append_assoc]
      exact hat

/-! ### Reading a section -/

/-- Lines before a file header change nothing but the number of the next line. -/
theorem reads_preamble {texts : List String} (h : ∀ text ∈ texts, IsPreamble text) (p : Progress) :
    ∃ n, Reads ignored p (texts.map fun text => dropReturns text.toList) { p with line := n } := by
  induction texts generalizing p with
  | nil => exact ⟨p.line, .nil p⟩
  | cons text texts ih =>
    have first := h text (by simp)
    obtain ⟨n, hn⟩ := exists_step_of_plain ignored
      (fun hp => first.not_added (hp.trans (dropReturns_prefix_self _)))
      (fun hp => first.not_hunk (hp.trans (dropReturns_prefix_self _))) p
    obtain ⟨m, hm⟩ := ih (fun t ht => h t (by simp [ht])) { p with line := n }
    exact ⟨m, .cons hn hm⟩

variable {ignored}

theorem step_sectionHeader {s : Section} (hw : s.WellFormed) (hkept : ignored s.path = false)
    (p : Progress) :
    ∃ q, p.step ignored (dropReturns s.header) = .ok q ∧ q.AtFile p.files s.path [] := by
  have header : dropReturns s.header = fileMark ++ ("b/".toList ++ s.path.toList) := by
    unfold Section.header
    rw [dropReturns_append (by decide), dropReturns_of_stripEnd hw.path_end, List.append_assoc]
  rw [header, step_fileMark]
  refine ⟨_, rfl, ?_⟩
  unfold Progress.openFile
  rw [headerPath?_of hw.path_ne hw.path_end]
  simp only [hkept, Bool.false_eq_true, if_false]
  exact ⟨rfl, rfl, rfl⟩

/-- **A section** puts its added lines under its path, wherever the reading stands. -/
theorem reads_section {s : Section} (hw : s.WellFormed) (hkept : ignored s.path = false)
    (hbody : ∀ line ∈ s.hunks.flatMap Hunk.body, line.NoHeader) (p : Progress) :
    ∃ q, Reads ignored p (s.lines.map dropReturns) q ∧
      q.AtFile p.files s.path (s.addedLines.map trimReturns) := by
  obtain ⟨n, hn⟩ := reads_preamble ignored hw.preamble p
  obtain ⟨q, hq, hat⟩ := step_sectionHeader hw hkept { p with line := n }
  obtain ⟨r, hr, hat'⟩ := reads_hunks ignored hw.hunks hat hw.path_ne hbody
  refine ⟨r, ?_, hat'⟩
  unfold Section.lines
  rw [List.map_append, List.map_map, List.map_cons]
  exact hn.append (.cons hq hr)

theorem reads_sections {sections : List Section} (hw : ∀ s ∈ sections, s.WellFormed)
    (hkept : ∀ s ∈ sections, ignored s.path = false)
    (hbody : ∀ line ∈ bodyLines sections, line.NoHeader) (p : Progress) :
    ∃ q, Reads ignored p ((sections.flatMap Section.lines).map dropReturns) q ∧
      q.files = p.files.update (sections.map fun s => (s.path, s.addedLines.map trimReturns)) := by
  induction sections generalizing p with
  | nil => exact ⟨p, .nil p, rfl⟩
  | cons s sections ih =>
    obtain ⟨q, hq, hat⟩ := reads_section (hw s (by simp)) (hkept s (by simp))
      (fun l hl => hbody l
        (by unfold bodyLines; rw [List.flatMap_cons]; exact List.mem_append_left _ hl)) p
    obtain ⟨r, hr, hfiles⟩ :=
      ih (fun t ht => hw t (by simp [ht])) (fun t ht => hkept t (by simp [ht]))
      (fun l hl => hbody l
        (by unfold bodyLines; rw [List.flatMap_cons]; exact List.mem_append_right _ hl)) q
    refine ⟨r, ?_, ?_⟩
    · rw [List.flatMap_cons, List.map_append]
      exact hq.append hr
    · rw [hfiles, hat.files]
      rfl

end Progress

/-! ### Whole diffs -/

theorem Section.WellFormed.not_mem {s : Section} (hw : s.WellFormed) :
    ∀ line ∈ s.lines, '\n' ∉ line := by
  intro line hline
  unfold Section.lines at hline
  rcases List.mem_append.1 hline with hline | hline
  · obtain ⟨text, ht, rfl⟩ := List.mem_map.1 hline
    exact (hw.preamble text ht).line
  rcases List.mem_cons.1 hline with rfl | hline
  · exact List.not_mem_append (by decide) hw.path_line
  obtain ⟨h, hh, hline⟩ := List.mem_flatMap.1 hline
  rcases List.mem_cons.1 hline with rfl | hline
  · exact List.not_mem_append (not_mem_mark (by decide) (by decide) h) (hw.hunks h hh).heading
  obtain ⟨b, hb, rfl⟩ := List.mem_map.1 hline
  have plain : '\n' ∉ b.text.toList := (hw.hunks h hh).body b hb
  cases b with
  | added text => exact List.not_mem_cons_of_ne_of_not_mem (by decide) plain
  | context text => exact List.not_mem_cons_of_ne_of_not_mem (by decide) plain
  | removed text => exact List.not_mem_cons_of_ne_of_not_mem (by decide) plain
  | noNewline => exact show '\n' ∉ noNewlineMark by decide

/-- What is read of a diff is told by a run over its lines. -/
theorem addedLines_of_reads {ignored : String → Bool} {diff : String} {lines : List (List Char)}
    {q : Progress} (h : (splitLines diff.toList).map dropReturns = lines)
    (hr : Progress.Reads ignored {} lines q) : addedLines ignored diff = .ok q.files := by
  unfold Progress.Reads at hr
  unfold addedLines
  rw [h]
  show lines.foldlM _ _ >>= _ = _
  rw [hr]
  rfl

/-- **The sections of a written diff are read back**, up to carriage returns at the ends of the
texts. -/
theorem addedLines_write_trim {ignored : String → Bool} {sections : List Section}
    (hw : WellFormed ignored sections)
    (hbody : ∀ line ∈ bodyLines sections, line.NoHeader)
    (ending : Nat → Ending) :
    addedLines ignored (write ending sections) =
      .ok (sections.map fun s => (s.path, s.addedLines.map trimReturns)) := by
  have plain : ∀ line ∈ sections.flatMap Section.lines, '\n' ∉ line := by
    intro line hline
    obtain ⟨s, hs, hline⟩ := List.mem_flatMap.1 hline
    exact (hw.each s hs).not_mem line hline
  obtain ⟨q, hq, hfiles⟩ := Progress.reads_sections hw.each hw.kept hbody {}
  -- the ending of the last line leaves an empty line, which is only counted
  obtain ⟨n, hn⟩ :=
    Progress.exists_step_of_plain ignored (show ¬ ['+'] <+: [] by decide) (by decide) q
  have lines := splitLines_joinLines plain ending
  rw [addedLines_of_reads (by rw [write, String.toList_ofList, lines])
    (hq.append (.cons hn (.nil _)))]
  show Except.ok q.files = _
  rw [hfiles, show ({} : Progress).files = [] from rfl, Keyed.update_nil]
  have keys : Keyed.keys (sections.map fun s => (s.path, s.addedLines.map trimReturns)) =
      sections.map Section.path := by
    simp [Keyed.keys]
  rw [keys]
  exact hw.nodup

/-- **A written diff is read back.** Each file has exactly its added lines, in order, with the
numbers that they have in the new version and with their texts unchanged. -/
theorem addedLines_write {ignored : String → Bool} {sections : List Section}
    (hw : WellFormed ignored sections)
    (hend : ∀ line ∈ bodyLines sections, line.text.toList.getLast? ≠ some '\r')
    (hbody : ∀ line ∈ bodyLines sections, line.NoHeader)
    (ending : Nat → Ending) :
    addedLines ignored (write ending sections) =
      .ok (sections.map fun s => (s.path, s.addedLines)) := by
  rw [addedLines_write_trim hw hbody ending]
  refine congrArg _ (List.map_congr_left fun s hs => congrArg _ ?_)
  -- a text that does not end in a carriage return is left as it is
  refine (List.map_congr_left fun l hl => ?_).trans (List.map_id _)
  obtain ⟨h, hh, hl⟩ := List.mem_flatMap.1 hl
  have last := hend (.added l.text)
    (List.mem_flatMap.2 ⟨s, hs, List.mem_flatMap.2 ⟨h, hh, added_mem_of_mem_numbered hl⟩⟩)
  have same : dropReturns l.text.toList = l.text.toList := by
    unfold dropReturns
    rw [stripEndWhile_eq_self_iff]
    intro c hc
    rw [beq_eq_false_iff_ne]
    rintro rfl
    exact last hc
  show AddedLine.mk l.file l.line (String.ofList (dropReturns l.text.toList)) = l
  rw [same, String.ofList_toList]

/-- Two files with alternating endings, one of them without hunks. -/
theorem addedLines_write_two_files :
    addedLines (fun path => path == "vendor/lib.js")
      (write (fun i => if i % 2 = 0 then .lineFeed else .returnLineFeed)
        [⟨["diff --git a/a.py b/a.py", "--- a/a.py"], "a.py",
          [⟨1, 2, 10, 3, " def f():",
            [.context "one", .removed "two", .added "# TODO x", .added "+\u2028", .noNewline]⟩]⟩,
        ⟨[], "b c.py", []⟩]) =
      .ok [("a.py", [⟨"a.py", 11, "# TODO x"⟩, ⟨"a.py", 12, "+\u2028"⟩]), ("b c.py", [])] := by
  refine (addedLines_write ⟨?_, by decide, by decide⟩ (by decide) (by decide) _).trans (by decide)
  intro s hs
  rw [List.mem_cons, List.mem_singleton] at hs
  rcases hs with rfl | rfl
  · refine ⟨?_, by decide, by decide, by decide, ?_⟩
    · intro text ht
      rw [List.mem_cons, List.mem_singleton] at ht
      rcases ht with rfl | rfl <;> exact ⟨by decide, by decide, by decide⟩
    · intro h hh
      rw [List.mem_singleton] at hh
      subst hh
      exact ⟨by decide, by decide, by decide, by decide⟩
  · exact ⟨by simp, by decide, by decide, by decide, by simp⟩

end ActionItems.Diff
