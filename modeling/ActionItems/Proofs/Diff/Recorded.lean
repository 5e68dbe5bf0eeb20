import ActionItems.Proofs.Diff.Coherence
import ActionItems.Proofs.Glob

/-!
# Where lines are recorded

A line is recorded if it comes behind those of its file (`Progress.Records`). This is what happens
to a line with a plus in a hunk, and it gets the number that the reading has come to
(`Records.of_step`). Up to the next header that opens a hunk this number only grows, so of two lines
recorded in between the lower one has the greater number (`line_lt_of_recordedAt`).

The lines that a diff is found to add to a file were recorded there at places one below the other
(`IsRecord`, `isRecord_of_addedLines`): a file is opened without lines, and lines only come behind
the others. With the coherence of every reading this is what holds of any text
(`readings_coherent`).
-/

namespace ActionItems.Diff

open ActionItems.Text

/-- The header of a hunk that has lines in the new version. -/
def OpensHunk (line : List Char) : Prop :=
  hunkMark <+: line ∧ ∃ start, hunkStart? line = .ok (some start)

namespace Progress

variable {ignored : String → Bool} {p q : Progress} {line : List Char} {l : AddedLine}

/-! ### What a line does to the files -/

/-- What a line does to the files on the way from `p` to `q`, and where an added line is found. -/
inductive Alters (ignored : String → Bool) (p : Progress) (line : List Char) (q : Progress) : Prop
  | leave (files : q.files = p.files)
  | enter {path : String} (path_ne : path ≠ "") (kept : ignored path = false)
    (files : q.files = p.files.put path [])
  | record {text : List Char} {path : String} {lines : List AddedLine} (plus : line = '+' :: text)
    (nofile : ¬ "++ ".toList <+: text) (hunk : p.inHunk = true) (pos : 1 ≤ p.line)
    (found : p.files.find? path = some lines)
    (after : q = { p with
      files := p.files.put path (lines ++ [⟨path, p.line, String.ofList text⟩])
      line := p.line + 1 })

theorem alters_openFile (ignored : String → Bool) (p : Progress) (text line : List Char) :
    Alters ignored p line (p.openFile ignored text) := by
  unfold Progress.openFile
  cases hpath : headerPath? text with
  | none => exact .leave rfl
  | some path =>
    dsimp only
    split
    · exact .leave rfl
    · next kept => exact .enter (ne_of_headerPath? hpath) (by simpa using kept) rfl

/-- **What a line does to the files**, whatever the reading is. -/
theorem alters_of_step (h : p.step ignored line = .ok q) : Alters ignored p line q := by
  have taken := takes_step ignored p line
  rw [h] at taken
  generalize hr : Except.ok q = r at taken
  cases taken with
  | file text => cases hr; exact alters_openFile ignored p text _
  | passed nofile skips => cases hr; exact .leave rfl
  | refused active start => cases hr
  | closed active start => cases hr; exact .leave rfl
  | opened active start => cases hr; exact .leave rfl
  | added nofile active hunk current =>
    obtain ⟨lines, found, pos, rfl⟩ := eq_of_map_add hr.symm
    exact .record rfl nofile hunk pos found rfl
  | plain nofile nohunk active outside => cases hr; exact .leave (files_count p line)

/-! ### Recorded lines -/

/-- From `p` to `q` a line comes behind those of its file. -/
def Records (p q : Progress) (l : AddedLine) : Prop :=
  ∃ lines, p.files.find? l.file = some lines ∧ q.files.find? l.file = some (lines ++ [l])

/-- What a line with a plus in a hunk is recorded as. -/
structure Recording (p q : Progress) (line : List Char) (l : AddedLine) : Prop where
  text : line = '+' :: l.text.toList
  nofile : ¬ "++ ".toList <+: l.text.toList
  hunk : p.inHunk = true
  pos : 1 ≤ p.line
  line : l.line = p.line
  next : q.line = p.line + 1

/-- **Only a line with a plus in a hunk is recorded**, with the number that the reading has come
to. -/
theorem Records.of_step (h : p.Records q l) (hstep : p.step ignored line = .ok q) :
    Recording p q line l := by
  obtain ⟨old, before, after⟩ := h
  have longer : some (old ++ [l]) ≠ some old := by simp
  cases alters_of_step hstep with
  | leave files =>
    rw [files, before] at after
    exact absurd after.symm longer
  | @enter path _ _ files =>
    rw [files] at after
    by_cases hpath : path = l.file
    · rw [hpath, Keyed.find?_put_self] at after
      simp at after
    · rw [Keyed.find?_put_of_ne hpath, before] at after
      exact absurd after.symm longer
  | @record text path lines plus nofile hunk pos found hq =>
    subst hq
    by_cases hpath : path = l.file
    · subst hpath
      rw [Keyed.find?_put_self] at after
      obtain rfl : lines = old := Option.some.inj (found.symm.trans before)
      have last : ⟨l.file, p.line, String.ofList text⟩ = l := by simpa using after
      rw [← last]
      exact ⟨by simpa using plus, by simpa using nofile, hunk, pos, rfl, rfl⟩
    · rw [Keyed.find?_put_of_ne hpath, before] at after
      exact absurd after.symm longer

/-! ### Numbers between headers -/

theorem line_le_of_step (h : p.step ignored line = .ok q) (closed : ¬ OpensHunk line)
    (hin : q.inHunk = true) : p.inHunk = true ∧ p.line ≤ q.line := by
  have taken := takes_step ignored p line
  rw [h] at taken
  generalize hr : Except.ok q = r at taken
  cases taken with
  | file text =>
    cases hr
    rw [inHunk_openFile] at hin
    cases hin
  | passed nofile skips => cases hr; exact ⟨hin, Nat.le_refl _⟩
  | refused active start => cases hr
  | closed active start => cases hr; cases hin
  | opened active start => exact absurd ⟨List.prefix_append _ _, _, start⟩ closed
  | added nofile active hunk current =>
    obtain ⟨lines, -, -, rfl⟩ := eq_of_map_add hr.symm
    exact ⟨hunk, Nat.le_succ _⟩
  | plain nofile nohunk active outside =>
    cases hr
    cases ha : isAbsent line with
    | true =>
      rw [count_of_absent ha] at hin ⊢
      exact ⟨hin, Nat.le_refl _⟩
    | false =>
      rw [count_of_present ha] at hin ⊢
      exact ⟨hin, Nat.le_succ _⟩

theorem Reads.line_le {lines : List (List Char)} (h : Reads ignored p lines q)
    (closed : ∀ line ∈ lines, ¬ OpensHunk line) (hin : q.inHunk = true) :
    p.inHunk = true ∧ p.line ≤ q.line := by
  induction lines generalizing p with
  | nil =>
    obtain rfl := (Reads.nil p).unique h
    exact ⟨hin, Nat.le_refl _⟩
  | cons line lines ih =>
    obtain ⟨b, hstep, hrest⟩ := h.of_cons
    obtain ⟨hb, hle⟩ := ih hrest fun other hother => closed other (List.mem_cons_of_mem _ hother)
    obtain ⟨hp, hle'⟩ := line_le_of_step hstep (closed line List.mem_cons_self) hb
    exact ⟨hp, hle'.trans hle⟩

end Progress

/-! ### Places -/

/-- The line at a place of a diff, counted from zero, is recorded as `l`. -/
def RecordedAt (ignored : String → Bool) (lines : List (List Char)) (place : Nat)
    (l : AddedLine) : Prop :=
  ∃ before line after p q, lines = before ++ line :: after ∧ before.length = place ∧
    Progress.Reads ignored {} before p ∧ p.step ignored line = .ok q ∧ p.Records q l

/-- The lines were recorded one below the other, all of them above a place of the diff. -/
def RecordedAbove (ignored : String → Bool) (lines : List (List Char)) (bound : Nat)
    (added : List AddedLine) : Prop :=
  ∃ places : List Nat, places.Pairwise (· < ·) ∧ (∀ place ∈ places, place < bound) ∧
    List.Forall₂ (RecordedAt ignored lines) places added

/-- What is found of a file above a place of the diff. -/
structure IsRecord (ignored : String → Bool) (lines : List (List Char)) (bound : Nat)
    (path : String) (added : List AddedLine) : Prop where
  path_ne : path ≠ ""
  kept : ignored path = false
  file : ∀ l ∈ added, l.file = path
  above : RecordedAbove ignored lines bound added

variable {ignored : String → Bool} {lines : List (List Char)} {place bound : Nat} {path : String}
  {l : AddedLine} {added : List AddedLine}

theorem RecordedAt.line_pos (h : RecordedAt ignored lines place l) : 1 ≤ l.line := by
  obtain ⟨before, line, after, p, q, -, -, -, hstep, hrec⟩ := h
  have recorded := hrec.of_step hstep
  rw [recorded.line]
  exact recorded.pos

theorem RecordedAt.mem (h : RecordedAt ignored lines place l) :
    '+' :: l.text.toList ∈ lines ∧ ¬ "++ ".toList <+: l.text.toList := by
  obtain ⟨before, line, after, p, q, rfl, -, -, hstep, hrec⟩ := h
  have recorded := hrec.of_step hstep
  rw [← recorded.text]
  exact ⟨by simp, recorded.nofile⟩

/-- Above the lower one of two items of a list stands the upper one, and those below it have their
places between the two. -/
theorem exists_between {α : Type} {before after before' after' : List α} {a b : α}
    (h : before ++ a :: after = before' ++ b :: after') (below : before.length < before'.length) :
    ∃ between, before' = before ++ a :: between ∧
      ∀ c ∈ between, ∃ k, before.length < k ∧ k < before'.length ∧
        (before ++ a :: after)[k]? = some c := by
  obtain ⟨between, rfl⟩ : ∃ between, before' = before ++ a :: between := by
    obtain ⟨rest, hbefore, hrest⟩ | ⟨rest, hbefore, -⟩ := List.append_eq_append_iff.1 h
    · cases rest with
      | nil => simp [hbefore] at below
      | cons first between =>
        obtain ⟨rfl, -⟩ := List.cons.inj hrest
        exact ⟨between, hbefore⟩
    · have := congrArg List.length hbefore
      rw [List.length_append] at this
      omega
  refine ⟨between, rfl, fun c hc => ?_⟩
  obtain ⟨k, hk, rfl⟩ := List.getElem_of_mem hc
  have place : before.length + 1 + k - before.length = k + 1 := by omega
  refine ⟨before.length + 1 + k, by omega, ?_, ?_⟩
  · rw [List.length_append, List.length_cons]
    omega
  · rw [h, List.append_assoc, List.getElem?_append_right (by omega), place, List.cons_append,
      List.getElem?_cons_succ, List.getElem?_append_left hk, List.getElem?_eq_getElem hk]

/-- **Up to the next header that opens a hunk the numbers of recorded lines strictly increase.** -/
theorem line_lt_of_recordedAt {i j : Nat} {a b : AddedLine} (ha : RecordedAt ignored lines i a)
    (hb : RecordedAt ignored lines j b) (below : i < j)
    (closed : ∀ k line, i < k → k < j → lines[k]? = some line → ¬ OpensHunk line) :
    a.line < b.line := by
  obtain ⟨before, first, after, p, q, rfl, rfl, hp, hfirst, hrec⟩ := ha
  obtain ⟨before', second, after', r, s, hlines, rfl, hr, hsecond, hrec'⟩ := hb
  obtain ⟨between, rfl, places⟩ := exists_between hlines below
  obtain ⟨p', hp', hmore⟩ := hr.of_append
  obtain rfl := hp.unique hp'
  obtain ⟨q', hq', hbetween⟩ := hmore.of_cons
  obtain rfl := Except.ok.inj (hfirst.symm.trans hq')
  have opensNone : ∀ line ∈ between, ¬ OpensHunk line := by
    intro line hline
    obtain ⟨k, hupper, hlower, hk⟩ := places line hline
    exact closed k line hupper hlower hk
  have upper := hrec.of_step hfirst
  have lower := hrec'.of_step hsecond
  calc a.line = p.line := upper.line
    _ < q.line := by rw [upper.next]; exact Nat.lt_succ_self _
    _ ≤ r.line := (hbetween.line_le opensNone lower.hunk).2
    _ = b.line := lower.line.symm

/-! ### What is found of a file -/

theorem RecordedAbove.mono (h : RecordedAbove ignored lines place added) (le : place ≤ bound) :
    RecordedAbove ignored lines bound added := by
  obtain ⟨places, sorted, above, each⟩ := h
  exact ⟨places, sorted, fun i hi => (above i hi).trans_le le, each⟩

theorem RecordedAbove.concat (h : RecordedAbove ignored lines place added)
    (hl : RecordedAt ignored lines place l) :
    RecordedAbove ignored lines (place + 1) (added ++ [l]) := by
  obtain ⟨places, sorted, above, each⟩ := h
  refine ⟨places ++ [place], ?_, ?_, List.rel_append each (.cons hl .nil)⟩
  · rw [List.pairwise_append]
    refine ⟨sorted, List.pairwise_singleton _ _, fun i hi j hj => ?_⟩
    rw [List.mem_singleton.1 hj]
    exact above i hi
  · intro i hi
    rcases List.mem_append.1 hi with hi | hi
    · exact Nat.lt_succ_of_lt (above i hi)
    · rw [List.mem_singleton.1 hi]
      exact Nat.lt_succ_self place

theorem RecordedAbove.exists_place (h : RecordedAbove ignored lines bound added) (hl : l ∈ added) :
    ∃ place, RecordedAt ignored lines place l := by
  obtain ⟨places, -, -, each⟩ := h
  induction each with
  | nil => cases hl
  | cons first _ ih =>
    rcases List.mem_cons.1 hl with rfl | hl
    · exact ⟨_, first⟩
    · exact ih hl

theorem IsRecord.mono (h : IsRecord ignored lines place path added) (le : place ≤ bound) :
    IsRecord ignored lines bound path added :=
  { h with above := h.above.mono le }

theorem isRecord_nil (path_ne : path ≠ "") (kept : ignored path = false) :
    IsRecord ignored lines bound path [] where
  path_ne := path_ne
  kept := kept
  file := by simp
  above := ⟨[], .nil, by simp, .nil⟩

theorem IsRecord.concat (h : IsRecord ignored lines place path added) (hfile : l.file = path)
    (hl : RecordedAt ignored lines place l) :
    IsRecord ignored lines (place + 1) path (added ++ [l]) where
  path_ne := h.path_ne
  kept := h.kept
  file := List.forall_mem_append.2 ⟨h.file, List.forall_mem_singleton.2 hfile⟩
  above := h.above.concat hl

/-- A line of the diff keeps what is found of the files to records. -/
theorem isRecord_of_step {before after : List (List Char)} {line : List Char} {p q : Progress}
    (hlines : lines = before ++ line :: after) (reads : Progress.Reads ignored {} before p)
    (hstep : p.step ignored line = .ok q)
    (h : ∀ e ∈ p.files, IsRecord ignored lines before.length e.1 e.2) :
    ∀ e ∈ q.files, IsRecord ignored lines (before.length + 1) e.1 e.2 := by
  have old : ∀ e ∈ p.files, IsRecord ignored lines (before.length + 1) e.1 e.2 :=
    fun e he => (h e he).mono (Nat.le_succ _)
  cases Progress.alters_of_step hstep with
  | leave files => rwa [files]
  | enter path_ne kept files =>
    rw [files]
    intro e he
    rcases Keyed.mem_of_mem_put he with rfl | he
    · exact isRecord_nil path_ne kept
    · exact old e he
  | @record text path found plus _ _ _ hfind hq =>
    have here : RecordedAt ignored lines before.length ⟨path, p.line, String.ofList text⟩ :=
      ⟨before, line, after, p, q, hlines, rfl, reads, hstep, found, hfind, by
        rw [hq]
        exact Keyed.find?_put_self _ _ _⟩
    rw [hq]
    intro e he
    rcases Keyed.mem_of_mem_put he with rfl | he
    · exact (h _ (Keyed.mem_of_find? hfind)).concat rfl here
    · exact old e he

/-- **What a diff is found to add to a file was recorded there**, one line below the other. -/
theorem isRecord_of_addedLines {diff : String} {files : Keyed (List AddedLine)}
    (h : addedLines ignored diff = .ok files) :
    ∀ e ∈ files, IsRecord ignored (linesOf diff) (linesOf diff).length e.1 e.2 := by
  obtain ⟨q, reads, rfl⟩ := Progress.reads_of_addedLines h
  have run : ∃ before, linesOf diff = before ++ [] ∧ Progress.Reads ignored {} before q ∧
      ∀ e ∈ q.files, IsRecord ignored (linesOf diff) before.length e.1 e.2 := by
    refine reads.invariant (I := fun rest p => ∃ before, linesOf diff = before ++ rest ∧
      Progress.Reads ignored {} before p ∧
      ∀ e ∈ p.files, IsRecord ignored (linesOf diff) before.length e.1 e.2) ?_
      ⟨[], rfl, .nil _, fun e he => by cases he⟩
    rintro line rest p b ⟨before, hlines, hp, records⟩ hstep
    refine ⟨before ++ [line],
      by rw [hlines, List.append_assoc]; rfl, hp.append (.cons hstep (.nil b)), ?_⟩
    rw [List.length_append]
    exact isRecord_of_step hlines hp hstep records
  obtain ⟨before, hlines, -, records⟩ := run
  rw [List.append_nil] at hlines
  rwa [← hlines] at records

/-! ### Any text -/

theorem newline_not_mem_linesOf {diff : String} {line : List Char} (h : line ∈ linesOf diff) :
    '\n' ∉ line := by
  obtain ⟨whole, hwhole, rfl⟩ := List.mem_map.1 h
  exact fun hc => not_mem_of_mem_splitLines hwhole ((dropReturns_prefix_self whole).subset hc)

theorem Progress.coherent_of_reads {p : Progress} (h : Progress.Reads ignored {} lines p) :
    p.Coherent ignored :=
  h.invariant (I := fun _ p => p.Coherent ignored) (fun _ _ _ _ coherent => coherent.of_step)
    (Progress.coherent_start ignored)

/-- A diff is refused for nothing but a hunk header whose start is not converted. -/
theorem exists_header_of_addedLines_error {diff : String} {e : ReadError}
    (h : addedLines ignored diff = .error e) :
    ∃ cause, e = .number cause ∧ ∃ line ∈ linesOf diff, hunkMark <+: line ∧
      hunkStart? line = .error cause := by
  obtain ⟨q, reads, -⟩ | ⟨before, line, after, q, cause, hlines, -, -, hmark, hstart, run⟩ :=
    (Progress.coherent_start ignored).run (linesOf diff)
  · rw [addedLines_of_reads rfl reads] at h
    cases h
  · rw [addedLines_eq_map, run] at h
    cases h
    exact ⟨cause, rfl, line, by rw [hlines]; simp, hmark, hstart⟩

/-- **What holds of any text, with any globs that are compiled.** The reading is coherent before
each of its lines, so it never misses an open file and never makes a line that fails a check. Every
file that is found has a path, and no glob matches it. Its lines belong to it, with positive numbers
and with texts that have no line feed and do not complete the mark of a file header, and they were
recorded at places of the diff one below the other. Between two headers that open hunks the numbers
of recorded lines strictly increase. -/
theorem readings_coherent [CharNames] {globs : List String} {patterns : List Pattern.Node}
    (hglobs : Glob.compileAll globs = .ok patterns) (diff : String) :
    let ignored := Glob.anyMatch patterns
    let lines := linesOf diff
    (∀ path, ignored path = true ↔ ∃ glob ∈ globs, ∃ node,
      Glob.compile? glob = .ok (some node) ∧ Pattern.search node path.toList = true) ∧
    (∀ before after p, lines = before ++ after → Progress.Reads ignored {} before p →
      p.Coherent ignored) ∧
    (∀ e, addedLines ignored diff = .error e →
      ∃ cause, e = .number cause ∧ ∃ line ∈ lines, hunkMark <+: line ∧
        hunkStart? line = .error cause) ∧
    (∀ files, addedLines ignored diff = .ok files → ∀ path added, (path, added) ∈ files →
      IsRecord ignored lines lines.length path added ∧
        ∀ l ∈ added, 1 ≤ l.line ∧ '\n' ∉ l.text.toList ∧ ¬ "++ ".toList <+: l.text.toList) ∧
    ∀ i j a b, RecordedAt ignored lines i a → RecordedAt ignored lines j b → i < j →
      (∀ k line, i < k → k < j → lines[k]? = some line → ¬ OpensHunk line) → a.line < b.line := by
  intro ignored lines
  refine ⟨Glob.anyMatch_iff hglobs, fun before after p _ reads => Progress.coherent_of_reads reads,
    fun e => exists_header_of_addedLines_error, fun files h path added hmem => ?_,
    fun i j a b => line_lt_of_recordedAt⟩
  have found := isRecord_of_addedLines h (path, added) hmem
  refine ⟨found, fun l hl => ?_⟩
  obtain ⟨place, recorded⟩ := found.above.exists_place hl
  obtain ⟨mem, nofile⟩ := recorded.mem
  exact ⟨recorded.line_pos,
    fun hc => newline_not_mem_linesOf mem (List.mem_cons_of_mem _ hc), nofile⟩

attribute [local instance] CharNames.ascii

/-- Header of a hunk before any file, an ignored file, a hunk below a removed line and a malformed
header. -/
theorem readings_coherent_headers :
    let globs := ["*.lock", "[a"]
    let diff :=
      "@@ -1 +5 @@\n+x\n+++ b.lock\n@@ -1 +9 @@\n+x\n+++ a.py\n+y\n@@ -0,0 +3,2 @@\n+a\n-b\n c\n" ++
      "+d\n@@ +7 @@\n+e\n@@ -9 +2 @@\n+f"
    let a : AddedLine := ⟨"a.py", 3, "a"⟩
    let d : AddedLine := ⟨"a.py", 5, "d"⟩
    let f : AddedLine := ⟨"a.py", 2, "f"⟩
    ∃ patterns, Glob.compileAll globs = .ok patterns ∧
      addedLines (Glob.anyMatch patterns) diff = .ok [("a.py", [a, d, f])] ∧
      IsRecord (Glob.anyMatch patterns) (linesOf diff) 16 "a.py" [a, d, f] ∧
      (∃ p, Progress.Reads (Glob.anyMatch patterns) {} ((linesOf diff).take 9) p ∧ p.inHunk = true ∧
        p.Coherent (Glob.anyMatch patterns)) ∧
      RecordedAt (Glob.anyMatch patterns) (linesOf diff) 8 a ∧
      RecordedAt (Glob.anyMatch patterns) (linesOf diff) 11 d ∧ a.line < d.line := by
  intro globs diff a d f
  have lines : linesOf diff = ["@@ -1 +5 @@", "+x", "+++ b.lock", "@@ -1 +9 @@", "+x",
      "+++ a.py", "+y", "@@ -0,0 +3,2 @@", "+a", "-b", " c", "+d", "@@ +7 @@", "+e", "@@ -9 +2 @@",
      "+f"].map String.toList := by
    decide +kernel
  obtain ⟨patterns, hglobs, hread, hinside, ha, hd⟩ : ∃ patterns, Glob.compileAll globs =
      .ok patterns ∧
      addedLines (Glob.anyMatch patterns) diff = .ok [("a.py", [a, d, f])] ∧
      Progress.Reads (Glob.anyMatch patterns) {} ((linesOf diff).take 9)
        ⟨[("a.py", [a])], some "a.py", false, true, 4⟩ ∧
      RecordedAt (Glob.anyMatch patterns) (linesOf diff) 8 a ∧
      RecordedAt (Glob.anyMatch patterns) (linesOf diff) 11 d := by
    simp only [addedLines_eq_map, lines]
    refine ⟨_, rfl, by decide +kernel, ?_, ?_, ?_⟩
    · show List.foldlM _ _ _ = _
      decide +kernel
    · refine ⟨_, "+a".toList, _, ⟨[("a.py", [])], some "a.py", false, true, 3⟩,
        ⟨[("a.py", [a])], some "a.py", false, true, 4⟩, (List.take_append_drop 8 _).symm, rfl, ?_,
        by decide +kernel, [], rfl, rfl⟩
      show List.foldlM _ _ _ = _
      decide +kernel
    · refine ⟨_, "+d".toList, _, ⟨[("a.py", [a])], some "a.py", false, true, 5⟩,
        ⟨[("a.py", [a, d])], some "a.py", false, true, 6⟩, (List.take_append_drop 11 _).symm, rfl,
        ?_, by decide +kernel, [a], rfl, rfl⟩
      show List.foldlM _ _ _ = _
      decide +kernel
  obtain ⟨-, coherent, -, records, increase⟩ := readings_coherent hglobs diff
  have between : ∀ k line, 8 < k → k < 11 → (linesOf diff)[k]? = some line → ¬ OpensHunk line := by
    rintro k line hk hk' hline ⟨hmark, -⟩
    rw [lines] at hline
    obtain rfl | rfl : k = 9 ∨ k = 10 := by omega
    · obtain rfl : "-b".toList = line := Option.some.inj hline
      exact absurd hmark (by decide)
    · obtain rfl : " c".toList = line := Option.some.inj hline
      exact absurd hmark (by decide)
  have here := (records _ hread "a.py" [a, d, f] (List.mem_singleton.2 rfl)).1
  rw [show (linesOf diff).length = 16 by rw [lines]; rfl] at here
  exact ⟨patterns, hglobs, hread, here,
    ⟨_, hinside, rfl, coherent _ _ _ (List.take_append_drop 9 _).symm hinside⟩, ha, hd,
    increase 8 11 a d ha hd (by decide) between⟩

end ActionItems.Diff
