import ActionItems.Proofs.Diff.Coherence
import ActionItems.Proofs.Diff.Retexted

/-!
# Diffs one after the other

A file header sets everything that the reading of the lines below it depends on, but for the files
found so far and for the number of the next line, which counts for nothing before the header of a
hunk has set it. So a reading that goes on from other files (`Follows`) takes every line as one that
begins with the header, and has the same files put into its own (`Follows.step`). A diff behind
another one is read as if it stood alone (`addedLines_join`).
-/

namespace ActionItems.Diff

open ActionItems.Text

namespace Progress

variable {ignored : String → Bool} {table : Keyed (List AddedLine)} {p q : Progress}

/-- The reading `q` is at the same place as `p` and has found the files of `table` before. -/
structure Follows (ignored : String → Bool) (table : Keyed (List AddedLine))
    (p q : Progress) : Prop where
  coherent : p.Coherent ignored
  nodup : p.files.keys.Nodup
  files : q.files = table.update p.files
  current : q.current? = p.current?
  skipping : q.skipping = p.skipping
  inHunk : q.inHunk = p.inHunk
  /-- Outside of hunks the numbers of the next line may differ. -/
  line : p.inHunk = true → q.line = p.line

theorem follows_openFile (ignored : String → Bool) (nodup : p.files.keys.Nodup)
    (files : q.files = table.update p.files) (text : List Char) :
    Follows ignored table (p.openFile ignored text) (q.openFile ignored text) := by
  have out := inHunk_openFile ignored p text
  have coherent := coherent_openFile ignored p text
  have keys := (changes_openFile ignored p text []).nodup_keys nodup
  unfold Progress.openFile at out coherent keys ⊢
  cases hpath : headerPath? text with
  | none =>
    rw [hpath] at coherent keys
    exact ⟨coherent, keys, files, rfl, rfl, rfl, by rintro ⟨⟩⟩
  | some path =>
    rw [hpath] at coherent keys
    dsimp only at coherent keys ⊢
    split
    · next skips =>
      rw [if_pos skips] at coherent keys
      exact ⟨coherent, keys, files, rfl, rfl, rfl, by rintro ⟨⟩⟩
    · next kept =>
      rw [if_neg kept] at coherent keys
      refine ⟨coherent, keys, ?_, rfl, rfl, rfl, by rintro ⟨⟩⟩
      show q.files.put path [] = table.update (p.files.put path [])
      rw [files, Keyed.update_put nodup]

theorem Follows.count (h : Follows ignored table p q) (line : List Char) :
    Follows ignored table (p.count line) (q.count line) := by
  have coherent := h.coherent.count line
  cases ha : isAbsent line with
  | true => rwa [count_of_absent ha, count_of_absent ha]
  | false =>
    rw [count_of_present ha] at coherent ⊢
    rw [count_of_present ha]
    exact ⟨coherent, h.nodup, h.files, h.current, h.skipping, h.inHunk, fun hin =>
      congrArg (· + 1) (h.line hin)⟩

/-- **Both readings take a line alike.** -/
theorem Follows.step (h : Follows ignored table p q) (line : List Char) :
    Agree (Follows ignored table) (p.step ignored line) (q.step ignored line) := by
  have coherent : ∀ r, p.step ignored line = .ok r → r.Coherent ignored :=
    fun _ => h.coherent.of_step
  have active : p.skipping = false → q.skipping = false := fun hs => h.skipping.trans hs
  have taken := takes_step ignored p line
  generalize p.step ignored line = r at taken coherent
  cases taken with
  | file text =>
    rw [step_fileMark]
    exact follows_openFile ignored h.nodup h.files text
  | passed nofile skips =>
    have other : Takes ignored q _ _ := .passed nofile (h.skipping.trans skips)
    rw [other.eq]
    exact h
  | refused hs start =>
    have other : Takes ignored q _ _ := .refused (active hs) start
    rw [other.eq]
    exact rfl
  | closed hs start =>
    have other : Takes ignored q _ _ := .closed (active hs) start
    rw [other.eq]
    exact ⟨coherent _ rfl, h.nodup, h.files, h.current, h.skipping, rfl, by rintro ⟨⟩⟩
  | opened hs start =>
    have other : Takes ignored q _ _ := .opened (active hs) start
    rw [other.eq]
    exact ⟨coherent _ rfl, h.nodup, h.files, h.current, h.skipping, rfl, fun _ => rfl⟩
  | @added text path nofile hs hin current =>
    have other : Takes ignored q _ _ :=
      .added nofile (active hs) (h.inHunk.trans hin) (h.current.trans current)
    rw [other.eq]
    obtain ⟨lines, hfind, hadd⟩ := h.coherent.add current hin text
    obtain ⟨hline, -⟩ := h.coherent.hunk hin
    obtain ⟨hne, -, -⟩ := h.coherent.file path current hs
    -- Here the number is observed: in a hunk it is the same in both.
    have hline' : q.line = p.line := h.line hin
    have hfind' : q.files.find? path = some lines := by
      rw [h.files, Keyed.find?_update h.nodup, hfind, Option.some_or]
    have hadd' : q.add path text =
        .ok { q with
          files := q.files.put path (lines ++ [⟨path, p.line, String.ofList text⟩]) } := by
      unfold Progress.add
      rw [hfind', hline']
      simp only [AddedLine.make_ok hline hne]
    rw [hadd] at coherent ⊢
    rw [hadd']
    refine ⟨coherent _ rfl, Keyed.nodup_keys_put h.nodup _ _, ?_, h.current, h.skipping,
      h.inHunk, fun _ => congrArg (· + 1) hline'⟩
    show q.files.put path _ = table.update (p.files.put path _)
    rw [h.files, Keyed.update_put h.nodup]
  | plain nofile nohunk hs outside =>
    have other : Takes ignored q _ _ := .plain nofile nohunk (active hs) fun hplus =>
      (outside hplus).imp (fun hin => h.inHunk.trans hin) (fun hcur => h.current.trans hcur)
    rw [other.eq]
    exact h.count line

end Progress

theorem linesOf_join (a b : String) : linesOf (a ++ "\n" ++ b) = linesOf a ++ linesOf b := by
  unfold linesOf
  rw [String.toList_append, String.toList_append, List.append_assoc]
  show (splitLines (a.toList ++ '\n' :: b.toList)).map dropReturns = _
  rw [splitLines_append_newline, List.map_append]

/-- A text without line feeds goes in front of the first line of another. -/
theorem splitLines_append {s : List Char} (h : '\n' ∉ s) (t : List Char) :
    ∃ line rest, splitLines t = line :: rest ∧ splitLines (s ++ t) = (s ++ line) :: rest := by
  induction s with
  | nil =>
    obtain ⟨line, rest, ht⟩ := List.exists_cons_of_ne_nil (splitLines_ne_nil t)
    exact ⟨line, rest, ht, ht⟩
  | cons c s ih =>
    rw [List.mem_cons, not_or] at h
    obtain ⟨line, rest, ht, hst⟩ := ih h.2
    refine ⟨line, rest, ht, ?_⟩
    rw [List.cons_append, splitLines, if_neg (Ne.symm h.1), hst]
    rfl

theorem linesOf_of_fileMark {diff : String} (h : fileMark <+: diff.toList) :
    ∃ text rest, linesOf diff = (fileMark ++ text) :: rest := by
  obtain ⟨more, hmore⟩ := h
  have mark : '\n' ∉ fileMark ∧ '\r' ∉ fileMark := by decide
  obtain ⟨line, rest, -, hlines⟩ := splitLines_append mark.1 more
  refine ⟨dropReturns line, rest.map dropReturns, ?_⟩
  unfold linesOf
  rw [← hmore, hlines, List.map_cons, dropReturns_append mark.2]

/-- **A diff that begins with a file header and stands behind another one is read as if it stood
alone**: its files are put into those of the other. -/
theorem addedLines_join {ignored : String → Bool} {a b : String} {before : Keyed (List AddedLine)}
    (ha : addedLines ignored a = .ok before) (hb : fileMark <+: b.toList) :
    addedLines ignored (a ++ "\n" ++ b) = (addedLines ignored b).map before.update := by
  obtain ⟨p, reads, rfl⟩ := Progress.reads_of_addedLines ha
  obtain ⟨text, rest, hlines⟩ := linesOf_of_fileMark hb
  have start : Progress.Follows ignored p.files (Progress.openFile ignored {} text)
      (p.openFile ignored text) :=
    Progress.follows_openFile (p := {}) ignored List.nodup_nil rfl text
  have whole : (linesOf (a ++ "\n" ++ b)).foldlM (Progress.step ignored) {} =
      (linesOf b).foldlM (Progress.step ignored) p := by
    have first : (linesOf a).foldlM (Progress.step ignored) {} = .ok p := reads
    rw [linesOf_join, List.foldlM_append, first]
    rfl
  have run :
      Agree (Progress.Follows ignored p.files) ((linesOf b).foldlM (Progress.step ignored) {})
      ((linesOf b).foldlM (Progress.step ignored) p) := by
    rw [hlines, List.foldlM_cons, List.foldlM_cons, Progress.step_fileMark, Progress.step_fileMark]
    exact Agree.foldlM (fun _ _ line h => h.step line) rest start
  rw [addedLines_eq_map, addedLines_eq_map, whole,
    run.map_eq (f := fun q => p.files.update q.files) fun _ _ h => h.files]
  cases (linesOf b).foldlM (Progress.step ignored) {} <;> rfl

end ActionItems.Diff
