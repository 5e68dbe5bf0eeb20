import ActionItems.Proofs.Diff.RoundTrip

/-!
# The files of a diff

What a line of a diff does to the files (`Changes`): it leaves them, opens one of them without
lines, or, with a plus, adds a line to one of them (`Progress.changes_of_step`). What every line
keeps is kept by the reading of a diff (`Reads.invariant`). A file that is opened once more or gets
another line keeps its place, so no file comes twice (`nodup_keys_addedLines`).
-/

namespace ActionItems

theorem Keyed.nodup_keys_put {α : Type} {table : Keyed α} (h : table.keys.Nodup) (key : String)
    (value : α) : (Keyed.put key value table).keys.Nodup := by
  rw [Keyed.keys_put]
  split
  · exact h
  · next new =>
    refine List.nodup_append.2 ⟨h, by simp, fun a ha b hb => ?_⟩
    obtain rfl := List.mem_singleton.1 hb
    rintro rfl
    exact new ha

namespace Diff

/-- What a line can do to the files. -/
inductive Changes (line : List Char) (files : Keyed (List AddedLine)) :
    Keyed (List AddedLine) → Prop
  | leave : Changes line files files
  | enter (path : String) : Changes line files (files.put path [])
  | record {path : String} {lines : List AddedLine} (added : AddedLine)
    (plus : line.head? = some '+') (found : files.find? path = some lines) :
    Changes line files (files.put path (lines ++ [added]))

theorem Changes.nodup_keys {line : List Char} {files files' : Keyed (List AddedLine)}
    (h : Changes line files files') (nodup : files.keys.Nodup) : files'.keys.Nodup := by
  cases h with
  | leave => exact nodup
  | enter path => exact Keyed.nodup_keys_put nodup _ _
  | record added plus found => exact Keyed.nodup_keys_put nodup _ _

namespace Progress

variable {ignored : String → Bool} {p q r : Progress}

theorem inHunk_openFile (ignored : String → Bool) (p : Progress) (text : List Char) :
    (p.openFile ignored text).inHunk = false := by
  unfold Progress.openFile
  cases headerPath? text with
  | none => rfl
  | some path => dsimp only; split <;> rfl

/-- A file header adds no line, with whatever it begins. -/
theorem changes_openFile (ignored : String → Bool) (p : Progress) (text line : List Char) :
    Changes line p.files (p.openFile ignored text).files := by
  unfold Progress.openFile
  cases headerPath? text with
  | none => exact .leave
  | some path =>
    dsimp only
    split
    · exact .leave
    · exact .enter path

theorem files_of_openHunk {line : List Char} (h : p.openHunk line = .ok q) : q.files = p.files := by
  unfold Progress.openHunk at h
  split at h
  · cases h
  · cases h; rfl
  · cases h; rfl

theorem eq_of_add {path : String} {text : List Char} (h : p.add path text = .ok q) :
    ∃ lines, p.files.find? path = some lines ∧ 1 ≤ p.line ∧
      q = { p with files := p.files.put path (lines ++ [⟨path, p.line, String.ofList text⟩]) } := by
  unfold Progress.add at h
  split at h
  · cases h
  · next lines found =>
    unfold AddedLine.make at h
    by_cases hline : (p.line : Int) < 1
    · simp only [hline, if_true] at h
      cases h
    by_cases hpath : path.isEmpty = true
    · simp only [hline, hpath, if_false, if_true] at h
      cases h
    simp only [hline, hpath, if_false] at h
    cases h
    exact ⟨lines, found, by omega, rfl⟩

theorem changes_of_add {path : String} {text : List Char} (h : p.add path text = .ok q) :
    Changes ('+' :: text) p.files q.files := by
  obtain ⟨lines, found, -, rfl⟩ := eq_of_add h
  exact .record _ rfl found

theorem changes_of_body {line : List Char} (h : p.body line = .ok q) :
    Changes line p.files q.files := by
  unfold Progress.body at h
  split at h
  · rw [files_of_openHunk h]
    exact .leave
  · split at h
    · exact changes_of_add h
    · cases h
      exact .leave

theorem files_count (p : Progress) (line : List Char) : (p.count line).files = p.files := by
  unfold Progress.count
  split <;> rfl

/-- **What a line does to the files.** -/
theorem changes_of_step {line : List Char} (h : p.step ignored line = .ok q) :
    Changes line p.files q.files := by
  cases hd : dropStart? fileMark line with
  | some text =>
    unfold Progress.step at h
    rw [hd] at h
    cases h
    exact changes_openFile ignored p text line
  | none =>
    cases hs : p.skipping with
    | true =>
      rw [step_of_skipping hd hs] at h
      cases h
      exact .leave
    | false =>
      rw [step_eq_body hd hs] at h
      cases hb : p.body line with
      | error e => rw [hb] at h; cases h
      | ok b =>
        rw [hb] at h
        cases h
        rw [files_count]
        exact changes_of_body hb

/-! ### Readings -/

/-- A diff that is read is read line by line. -/
theorem reads_of_addedLines {diff : String} {files : Keyed (List AddedLine)}
    (h : addedLines ignored diff = .ok files) :
    ∃ q, Reads ignored {} ((splitLines diff.toList).map dropReturns) q ∧ q.files = files := by
  unfold addedLines at h
  unfold Reads
  dsimp only at h
  cases hr : ((splitLines diff.toList).map dropReturns).foldlM (Progress.step ignored) {} with
  | error e => rw [hr] at h; cases h
  | ok q =>
    rw [hr] at h
    exact ⟨q, rfl, Except.ok.inj h⟩

theorem Reads.of_cons {line : List Char} {rest : List (List Char)}
    (h : Reads ignored p (line :: rest) r) :
    ∃ q, p.step ignored line = .ok q ∧ Reads ignored q rest r := by
  unfold Reads at h ⊢
  rw [List.foldlM_cons] at h
  cases hs : p.step ignored line with
  | error e => rw [hs] at h; cases h
  | ok q =>
    rw [hs] at h
    exact ⟨q, rfl, h⟩

theorem Reads.of_append {lines rest : List (List Char)} (h : Reads ignored p (lines ++ rest) r) :
    ∃ q, Reads ignored p lines q ∧ Reads ignored q rest r := by
  unfold Reads at h ⊢
  rw [List.foldlM_append] at h
  cases hl : lines.foldlM (Progress.step ignored) p with
  | error e => rw [hl] at h; cases h
  | ok q =>
    rw [hl] at h
    exact ⟨q, rfl, h⟩

theorem Reads.unique {lines : List (List Char)} (h : Reads ignored p lines q)
    (h' : Reads ignored p lines r) : q = r :=
  Except.ok.inj (h.symm.trans h')

/-- What every line keeps is kept by a reading. The invariant may speak of the lines that are still
to be read. -/
theorem Reads.invariant {I : List (List Char) → Progress → Prop}
    (step : ∀ line rest p q, I (line :: rest) p → p.step ignored line = .ok q → I rest q)
    {lines : List (List Char)} (h : Reads ignored p lines q) (start : I lines p) : I [] q := by
  induction lines generalizing p with
  | nil =>
    obtain rfl := (Reads.nil p).unique h
    exact start
  | cons line lines ih =>
    obtain ⟨b, hstep, hrest⟩ := h.of_cons
    exact ih hrest (step line lines p b start hstep)

end Progress

/-- **No file comes twice among the added lines of a diff.** -/
theorem nodup_keys_addedLines {ignored : String → Bool} {diff : String}
    {files : Keyed (List AddedLine)} (h : addedLines ignored diff = .ok files) :
    files.keys.Nodup := by
  obtain ⟨q, reads, rfl⟩ := Progress.reads_of_addedLines h
  refine reads.invariant (I := fun _ p => p.files.keys.Nodup) ?_ List.nodup_nil
  intro line rest p q nodup hstep
  exact (Progress.changes_of_step hstep).nodup_keys nodup

end Diff

end ActionItems
