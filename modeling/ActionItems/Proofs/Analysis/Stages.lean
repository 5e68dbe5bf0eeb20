import ActionItems.Proofs.Diff.Recorded
import ActionItems.Proofs.Report.Coverage

/-!
# The stages of an analysis

The added lines of a diff have positive numbers (`positive_of_addedLines`), so every file with
matches is parted into ranges (`exists_groupAll`) and the ranges are of the files with matches. An
analysis therefore succeeds once its globs are compiled, its diff is read and its table is built
(`analyze_of_addedLines`).
-/

namespace ActionItems

/-! ### Numbers of lines -/

namespace Diff

/-- The lines of all files have positive numbers. -/
def Positive (files : Keyed (List AddedLine)) : Prop := ∀ e ∈ files, ∀ l ∈ e.2, 1 ≤ l.line

/-- **The added lines of a diff have positive numbers.** -/
theorem positive_of_addedLines {ignored : String → Bool} {diff : String}
    {files : Keyed (List AddedLine)} (h : addedLines ignored diff = .ok files) :
    Positive files := by
  intro e he l hl
  obtain ⟨place, recorded⟩ := (isRecord_of_addedLines h e he).above.exists_place hl
  exact recorded.line_pos

end Diff

/-! ### Matches and ranges -/

namespace Comment

theorem mem_of_mem_scanLines {s : Search} {inBlock : Bool} {lines : List AddedLine} {m : Match}
    (h : m ∈ s.scanLines inBlock lines) : ∃ l ∈ lines, m = l.toMatch := by
  induction lines generalizing inBlock with
  | nil => cases h
  | cons l lines ih =>
    have rest (inBlock : Bool) (h : m ∈ s.scanLines inBlock lines) :
        ∃ l' ∈ l :: lines, m = l'.toMatch := by
      obtain ⟨l', hl', hm⟩ := ih h
      exact ⟨l', List.mem_cons_of_mem _ hl', hm⟩
    rw [Search.scanLines] at h
    split at h
    · rcases List.mem_cons.1 h with rfl | h
      · exact ⟨l, List.mem_cons_self, rfl⟩
      · exact rest _ h
    · exact rest _ h

theorem line_of_mem_scan {table : Table String} {keywords : Keywords} {multiline : Bool}
    {files : Keyed (List AddedLine)} (h : Diff.Positive files) {e : String × List Match}
    (he : e ∈ scan table keywords multiline files) : ∀ m ∈ e.2, 1 ≤ m.line := by
  obtain ⟨⟨path, lines⟩, hmem, hfound⟩ := List.mem_filterMap.1 he
  dsimp only at hfound
  split at hfound
  · cases hfound
  · split at hfound
    · cases hfound
    · cases hfound
      intro m hm
      obtain ⟨l, hl, rfl⟩ := mem_of_mem_scanLines hm
      exact h _ hmem l hl

theorem scan_append (table : Table String) (keywords : Keywords) (multiline : Bool)
    (files more : Keyed (List AddedLine)) : scan table keywords multiline (files ++ more) =
    scan table keywords multiline files ++ scan table keywords multiline more :=
  List.filterMap_append

end Comment

theorem exists_groupAll (g : Grouping) {found : Keyed (List Match)}
    (h : ∀ e ∈ found, ∀ m ∈ e.2, 1 ≤ m.line) : ∃ ranges, groupAll g found = .ok ranges := by
  refine Except.exists_mapM fun e he => ?_
  obtain ⟨rs, hrs⟩ := g.exists_group (h e he)
  refine ⟨(e.1, rs), ?_⟩
  show (do return (e.1, ← g.group e.2)) = _
  rw [hrs]
  rfl

theorem make_of_groupAll {g : Grouping} {found : Keyed (List Match)}
    {ranges : Keyed (List LineRange)} (h : groupAll g found = .ok ranges) :
    Analysis.make found ranges = .ok ⟨found, ranges⟩ := by
  obtain ⟨files, rfl, rfl, -⟩ := files_of_groupAll h
  have same : (Keyed.keys (files.map fun f => (f.path, f.ranges))) =
      Keyed.keys (files.map fun f => (f.path, f.found)) := by
    simp [Keyed.keys, Function.comp_def]
  refine if_pos ?_
  rw [same]
  simp

/-- **An analysis succeeds** once its globs are compiled, its diff is read and its table is
built. -/
theorem analyze_of_addedLines [CharNames] {options : Options} {diff : String}
    {globs : List Pattern.Node} {lines : Keyed (List AddedLine)} {table : Comment.Table String}
    (hglobs : Glob.compileAll options.ignoreFiles = .ok globs)
    (hlines : Diff.addedLines (Glob.anyMatch globs) diff = .ok lines)
    (htable : Comment.Table.ofOverrides options.addLanguages = .ok table) :
    ∃ ranges, groupAll options.grouping
      (Comment.scan table options.keywords options.multilineComments lines) =
        .ok ranges ∧
      analyze options diff =
        .ok ⟨Comment.scan table options.keywords options.multilineComments lines, ranges⟩ := by
  have each : ∀ e ∈ Comment.scan table options.keywords options.multilineComments lines,
      ∀ m ∈ e.2, 1 ≤ m.line :=
    fun e he => Comment.line_of_mem_scan (Diff.positive_of_addedLines hlines) he
  obtain ⟨ranges, hranges⟩ := exists_groupAll options.grouping each
  refine ⟨ranges, hranges, ?_⟩
  unfold analyze
  rw [hglobs]
  show (Diff.addedLines (Glob.anyMatch globs) diff).mapError _ >>= _ = _
  rw [hlines, htable]
  show (groupAll _ _).mapError _ >>= _ = _
  rw [hranges]
  exact make_of_groupAll hranges

end ActionItems
