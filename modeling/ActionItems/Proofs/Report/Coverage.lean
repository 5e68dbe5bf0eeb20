import ActionItems.Analysis
import ActionItems.Proofs.Diff.Files
import ActionItems.Proofs.Report.Ranges

/-!
# What a report shows

A diff is taken through the stages of an analysis (`stages_of_analyze`), and a report is written on
its result. The report has a heading for every file with matches, in the order of the files, with
the number of its matches; its links cover each match of the file once (`Shows`, `shows_report`).

The headings look the numbers up by path, so they are right because no file comes twice
(`nodup_keys_scan`).
-/

namespace ActionItems

/-! ### Looking up files -/

namespace Keyed

variable {α : Type} {table : Keyed α}

theorem find?_of_mem (h : table.keys.Nodup) {key : String} {value : α} (hm : (key, value) ∈ table) :
    find? key table = some value := by
  obtain ⟨before, after, rfl⟩ := List.append_of_mem hm
  refine find?_append_cons (fun hk => ?_) value after
  rw [keys_append] at h
  exact (List.nodup_append.1 h).2.2 key hk key (by simp [keys]) rfl

end Keyed

namespace Comment

variable {table : Table String} {keywords : Keywords} {multiline : Bool}
  {files : Keyed (List AddedLine)}

theorem keys_scan_sublist (table : Table String) (keywords : Keywords) (multiline : Bool)
    (files : Keyed (List AddedLine)) :
    (scan table keywords multiline files).keys.Sublist files.keys := by
  unfold scan
  induction files with
  | nil => exact .slnil
  | cons e files ih =>
    obtain ⟨path, lines⟩ := e
    rw [List.filterMap_cons]
    split
    · exact ih.cons _
    · next found h =>
      dsimp only at h
      split at h
      · cases h
      · split at h
        · cases h
        · cases h
          exact ih.cons_cons path

theorem nodup_keys_scan (table : Table String) (keywords : Keywords) (multiline : Bool)
    (h : files.keys.Nodup) : (scan table keywords multiline files).keys.Nodup :=
  (keys_scan_sublist table keywords multiline files).nodup h

theorem ne_nil_of_mem_scan {path : String} {found : List Match}
    (h : (path, found) ∈ scan table keywords multiline files) : found ≠ [] := by
  obtain ⟨⟨_, lines⟩, -, he⟩ := List.mem_filterMap.1 h
  dsimp only at he
  split at he
  · cases he
  · split at he
    · cases he
    · next hne =>
      cases he
      exact hne

end Comment

/-! ### The stages of an analysis -/

/-- An analysis that succeeds went through all of its stages. -/
theorem stages_of_analyze [CharNames] {options : Options} {diff : String} {a : Analysis}
    (h : analyze options diff = .ok a) :
    ∃ globs lines table, Glob.compileAll options.ignoreFiles = .ok globs ∧
      Diff.addedLines (Glob.anyMatch globs) diff = .ok lines ∧
      Comment.Table.ofOverrides options.addLanguages = .ok table ∧
      a.found = Comment.scan table options.keywords options.multilineComments lines ∧
      groupAll options.grouping a.found = .ok a.ranges := by
  unfold analyze at h
  obtain ⟨globs, hglobs, h⟩ := Except.of_bind_ok h
  obtain ⟨lines, hlines, h⟩ := Except.of_bind_ok h
  obtain ⟨table, htable, h⟩ := Except.of_bind_ok h
  obtain ⟨ranges, hranges, h⟩ := Except.of_bind_ok h
  unfold Analysis.make at h
  split at h
  · cases h
    exact ⟨globs, lines, table, Except.of_mapError_ok hglobs, Except.of_mapError_ok hlines,
      Except.of_mapError_ok htable, rfl, Except.of_mapError_ok hranges⟩
  · cases h

/-! ### Files of a report -/

/-- A file with its matches and the ranges that they make up. -/
structure ReportedFile where
  path : String
  found : List Match
  ranges : List LineRange
deriving Repr, DecidableEq

namespace ReportedFile

/-- The address of a file below `base`. -/
def address (base path : String) : String := base ++ "/" ++ path

/-- The address of the lines from `first` to `last` of a file. -/
def linkTo (base path : String) (first last : Nat) : String :=
  address base path ++
    if first = last then "#L" ++ toString first else "#L" ++ toString first ++ "-L" ++ toString last

/-- The links of a file, each with lines added behind its range. -/
def links (f : ReportedFile) (base : String) (added : Nat) : List String :=
  f.ranges.map fun r => linkTo base f.path r.first (r.last + added)

/-- What a report says about a file: a heading with the number of its matches, and its links. -/
def text (f : ReportedFile) (base : String) (added : Nat) : String :=
  "\n## [`" ++ f.path ++ "`](" ++ address base f.path ++ ") (" ++
    Report.countItems f.found.length ++ "):\n" ++ String.join ((f.links base added).map (· ++ " "))

end ReportedFile

/-- The number of matches in some files. -/
def countAll (files : List ReportedFile) : Nat := files.foldr (fun f sum => f.found.length + sum) 0

/-- A report on an analysis that shows all of its matches: its files are those with matches, the
links of a file cover its matches, and the numbers in the headings add up to the one in the title
and the summary. -/
structure Shows (options : Options) (base : String) (a : Analysis) (r : Report)
    (files : List ReportedFile) : Prop where
  found_eq : a.found = files.map fun f => (f.path, f.found)
  nodup : (files.map ReportedFile.path).Nodup
  found_ne_nil : ∀ f ∈ files, f.found ≠ []
  links_eq : r.links = files.map fun f => (f.path, f.links base options.additionalLines)
  covers : ∀ f ∈ files, Covers options.additionalLines f.found f.ranges
  body_eq : r.body = String.join (files.map fun f => f.text base options.additionalLines)
  title_eq : r.title = Report.titleFor (countAll files)
  summary_eq : r.summary = Report.summaryFor (countAll files)
  total_eq : r.total = countAll files
  found_total : a.total = countAll files

variable {options : Options} {added : Nat} {base : String} {files : List ReportedFile}

/-- A link shows one number if it leads to one line. -/
theorem linkTo_eq_anchor {l : Report.Layout} {r : LineRange} (hn : l.additionalLines = added)
    (hr : r.first ≤ r.last) (path : String) :
    l.fileLink path ++ l.anchor r = ReportedFile.linkTo l.base path r.first (r.last + added) := by
  refine congrArg (ReportedFile.address l.base path ++ ·) ?_
  unfold Report.Layout.anchor LineRange.isSingle
  rw [hn]
  by_cases single : r.first = r.last + added
  · have one : (r.first == r.last && (added : Int) == 0) = true := by
      rw [Bool.and_eq_true, beq_iff_eq, beq_iff_eq]
      omega
    rw [if_pos one, if_pos single]
  · have more : ¬ (r.first == r.last && (added : Int) == 0) = true := by
      rw [Bool.and_eq_true, beq_iff_eq, beq_iff_eq]
      omega
    have shown : Number.showInt ((r.last : Int) + added) = toString (r.last + added) :=
      if_neg (by omega)
    rw [if_neg more, if_neg single, shown]

theorem files_of_groupAll {g : Grouping} {found : Keyed (List Match)}
    {ranges : Keyed (List LineRange)} (h : groupAll g found = .ok ranges) :
    ∃ files : List ReportedFile, found = files.map (fun f => (f.path, f.found)) ∧
      ranges = files.map (fun f => (f.path, f.ranges)) ∧
      ∀ f ∈ files, g.group f.found = .ok f.ranges := by
  have each := Except.forall₂_of_mapM h
  clear h
  induction each with
  | nil => exact ⟨[], rfl, rfl, by simp⟩
  | @cons e out found ranges hfile _ ih =>
    obtain ⟨path, ms⟩ := e
    obtain ⟨rs, hrs, hout⟩ := Except.of_bind_ok hfile
    cases hout
    obtain ⟨files, rfl, rfl, hfiles⟩ := ih
    exact ⟨⟨path, ms, rs⟩ :: files, rfl, rfl, List.forall_mem_cons.2 ⟨hrs, hfiles⟩⟩

/-- The analysis with the matches and the ranges of some files. -/
def analysisOf (files : List ReportedFile) : Analysis :=
  ⟨files.map fun f => (f.path, f.found), files.map fun f => (f.path, f.ranges)⟩

theorem total_analysisOf (files : List ReportedFile) :
    (analysisOf files).total = countAll files := by
  unfold Analysis.total analysisOf
  induction files with
  | nil => rfl
  | cons f files ih =>
    rw [List.map_cons, List.flatMap_cons, List.length_append, ih]
    rfl

theorem counts_analysisOf (files : List ReportedFile) :
    (analysisOf files).counts = files.map fun f => (f.path, (f.found.length : Int)) := by
  unfold Analysis.counts analysisOf Keyed.mapValues
  rw [List.map_map]
  rfl

theorem find?_counts (h : (files.map ReportedFile.path).Nodup) {f : ReportedFile} (hf : f ∈ files) :
    (analysisOf files).counts.find? f.path = some (f.found.length : Int) := by
  rw [counts_analysisOf]
  refine Keyed.find?_of_mem ?_ (List.mem_map.2 ⟨f, hf, rfl⟩)
  rw [Keyed.keys, List.map_map]
  exact h

theorem total_report (files : List ReportedFile) (options : Options) (repository commit : String) :
    ((analysisOf files).report options repository commit).total = countAll files := by
  have sum : ((analysisOf files).report options repository commit).total =
      (analysisOf files).counts.foldr (fun e sum => e.2 + sum) 0 := rfl
  rw [sum, counts_analysisOf]
  induction files with
  | nil => rfl
  | cons f files ih =>
    rw [List.map_cons, List.foldr_cons, ih rfl]
    exact (Int.natCast_add _ _).symm

theorem links_report {repository commit : String}
    (hcovers : ∀ f ∈ files, Covers options.additionalLines f.found f.ranges) :
    ((analysisOf files).report options repository commit).links = files.map fun f =>
      (f.path, f.links (Analysis.layout options repository commit).base
        options.additionalLines) := by
  show List.map _ (List.map _ files) = _
  rw [List.map_map]
  refine List.map_congr_left fun f hf => Prod.ext rfl (List.map_congr_left fun r hr => ?_)
  exact linkTo_eq_anchor rfl ((hcovers f hf).ends r hr).1 f.path

theorem body_report {repository commit : String} (hnodup : (files.map ReportedFile.path).Nodup)
    (hcovers : ∀ f ∈ files, Covers options.additionalLines f.found f.ranges) :
    ((analysisOf files).report options repository commit).body = String.join (files.map fun f =>
      f.text (Analysis.layout options repository commit).base options.additionalLines) := by
  have body : ((analysisOf files).report options repository commit).body =
      String.join (((analysisOf files).report options repository commit).links.map fun e =>
        (Analysis.layout options repository commit).fileSection (analysisOf files).counts e.1
          e.2) := rfl
  rw [body, links_report hcovers, List.map_map]
  refine congrArg String.join (List.map_congr_left fun f hf => ?_)
  have count : ((analysisOf files).counts.find? f.path).getD 0 = f.found.length := by
    rw [find?_counts hnodup hf, Option.getD_some]
  show Report.Layout.fileSection _ _ f.path _ = _
  unfold Report.Layout.fileSection
  rw [count]
  rfl

/-- **A report shows all that an analysis finds**, if its ranges may hold more than one match. -/
theorem shows_report [CharNames] {diff repository commit : String} {a : Analysis} {r : Report}
    (hsplit : options.alwaysSplitSnippets = false) (ha : analyze options diff = .ok a)
    (hr : a.report? options repository commit = .ok r) :
    ∃ globs lines table files, Glob.compileAll options.ignoreFiles = .ok globs ∧
      Diff.addedLines (Glob.anyMatch globs) diff = .ok lines ∧
      Comment.Table.ofOverrides options.addLanguages = .ok table ∧
      a.found = Comment.scan table options.keywords options.multilineComments lines ∧
      Shows options (Analysis.layout options repository commit).base a r files := by
  obtain ⟨globs, lines, table, hglobs, hlines, htable, hfound, hranges⟩ := stages_of_analyze ha
  obtain ⟨files, found_eq, ranges_eq, hfiles⟩ := files_of_groupAll hranges
  have whole : a = analysisOf files := by
    cases a
    exact congrArg₂ Analysis.mk found_eq ranges_eq
  have report : r = a.report options repository commit := by
    unfold Analysis.report? at hr
    split at hr
    · exact (Except.ok.inj hr).symm
    · cases hr
  have nodup : (files.map ReportedFile.path).Nodup := by
    have keys := Comment.nodup_keys_scan table options.keywords options.multilineComments
      (Diff.nodup_keys_addedLines hlines)
    rwa [← hfound, found_eq, Keyed.keys, List.map_map] at keys
  have covers : ∀ f ∈ files, Covers options.additionalLines f.found f.ranges := fun f hf =>
    Grouping.covers_group hsplit rfl (hfiles f hf)
  have total : r.total = countAll files := by rw [report, whole, total_report]
  refine ⟨globs, lines, table, files, hglobs, hlines, htable, hfound, found_eq, nodup,
    fun f hf => ?_, ?_, covers, ?_, ?_, ?_, total, by rw [whole, total_analysisOf]⟩
  · have entry : (f.path, f.found) ∈ a.found := by
      rw [found_eq]
      exact List.mem_map.2 ⟨f, hf, rfl⟩
    rw [hfound] at entry
    exact Comment.ne_nil_of_mem_scan entry
  · rw [report, whole]
    exact links_report covers
  · rw [report, whole]
    exact body_report nodup covers
  · rw [← total, report]
    rfl
  · rw [← total, report]
    rfl

attribute [local instance] CharNames.ascii

/-- A report on two files with a match each, and two more lines behind it. -/
theorem shows_report_two_files :
    let options : Options := { additionalLines := 2 }
    let diff := "+++ b/a.py\n@@ -0,0 +1 @@\n+# todo\n+++ b/b.py\n@@ -0,0 +7 @@\n+# a bug\n"
    ∃ a r, analyze options diff = .ok a ∧ a.report? options "o/r" "c0" = .ok r ∧
      r.links = [("a.py", ["https://github.com/o/r/blob/c0/a.py#L1-L3"]),
        ("b.py", ["https://github.com/o/r/blob/c0/b.py#L7-L9"])] ∧
      ∃ globs lines table files, Glob.compileAll options.ignoreFiles = .ok globs ∧
        Diff.addedLines (Glob.anyMatch globs) diff = .ok lines ∧
        Comment.Table.ofOverrides options.addLanguages = .ok table ∧
        a.found = Comment.scan table options.keywords options.multilineComments lines ∧
        Shows options (Analysis.layout options "o/r" "c0").base a r files := by
  intro options diff
  let a : Analysis := ⟨[("a.py", [⟨"a.py", 1, "# todo"⟩]), ("b.py", [⟨"b.py", 7, "# a bug"⟩])],
    [("a.py", [⟨"a.py", 1, 1⟩]), ("b.py", [⟨"b.py", 7, 7⟩])]⟩
  have ha : analyze options diff = .ok a := by decide +kernel
  have hr : a.report? options "o/r" "c0" = .ok (a.report options "o/r" "c0") := by decide +kernel
  exact ⟨a, a.report options "o/r" "c0", ha, hr, by decide +kernel, shows_report rfl ha hr⟩

end ActionItems
