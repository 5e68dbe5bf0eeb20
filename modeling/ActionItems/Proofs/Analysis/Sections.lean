import ActionItems.Proofs.Analysis.Stages
import ActionItems.Proofs.Diff.Joined
import ActionItems.Proofs.Options.Usability

/-!
# Sections of a diff

A file header ends whatever was read before it: a diff that begins with one may stand behind any
other, and both are read as if each stood alone (`Diff.addedLines_join`). Nothing is carried from
one file to the next by the scan for comments or by the grouping either (`Comment.scan_append`,
`analyze_join`), so the analysis of both together is the analysis of the first followed by that of
the second (`sections_independent`).
-/

namespace ActionItems

variable {options : Options} {a b : String} {patterns : List Pattern.Node}
  {before after : Keyed (List AddedLine)}

/-- Two diffs of different files are analysed one after the other. -/
theorem analyze_join [CharNames] {table : Comment.Table String}
    (hglobs : Glob.compileAll options.ignoreFiles = .ok patterns)
    (htable : Comment.Table.ofOverrides options.addLanguages = .ok table)
    (ha : Diff.addedLines (Glob.anyMatch patterns) a = .ok before)
    (hb : Diff.addedLines (Glob.anyMatch patterns) b = .ok after)
    (hab : Diff.addedLines (Glob.anyMatch patterns) (a ++ "\n" ++ b) = .ok (before ++ after)) :
    ∃ x y, analyze options a = .ok x ∧ analyze options b = .ok y ∧
      analyze options (a ++ "\n" ++ b) = .ok ⟨x.found ++ y.found, x.ranges ++ y.ranges⟩ := by
  obtain ⟨ranges, hranges, hx⟩ := analyze_of_addedLines hglobs ha htable
  obtain ⟨more, hmore, hy⟩ := analyze_of_addedLines hglobs hb htable
  obtain ⟨whole, hwhole, hxy⟩ := analyze_of_addedLines hglobs hab htable
  refine ⟨_, _, hx, hy, ?_⟩
  have joined :
      groupAll options.grouping (Comment.scan table options.keywords options.multilineComments
      (before ++ after)) = .ok (ranges ++ more) := by
    rw [Comment.scan_append]
    exact Except.mapM_append_ok hranges hmore
  rw [joined] at hwhole
  cases hwhole
  rw [hxy, Comment.scan_append]

/-- **The sections of a diff are independent.** The files of a diff that begins with a file header
are put into those of any diff before it, and if the two have no file in common, they are analysed
one after the other. -/
theorem sections_independent [CharNames] {globs : List String}
    (compiled : Glob.compileAll globs = .ok patterns)
    (ha : Diff.addedLines (Glob.anyMatch patterns) a = .ok before)
    (hb : Diff.addedLines (Glob.anyMatch patterns) b = .ok after)
    (header : Diff.fileMark <+: b.toList) :
    ∃ whole, Diff.addedLines (Glob.anyMatch patterns) (a ++ "\n" ++ b) = .ok whole ∧
      whole.keys = before.keys ++ after.keys.filter (· ∉ before.keys) ∧
      (∀ path, whole.find? path = (after.find? path).or (before.find? path)) ∧
      ((∀ path ∈ before.keys, path ∉ after.keys) →
        ∀ raw options, Options.ofValue raw = .ok options → options.ignoreFiles = globs →
          ∃ x y, analyze options a = .ok x ∧ analyze options b = .ok y ∧
            analyze options (a ++ "\n" ++ b) = .ok ⟨x.found ++ y.found, x.ranges ++ y.ranges⟩) := by
  have nodup := Diff.nodup_keys_addedLines hb
  have joined : Diff.addedLines (Glob.anyMatch patterns) (a ++ "\n" ++ b) =
      .ok (before.update after) := by
    rw [Diff.addedLines_join ha header, hb]
    rfl
  refine ⟨_, joined, Keyed.keys_update nodup before, Keyed.find?_update nodup before, ?_⟩
  rintro disjoint raw options read rfl
  obtain ⟨table, htable⟩ := (Options.usable_of_ofValue read).table
  rw [Keyed.update_of_disjoint (Diff.nodup_keys_addedLines ha) nodup disjoint] at joined
  exact analyze_join compiled htable ha hb joined

attribute [local instance] CharNames.ascii

/-- A diff that ends in an ignored file, after a malformed hunk header, and one that goes on in
another file. -/
theorem sections_independent_after_ignored :
    let globs := ["*.txt"]
    let options : Options := { ignoreFiles := globs }
    let raw := Value.object [("ignore_files", .list [.text "*.txt"]), ("notes", .null)]
    let a := "+++ b/a.py\n@@ -0,0 +3 @@\n+# todo\n@@ x\n+++ b/notes.txt\n@@ -0,0 +1,2 @@\n+# todo"
    let b := "+++ b/b.py\n@@ -0,0 +7,2 @@\n+# a bug\n+# fixme"
    let before : Keyed (List AddedLine) := [("a.py", [⟨"a.py", 3, "# todo"⟩])]
    let after : Keyed (List AddedLine) :=
      [("b.py", [⟨"b.py", 7, "# a bug"⟩, ⟨"b.py", 8, "# fixme"⟩])]
    Options.ofValue raw = .ok options ∧ Diff.fileMark <+: b.toList ∧
      ∃ patterns whole, Glob.compileAll globs = .ok patterns ∧
        Diff.addedLines (Glob.anyMatch patterns) a = .ok before ∧
        Diff.addedLines (Glob.anyMatch patterns) b = .ok after ∧
        Diff.addedLines (Glob.anyMatch patterns) (a ++ "\n" ++ b) = .ok whole ∧
        whole.keys = ["a.py", "b.py"] ∧
        ∃ x y, analyze options a = .ok x ∧ analyze options b = .ok y ∧
          analyze options (a ++ "\n" ++ b) = .ok ⟨x.found ++ y.found, x.ranges ++ y.ranges⟩ := by
  intro globs options raw a b before after
  have hread : Options.ofValue raw = .ok options := by decide +kernel
  have header : Diff.fileMark <+: b.toList := by decide
  have compiled : ∃ patterns, Glob.compileAll globs = .ok patterns ∧
      Diff.addedLines (Glob.anyMatch patterns) a = .ok before ∧
      Diff.addedLines (Glob.anyMatch patterns) b = .ok after := by
    refine ⟨_, rfl, ?_, ?_⟩ <;> decide +kernel
  obtain ⟨patterns, hglobs, ha, hb⟩ := compiled
  obtain ⟨whole, hwhole, hkeys, -, analysed⟩ := sections_independent hglobs ha hb header
  have disjoint : ∀ path ∈ before.keys, path ∉ after.keys := by decide
  refine ⟨hread, header, patterns, whole, hglobs, ha, hb, hwhole, hkeys.trans (by decide), ?_⟩
  exact analysed disjoint raw options hread rfl

end ActionItems
