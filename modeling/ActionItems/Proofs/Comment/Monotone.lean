import ActionItems.Proofs.Analysis.Stages
import ActionItems.Proofs.Comment.Blocks
import ActionItems.Proofs.Keyword.Occurrence
import ActionItems.Proofs.Report.Coverage

/-!
# A wider search finds more

A search is widened by letting blocks span lines, by looking for more keywords or by not minding
their case (`Search.Widens`). Two such searches go along a file abreast (`Search.Abreast`): either
both have a block open at the same lines, or the narrower one never has. So a line that the narrower
search finds is found by the wider one (`Search.Widens.finds`), and the matches of a file are some
of those that the wider search reports, in the same order (`reported_sublist`).
-/

namespace ActionItems.Comment

namespace Search

variable {s s' : Search} {inBlock inBlock' : Bool}

/-- A search for no less in the same kind of file. -/
structure Widens (s s' : Search) : Prop where
  grammar : s'.grammar = s.grammar
  multiline : s.multiline = true → s'.multiline = true
  keywords : ∀ text, s.keywords.occurIn text = true → s'.keywords.occurIn text = true

/-- How two searches stand at the same line: with the same blocks open, or the first one without any
at all. -/
def Abreast (s s' : Search) (inBlock inBlock' : Bool) : Prop :=
  (s'.multiline = s.multiline ∧ inBlock' = inBlock) ∨ (s.multiline = false ∧ inBlock = false)

/-- At the first line of a file no search has an open block. -/
theorem Widens.abreast_start (w : Widens s s') : Abreast s s' false false := by
  cases hm : s.multiline with
  | true => exact .inl ⟨(w.multiline hm).trans hm.symm, rfl⟩
  | false => exact .inr ⟨hm, rfl⟩

theorem Widens.beginsBlock (w : Widens s s') (text : List Char) :
    s'.beginsBlock text = s.beginsBlock text := by
  unfold Search.beginsBlock
  rw [w.grammar]

/-- What belongs to a comment for the narrower search does so for the wider one. -/
theorem Widens.isComment (w : Widens s s') (h : Abreast s s' inBlock inBlock') {text : List Char}
    (comment : s.isComment inBlock text = true) : s'.isComment inBlock' text = true := by
  unfold Search.isComment isOpen at comment ⊢
  rw [w.grammar, w.beginsBlock]
  obtain ⟨hm, rfl⟩ | ⟨hm, rfl⟩ := h
  · rw [hm]
    exact comment
  · rw [hm, Bool.false_and, Bool.or_false, Bool.or_false] at comment
    rw [comment, Bool.true_or]

/-- **A line that is found** is found by a wider search. -/
theorem Widens.finds (w : Widens s s') (h : Abreast s s' inBlock inBlock') {text : List Char}
    (found : s.finds inBlock text = true) : s'.finds inBlock' text = true := by
  unfold Search.finds at found ⊢
  rw [Bool.and_eq_true] at found ⊢
  exact ⟨w.isComment h found.1, w.keywords text found.2⟩

/-- **After a line two searches are abreast again**: which keywords are looked for makes no
difference to the blocks. -/
theorem Widens.abreast_next (w : Widens s s') (h : Abreast s s' inBlock inBlock')
    (text : List Char) : Abreast s s' (s.stillOpen inBlock text) (s'.stillOpen inBlock' text) := by
  obtain ⟨hm, rfl⟩ | ⟨hm, rfl⟩ := h
  · refine .inl ⟨hm, ?_⟩
    unfold stillOpen isOpen closes
    rw [hm, w.grammar, w.beginsBlock]
  · refine .inr ⟨hm, ?_⟩
    rw [stillOpen, hm, Bool.false_and, Bool.false_and]

/-- **The matches of a scan** are among those of a wider one, in the same order. -/
theorem Widens.scanLines_sublist (w : Widens s s') (h : Abreast s s' inBlock inBlock')
    (lines : List AddedLine) :
    (s.scanLines inBlock lines).Sublist (s'.scanLines inBlock' lines) := by
  induction lines generalizing inBlock inBlock' with
  | nil => exact .slnil
  | cons l later ih =>
    have next := ih (w.abreast_next h (trimmed l))
    show (if s.finds inBlock (trimmed l) then l.toMatch :: s.scanLines
        (s.stillOpen inBlock (trimmed l)) later
        else s.scanLines (s.stillOpen inBlock (trimmed l)) later).Sublist
      (if s'.finds inBlock' (trimmed l) then l.toMatch :: s'.scanLines
        (s'.stillOpen inBlock' (trimmed l)) later
        else s'.scanLines (s'.stillOpen inBlock' (trimmed l)) later)
    by_cases found : s.finds inBlock (trimmed l) = true
    · rw [if_pos found, if_pos (w.finds h found)]
      exact next.cons_cons l.toMatch
    · rw [if_neg found]
      split
      · exact next.cons l.toMatch
      · exact next

end Search

/-! ### Files -/

/-- The matches that are reported for a file. -/
def reported (found : Keyed (List Match)) (path : String) : List Match := (found.find? path).getD []

theorem mem_scan_iff {table : Table String} {keywords : Keywords} {multiline : Bool}
    {files : Keyed (List AddedLine)} {path : String} {found : List Match} :
    (path, found) ∈ scan table keywords multiline files ↔
      ∃ lines grammar, (path, lines) ∈ files ∧ table.resolve (fileExtension path) = some grammar ∧
        Search.scanLines ⟨grammar, keywords, multiline⟩ false lines = found ∧ found ≠ [] := by
  rw [scan, List.mem_filterMap]
  constructor
  · rintro ⟨⟨_, lines⟩, mem, h⟩
    dsimp only at h
    split at h
    · cases h
    · next grammar resolved =>
      split at h
      · cases h
      · next nonempty =>
        cases h
        exact ⟨lines, grammar, mem, resolved, rfl, nonempty⟩
  · rintro ⟨lines, grammar, mem, resolved, rfl, nonempty⟩
    refine ⟨(path, lines), mem, ?_⟩
    dsimp only
    rw [resolved]
    dsimp only
    split
    · next empty => exact absurd empty nonempty
    · rfl

/-- **A wider search reports more**: blocks that span lines, keywords in any case and further
keywords leave every match of a file in its place among the others. -/
theorem reported_sublist (table : Table String) {files : Keyed (List AddedLine)}
    (paths : files.keys.Nodup) {words words' : List String} (more : words ⊆ words')
    {caseSensitive caseSensitive' : Bool} (case : caseSensitive' = true → caseSensitive = true)
    {multiline multiline' : Bool} (blocks : multiline = true → multiline' = true) (path : String) :
    (reported (scan table (.ofList words caseSensitive) multiline files) path).Sublist
      (reported (scan table (.ofList words' caseSensitive') multiline' files) path) := by
  unfold reported
  cases before : (scan table (.ofList words caseSensitive) multiline files).find? path with
  | none => exact List.nil_sublist _
  | some found =>
    obtain ⟨lines, grammar, mem, resolved, rfl, nonempty⟩ :=
      mem_scan_iff.1 (Keyed.mem_of_find? before)
    have wider : Search.Widens ⟨grammar, .ofList words caseSensitive, multiline⟩
        ⟨grammar, .ofList words' caseSensitive', multiline'⟩ :=
      ⟨rfl, blocks, fun _ => Keywords.occurIn_mono more case⟩
    have sublist := wider.scanLines_sublist wider.abreast_start lines
    have nonempty' : Search.scanLines ⟨grammar, .ofList words' caseSensitive', multiline'⟩ false
        lines ≠ [] := by
      intro empty
      rw [empty, List.sublist_nil] at sublist
      exact nonempty sublist
    have after : (scan table (.ofList words' caseSensitive') multiline' files).find? path =
        some _ :=
      Keyed.find?_of_mem (nodup_keys_scan table _ _ paths)
        (mem_scan_iff.2 ⟨lines, grammar, mem, resolved, rfl, nonempty'⟩)
    rw [after]
    exact sublist

/-- All three changes at once: a line in a block, one with another case and one with another keyword
are added. -/
theorem reported_sublist_block :
    let line (n : Nat) (text : String) : AddedLine := ⟨"src/a.js", n, text⟩
    let files : Keyed (List AddedLine) := [("src/a.js",
      [line 1 "/* Todo:", line 2 "TODO x", line 3 "FIXME */", line 4 "// TODO"])]
    let narrow := scan Table.standard (.ofList ["TODO"] true) false files
    let wide := scan Table.standard (.ofList ["fixme", "TODO"] false) true files
    files.keys.Nodup ∧ ["TODO"] ⊆ ["fixme", "TODO"] ∧
      (reported narrow "src/a.js").map Match.line = [4] ∧
      (reported wide "src/a.js").map Match.line = [1, 2, 3, 4] ∧
      (reported narrow "src/a.js").Sublist (reported wide "src/a.js") := by
  intro line files narrow wide
  have paths : files.keys.Nodup := by decide
  have more : ["TODO"] ⊆ ["fixme", "TODO"] := by decide
  refine ⟨paths, more, by decide +kernel, by decide +kernel, ?_⟩
  exact reported_sublist Table.standard paths more (by decide) (by decide) "src/a.js"

end ActionItems.Comment
