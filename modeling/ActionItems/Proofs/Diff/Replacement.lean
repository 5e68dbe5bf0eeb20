import ActionItems.Proofs.Diff.Files
import ActionItems.Proofs.Diff.Retexted

/-!
# Replacing the text of an added line

What is read of a diff when the text of one of its added lines is replaced. A text that does not
read as a file header leaves everything else as it was (`agree_of_splitLines`); a text that does
makes the file of the line lose at least this line (`linesIn_lt`). So among written diffs the shape
of what is read stays the same exactly if the new text does not read as a file header
(`addedLines_replace`).

A `Spot` is the place of an added line in the sections of a diff. The second half counts the lines
of its file: each line that is read adds one at most (`Reads.linesIn_le`), and after a line that was
taken for a file header the rest of the hunk adds none (`reads_body_outside`).
-/

namespace ActionItems.Diff

open ActionItems.Number ActionItems.Text

/-! ### The place of a line -/

/-- The place of an added line: the sections before its own, its section as far as the hunks before
its own, its hunk as far as the lines before it, and the lines, the hunks and the sections behind
it. -/
structure Spot where
  before : List Section
  here : Section
  hunk : Hunk
  rest : List BodyLine
  hunks : List Hunk
  after : List Section

namespace Spot

/-- The hunk of the place with a text in it. -/
def fillHunk (s : Spot) (text : String) : Hunk :=
  { s.hunk with body := s.hunk.body ++ .added text :: s.rest }

/-- The section of the place with a text in it. -/
def fillSection (s : Spot) (text : String) : Section :=
  { s.here with hunks := s.here.hunks ++ s.fillHunk text :: s.hunks }

/-- The sections with a text in the place. -/
def fill (s : Spot) (text : String) : List Section := s.before ++ s.fillSection text :: s.after

/-- The lines before the place. -/
def linesBefore (s : Spot) : List (List Char) :=
  s.before.flatMap Section.lines ++ (s.here.lines ++ s.hunk.lines)

/-- The lines behind the place. -/
def linesAfter (s : Spot) : List (List Char) :=
  s.rest.map BodyLine.chars ++ (s.hunks.flatMap Hunk.lines ++ s.after.flatMap Section.lines)

theorem lines_fill (s : Spot) (text : String) :
    (s.fill text).flatMap Section.lines =
      s.linesBefore ++ ('+' :: text.toList) :: s.linesAfter := by
  have hunk : (s.fillHunk text).lines =
      s.hunk.lines ++ ('+' :: text.toList) :: s.rest.map BodyLine.chars := by
    unfold fillHunk Hunk.lines
    rw [List.map_append, List.map_cons]
    rfl
  have here : (s.fillSection text).lines = s.here.lines ++ (s.hunk.lines ++
      ('+' :: text.toList) :: (s.rest.map BodyLine.chars ++ s.hunks.flatMap Hunk.lines)) := by
    unfold fillSection Section.lines
    rw [List.flatMap_append, List.flatMap_cons, hunk]
    simp only [List.append_assoc, List.cons_append]
    rfl
  unfold fill linesBefore linesAfter
  rw [List.flatMap_append, List.flatMap_cons, here]
  simp only [List.append_assoc, List.cons_append]

variable {ignored : String → Bool} {s : Spot} {t u : String}

theorem lines_write (hw : WellFormed ignored (s.fill t)) (hu : IsLine u) (ending : Nat → Ending) :
    (splitLines (write ending (s.fill u)).toList).map dropReturns =
      s.linesBefore.map dropReturns ++ ('+' :: dropReturns u.toList) ::
        (s.linesAfter.map dropReturns ++ [[]]) := by
  have others : ∀ line ∈ (s.fill t).flatMap Section.lines, '\n' ∉ line := by
    intro line hline
    obtain ⟨x, hx, hline⟩ := List.mem_flatMap.1 hline
    exact (hw.each x hx).not_mem line hline
  rw [lines_fill] at others
  have plain : ∀ line ∈ (s.fill u).flatMap Section.lines, '\n' ∉ line := by
    intro line hline
    rw [lines_fill] at hline
    rcases List.mem_append.1 hline with hline | hline
    · exact others line (List.mem_append_left _ hline)
    rcases List.mem_cons.1 hline with rfl | hline
    · exact List.not_mem_cons_of_ne_of_not_mem (by decide) hu
    · exact others line (List.mem_append_right _ (List.mem_cons_of_mem _ hline))
  rw [write, String.toList_ofList, splitLines_joinLines plain, lines_fill, List.map_append,
    List.map_cons, dropReturns_cons (by decide), List.append_assoc]
  rfl

end Spot

/-! ### Counting the lines of a file -/

theorem length_numbered (path : String) (start : Nat) (body : List BodyLine) :
    (numbered path start body).length = body.countP fun line => line.added?.isSome := by
  induction body generalizing start with
  | nil => rfl
  | cons line body ih =>
    rw [numbered_cons, List.length_append, ih, List.countP_cons]
    cases line with
    | added text => exact Nat.add_comm _ _
    | context text => exact Nat.zero_add _
    | removed text => exact Nat.zero_add _
    | noNewline => exact Nat.zero_add _

/-- The number of added lines of a file. -/
def linesIn (path : String) (files : Keyed (List AddedLine)) : Nat :=
  ((files.find? path).getD []).length

theorem linesIn_put (path key : String) (lines : List AddedLine) (files : Keyed (List AddedLine)) :
    linesIn path (files.put key lines) = if key =
      path then lines.length else linesIn path files := by
  unfold linesIn
  split
  · next h => rw [h, Keyed.find?_put_self]; rfl
  · next h => rw [Keyed.find?_put_of_ne h]

theorem linesIn_of_shape {files files' : Keyed (List AddedLine)} (h : shape files = shape files')
    (path : String) : linesIn path files = linesIn path files' := by
  have key : ∀ files : Keyed (List AddedLine),
      linesIn path files = (((shape files).find? path).getD []).length := by
    intro files
    unfold linesIn shape Keyed.mapValues
    induction files with
    | nil => rfl
    | cons e files ih =>
      rw [List.map_cons, Keyed.find?, Keyed.find?]
      split
      · exact (List.length_map _).symm
      · exact ih
  rw [key, key, h]

/-- Whether a line has a plus. -/
def isPlus (line : List Char) : Bool := line.head? == some '+'

/-- A change adds one line to a file at most, and none without a plus. -/
theorem Changes.linesIn_le {line : List Char} {files files' : Keyed (List AddedLine)}
    (h : Changes line files files') (path : String) :
    linesIn path files' ≤ linesIn path files + if isPlus line then 1 else 0 := by
  cases h with
  | leave => exact Nat.le_add_right _ _
  | enter opened =>
    rw [linesIn_put]
    split
    · exact Nat.zero_le _
    · exact Nat.le_add_right _ _
  | record added plus found =>
    rw [linesIn_put]
    split
    · next same =>
      rw [← same, linesIn, found, List.length_append, isPlus, plus]
      exact Nat.le_refl _
    · exact Nat.le_add_right _ _

namespace Progress

variable {ignored : String → Bool} {p q : Progress}

/-- **Lines add as many lines to a file at most as there are pluses.** -/
theorem Reads.linesIn_le {lines : List (List Char)} (h : Reads ignored p lines q) (path : String) :
    linesIn path q.files ≤ linesIn path p.files + lines.countP isPlus := by
  -- what the file has, with a line for each plus to come, never grows
  refine h.invariant (I := fun rest b => linesIn path b.files + rest.countP isPlus ≤
    linesIn path p.files + lines.countP isPlus) ?_ (Nat.le_refl _)
  intro line rest a b bound hstep
  have first := (changes_of_step hstep).linesIn_le path
  rw [List.countP_cons] at bound
  omega

/-- While no hunk is open, the lines of a hunk change nothing but the number of the next line. -/
theorem reads_body_outside (ignored : String → Bool) {body : List BodyLine} (hin : p.inHunk = false)
    (hbody : ∀ line ∈ body, line.NoHeader) :
    ∃ n, Reads ignored p (body.map fun line => dropReturns line.chars) { p with line := n } := by
  induction body generalizing p with
  | nil => exact ⟨p.line, .nil p⟩
  | cons line body ih =>
    have first : ∃ n, p.step ignored (dropReturns line.chars) = .ok { p with line := n } := by
      cases ha : line.added? with
      | some text =>
        obtain rfl := BodyLine.added?_eq_some_iff.1 ha
        rw [BodyLine.chars, dropReturns_cons (by decide)]
        exact step_plus_of_not (fun h => hbody _ (by simp) text ha
          (h.trans (dropReturns_prefix_self _))) (.inr (.inl hin))
      | none => exact exists_step_of_plain ignored (plain_of_added? ha).1 (plain_of_added? ha).2.1 p
    obtain ⟨n, hn⟩ := first
    obtain ⟨m, hm⟩ := @ih { p with line := n } hin (fun l hl => hbody l (by simp [hl]))
    exact ⟨m, .cons hn hm⟩

end Progress

/-! ### Lines with a plus -/

theorem isPlus_chars (line : BodyLine) : isPlus (dropReturns line.chars) = line.added?.isSome := by
  cases line with
  | noNewline => decide
  | _ => rw [BodyLine.chars, dropReturns_cons (by decide)]; rfl

theorem countP_isPlus_lines (path : String) (h : Hunk) :
    (h.lines.map dropReturns).countP isPlus = (h.addedLines path).length := by
  have header : isPlus (dropReturns h.header) = false := by
    unfold Hunk.header
    rw [mark_append, dropReturns_append (by decide)]
    rfl
  unfold Hunk.lines Hunk.addedLines
  rw [List.map_cons, List.countP_cons_of_neg (by rw [header]; decide), List.map_map,
    List.countP_map, length_numbered]
  exact List.countP_congr fun line _ => by
    rw [Function.comp_apply, Function.comp_apply, isPlus_chars]

theorem countP_isPlus_hunks (path : String) (hunks : List Hunk) :
    ((hunks.flatMap Hunk.lines).map dropReturns).countP isPlus =
      (hunks.flatMap (Hunk.addedLines path)).length := by
  induction hunks with
  | nil => rfl
  | cons h hunks ih =>
    rw [List.flatMap_cons, List.map_append, List.countP_append, List.flatMap_cons,
      List.length_append, ih, countP_isPlus_lines path]

/-! ### Texts that read as headers -/

namespace Spot

variable {ignored : String → Bool} {s : Spot} {t u : String}

theorem wellFormed (hw : WellFormed ignored (s.fill t)) :
    (∀ x ∈ s.before, x.WellFormed) ∧ s.here.WellFormed ∧ s.hunk.WellFormed ∧
      (∀ h ∈ s.hunks, h.WellFormed) ∧ ∀ x ∈ s.after, x.WellFormed := by
  have own : (s.fillSection t).WellFormed := hw.each _ (by simp [fill])
  have hunk : (s.fillHunk t).WellFormed := own.hunks _ (by simp [fillSection])
  refine ⟨fun x hx => hw.each x (by simp [fill, hx]), ?_, ?_, fun h hh => own.hunks h ?_,
    fun x hx => hw.each x (by simp [fill, hx])⟩
  · exact ⟨own.preamble, own.path_ne, own.path_line, own.path_end,
      fun h hh => own.hunks h (by simp [fillSection, hh])⟩
  · exact ⟨hunk.start_pos, hunk.start_short, hunk.heading,
      fun line hl => hunk.body line (by simp [fillHunk, hl])⟩
  · simp [fillSection, hh]

theorem mem_bodyLines (line : BodyLine) : line ∈ bodyLines (s.fill t) ↔
    line ∈ bodyLines s.before ∨ line ∈ s.here.hunks.flatMap Hunk.body ∨ line ∈ s.hunk.body ∨
      line = .added t ∨ line ∈ s.rest ∨ line ∈ s.hunks.flatMap Hunk.body ∨
      line ∈ bodyLines s.after := by
  simp only [bodyLines, fill, fillSection, fillHunk, List.flatMap_append, List.flatMap_cons,
    List.mem_append, List.mem_cons, or_assoc]

theorem path_not_mem (hw : WellFormed ignored (s.fill t)) :
    s.here.path ∉ s.before.map Section.path ∧ s.here.path ∉ s.after.map Section.path := by
  have nodup := hw.nodup
  rw [fill, List.map_append, List.map_cons, List.nodup_append, List.nodup_cons] at nodup
  exact ⟨fun h => nodup.2.2 _ h _ (by simp [fillSection]) rfl, nodup.2.1.1⟩

theorem reads_linesBefore (hw : WellFormed ignored (s.fill t))
    (hbody : ∀ line ∈ bodyLines (s.fill t), line.NoHeader) :
    ∃ (p : Progress) (table : Keyed (List AddedLine)),
      Progress.Reads ignored {} (s.linesBefore.map dropReturns) p ∧
      p.AtFile table s.here.path
        (s.here.addedLines.map trimReturns ++ (s.hunk.addedLines s.here.path).map trimReturns) := by
  obtain ⟨wbefore, where_, whunk, -, -⟩ := wellFormed hw
  simp only [mem_bodyLines] at hbody
  obtain ⟨p, hp, -⟩ := Progress.reads_sections wbefore (fun x hx => hw.kept x (by simp [fill, hx]))
    (fun line h => hbody line (.inl h)) {}
  obtain ⟨q, hq, hat⟩ := Progress.reads_section where_ (hw.kept (s.fillSection t) (by simp [fill]))
    (fun line h => hbody line (.inr (.inl h))) p
  obtain ⟨r, hr, hat'⟩ := Progress.reads_hunk ignored whunk hat where_.path_ne
    (fun line h => hbody line (.inr (.inr (.inl h))))
  refine ⟨r, p.files, ?_, hat'⟩
  unfold linesBefore
  rw [List.map_append, List.map_append]
  exact hp.append (hq.append hr)

theorem addedLines_fillSection (s : Spot) (text : String) :
    (s.fillSection text).addedLines = s.here.addedLines ++
      ((s.fillHunk text).addedLines s.here.path ++ s.hunks.flatMap
        (Hunk.addedLines s.here.path)) := by
  show (s.here.hunks ++ s.fillHunk text :: s.hunks).flatMap (Hunk.addedLines s.here.path) = _
  rw [List.flatMap_append, List.flatMap_cons]
  rfl

theorem linesIn_fill (hw : WellFormed ignored (s.fill t)) :
    linesIn s.here.path ((s.fill t).map fun x => (x.path, x.addedLines.map trimReturns)) =
      s.here.addedLines.length + (s.hunk.addedLines s.here.path).length +
        (1 + s.rest.countP fun line => line.added?.isSome) +
        (s.hunks.flatMap (Hunk.addedLines s.here.path)).length := by
  have new :
      s.here.path ∉ Keyed.keys (s.before.map fun x => (x.path, x.addedLines.map trimReturns)) := by
    unfold Keyed.keys
    rw [List.map_map]
    exact (path_not_mem hw).1
  have found := Keyed.find?_append_cons new ((s.fillSection t).addedLines.map trimReturns)
    (s.after.map fun x => (x.path, x.addedLines.map trimReturns))
  have hunk : ((s.fillHunk t).addedLines s.here.path).length =
      (s.hunk.addedLines s.here.path).length +
        (1 + s.rest.countP fun line => line.added?.isSome) := by
    unfold Hunk.addedLines fillHunk
    rw [length_numbered, length_numbered, List.countP_append, List.countP_cons]
    exact congrArg _ (Nat.add_comm _ _)
  unfold linesIn fill
  rw [List.map_append, List.map_cons]
  show (Option.getD (Keyed.find? _ (_ ++ (s.here.path, _) :: _)) []).length = _
  rw [found, Option.getD_some, List.length_map, addedLines_fillSection, List.length_append,
    List.length_append, hunk]
  omega

/-- While no hunk is open, the lines behind the place add those of the other hunks to its file at
most. -/
theorem linesIn_linesAfter (hw : WellFormed ignored (s.fill t))
    (hbody : ∀ line ∈ bodyLines (s.fill t), line.NoHeader) {p r : Progress} (hin : p.inHunk = false)
    (hr : Progress.Reads ignored p (s.linesAfter.map dropReturns ++ [[]]) r) :
    linesIn s.here.path r.files ≤
      linesIn s.here.path p.files + (s.hunks.flatMap (Hunk.addedLines s.here.path)).length := by
  simp only [mem_bodyLines] at hbody
  unfold linesAfter at hr
  rw [List.map_append, List.map_append, List.map_map, List.append_assoc, List.append_assoc] at hr
  -- the rest of the hunk
  obtain ⟨n, hrest⟩ := Progress.reads_body_outside ignored hin
    (fun line hl => hbody line (.inr (.inr (.inr (.inr (.inl hl))))))
  obtain ⟨q₁, hq₁, hr⟩ := hr.of_append
  obtain rfl := hrest.unique hq₁
  -- the other hunks
  obtain ⟨q₂, hq₂, hr⟩ := hr.of_append
  have hunks := hq₂.linesIn_le s.here.path
  rw [countP_isPlus_hunks s.here.path] at hunks
  -- the other sections, which are of other files
  obtain ⟨q₃, hq₃, hr⟩ := hr.of_append
  obtain ⟨q₃', hq₃', files⟩ := Progress.reads_sections (wellFormed hw).2.2.2.2
    (fun x hx => hw.kept x (by simp [fill, hx])) (fun line hl => hbody line (by simp [hl])) q₂
  obtain rfl := hq₃.unique hq₃'
  have others : linesIn s.here.path q₃.files = linesIn s.here.path q₂.files := by
    unfold linesIn
    rw [files, Keyed.find?_update_of_not_mem]
    unfold Keyed.keys
    rw [List.map_map]
    exact (path_not_mem hw).2
  calc linesIn s.here.path r.files ≤ linesIn s.here.path q₃.files := hr.linesIn_le s.here.path
    _ = linesIn s.here.path q₂.files := others
    _ ≤ _ := hunks

/-- **A text that reads as a file header loses lines**: fewer are found in the file of the place. -/
theorem linesIn_lt (hw : WellFormed ignored (s.fill t))
    (hbody : ∀ line ∈ bodyLines (s.fill t), line.NoHeader) (hline : IsLine u) (hu : ReadsAsHeader u)
    {ending : Nat → Ending} {files : Keyed (List AddedLine)}
    (h : addedLines ignored (write ending (s.fill u)) = .ok files) :
    linesIn s.here.path files <
      linesIn s.here.path ((s.fill t).map fun x => (x.path, x.addedLines.map trimReturns)) := by
  obtain ⟨r, hr, rfl⟩ := Progress.reads_of_addedLines h
  rw [lines_write hw hline] at hr
  obtain ⟨p, table, hp, hat⟩ := reads_linesBefore hw hbody
  obtain ⟨p', hp', hr⟩ := hr.of_append
  obtain rfl := hp.unique hp'
  -- the line of the place is taken for a file header
  obtain ⟨q, hq, hr⟩ := hr.of_cons
  obtain ⟨text, htext⟩ := hu
  have header : '+' :: dropReturns u.toList = fileMark ++ dropReturns text := by
    rw [← htext, dropReturns_append (by decide)]
    rfl
  rw [header, Progress.step_fileMark] at hq
  obtain rfl := Except.ok.inj hq
  have hle : linesIn s.here.path (p.openFile ignored (dropReturns text)).files ≤
      linesIn s.here.path p.files :=
    (Progress.changes_openFile ignored p (dropReturns text) []).linesIn_le s.here.path
  have hafter :=
    linesIn_linesAfter hw hbody (Progress.inHunk_openFile ignored p (dropReturns text)) hr
  have found : linesIn s.here.path p.files =
      s.here.addedLines.length + (s.hunk.addedLines s.here.path).length := by
    rw [linesIn, hat.find?, Option.getD_some, List.length_append, List.length_map, List.length_map]
  rw [linesIn_fill hw]
  omega

end Spot

/-! ### Replaced texts -/

/-- A text that does not read as a file header leaves the shape of what is read as it was. -/
theorem Spot.shape_fill {ignored : String → Bool} {s : Spot} {t u : String}
    (hw : WellFormed ignored (s.fill t)) (ht : ¬ ReadsAsHeader t) (hline : IsLine u)
    (hu : ¬ ReadsAsHeader u) (ending : Nat → Ending) :
    (addedLines ignored (write ending (s.fill u))).map shape =
      (addedLines ignored (write ending (s.fill t))).map shape := by
  have own : BodyLine.added t ∈ (s.fillHunk t).body := by simp [fillHunk]
  have old : IsLine t :=
    ((hw.each (s.fillSection t) (by simp [fill])).hunks (s.fillHunk t) (by simp [fillSection])).body
      _ own
  have agree := agree_of_map_splitLines ignored (lines_write hw old ending)
    (lines_write hw hline ending) (fun h => ht (h.trans (dropReturns_prefix_self _)))
    (fun h => hu (h.trans (dropReturns_prefix_self _)))
  exact agree.map_eq fun _ _ h => h.shape_eq

/-- **Replacing the text of an added line.** In any diff, a text with which the line is no file
header can be replaced by another such text: what is read differs in this text at most. In a
well-formed diff without added lines that look like file headers, what is read keeps its shape under
exactly these replacements. -/
theorem addedLines_replace (ignored : String → Bool) :
    (∀ (diff diff' : String) (before after : List (List Char)) (t u : List Char),
      splitLines diff.toList = before ++ ('+' :: t) :: after →
      splitLines diff'.toList = before ++ ('+' :: u) :: after →
      ¬ "++ ".toList <+: t → ¬ "++ ".toList <+: u →
      Agree (Retexted (String.ofList (dropReturns t)) (String.ofList (dropReturns u)))
        (addedLines ignored diff) (addedLines ignored diff')) ∧
    ∀ (ending : Nat → Ending) (s : Spot) (t u : String), WellFormed ignored (s.fill t) →
      (∀ line ∈ bodyLines (s.fill t), line.NoHeader) → IsLine u →
      ((addedLines ignored (write ending (s.fill u))).map shape =
          (addedLines ignored (write ending (s.fill t))).map shape ↔
        ¬ ReadsAsHeader u) := by
  refine ⟨fun diff diff' before after t u => agree_of_splitLines,
    fun ending s t u hw hbody hline => ?_⟩
  constructor
  · intro same hu
    rw [addedLines_write_trim hw hbody ending] at same
    cases hr : addedLines ignored (write ending (s.fill u)) with
    | error e => rw [hr] at same; cases same
    | ok files =>
      rw [hr] at same
      have fewer := Spot.linesIn_lt hw hbody hline hu hr
      rw [linesIn_of_shape (Except.ok.inj same)] at fewer
      exact absurd fewer (Nat.lt_irrefl _)
  · intro hu
    have ht : ¬ ReadsAsHeader t := hbody (.added t) ((Spot.mem_bodyLines _).2 (by simp)) t rfl
    exact Spot.shape_fill hw ht hline hu ending

/-- In a hunk of three added lines the middle one may become any line but a file header, with which
the lines from it on are lost. -/
theorem addedLines_replace_middle :
    let spot : Spot := ⟨[], ⟨["--- /dev/null"], "f.py", []⟩, ⟨0, 0, 1, 3, "", [.added "a"]⟩,
      [.added "c"], [], []⟩
    WellFormed (fun _ => false) (spot.fill "b") ∧
      (addedLines (fun _ => false) (write (fun _ => .lineFeed) (spot.fill "# TODO"))).map shape =
        .ok [("f.py", [1, 2, 3])] ∧
      (addedLines (fun _ => false) (write (fun _ => .lineFeed) (spot.fill "++ x"))).map shape ≠
        .ok [("f.py", [1, 2, 3])] ∧
      Agree (Retexted "b" "d")
        (addedLines (fun _ => false) "+++ f\n@@ -0,0 +7 @@\n+b\n+++ /dev/null\n")
        (addedLines (fun _ => false) "+++ f\n@@ -0,0 +7 @@\n+d\n+++ /dev/null\n") := by
  intro spot
  have hw : WellFormed (fun _ => false) (spot.fill "b") := by
    refine ⟨?_, by decide, by decide⟩
    intro x hx
    obtain rfl := List.mem_singleton.1 hx
    refine ⟨?_, by decide, by decide, by decide, ?_⟩
    · intro text ht
      obtain rfl := List.mem_singleton.1 ht
      exact ⟨by decide, by decide, by decide⟩
    · intro h hh
      obtain rfl := List.mem_singleton.1 hh
      exact ⟨by decide, by decide, by decide, by decide⟩
  have original :
      (addedLines (fun _ => false) (write (fun _ => .lineFeed) (spot.fill "b"))).map shape =
      .ok [("f.py", [1, 2, 3])] := by decide
  obtain ⟨anywhere, written⟩ := addedLines_replace fun _ => false
  refine ⟨hw, ?_, ?_, ?_⟩
  · rw [← original]
    exact (written _ spot "b" "# TODO" hw (by decide) (by decide)).2 (by decide)
  · rw [← original]
    exact fun same => (written _ spot "b" "++ x" hw (by decide) (by decide)).1 same (by decide)
  · have agree := anywhere "+++ f\n@@ -0,0 +7 @@\n+b\n+++ /dev/null\n"
      "+++ f\n@@ -0,0 +7 @@\n+d\n+++ /dev/null\n" ["+++ f".toList, "@@ -0,0 +7 @@".toList]
      ["+++ /dev/null".toList, []] ['b'] ['d'] (by decide) (by decide) (by decide) (by decide)
    rwa [show String.ofList (dropReturns ['b']) = "b" by decide,
      show String.ofList (dropReturns ['d']) = "d" by decide] at agree

end ActionItems.Diff
