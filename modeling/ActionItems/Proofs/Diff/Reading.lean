import ActionItems.Proofs.Diff.Written
import ActionItems.Proofs.Keyed
import ActionItems.Proofs.Number.Decimal
import Mathlib.Data.List.Basic
import Mathlib.Data.List.Induction

/-!
# Reading the lines of a diff

How `Progress.step` takes the lines that diffs are written with: lines before a file header leave
the files as they are (`step_of_plain`), the header of a section opens its file (`step_fileMark`),
that of a hunk sets the number of the next line (`step_hunkMark`), and an added line is recorded
under it (`step_plus`).

The lines of written diffs come back from their text without the carriage returns at their ends
(`splitLines_joinLines`).
-/

namespace ActionItems.Diff

open ActionItems.Number ActionItems.Text

/-! ### Lines of a text -/

theorem stripEndWhile_prefix_self (p : Char → Bool) (s : List Char) : stripEndWhile p s <+: s := by
  have h : (s.reverse.dropWhile p).reverse <+: s.reverse.reverse :=
    List.reverse_prefix.2 (List.dropWhile_suffix p)
  rwa [List.reverse_reverse] at h

theorem stripEndWhile_eq_self_iff {p : Char → Bool} {s : List Char} :
    stripEndWhile p s = s ↔ ∀ c ∈ s.getLast?, p c = false := by
  rcases List.eq_nil_or_concat s with rfl | ⟨init, c, rfl⟩
  · simp [stripEndWhile_nil]
  · rw [List.concat_eq_append]
    simp only [List.getLast?_concat, Option.mem_some_iff, forall_eq']
    constructor
    · intro h
      by_contra hc
      rw [stripEndWhile_append_of (by simpa using hc)] at h
      have hlen := (stripEndWhile_prefix_self p init).length_le
      rw [h, List.length_append, List.length_singleton] at hlen
      omega
    · exact stripEndWhile_append_of_not

theorem stripEndWhile_append_left {p : Char → Bool} {s : List Char} (hs : ∀ c ∈ s, p c = false)
    (t : List Char) : stripEndWhile p (s ++ t) = s ++ stripEndWhile p t := by
  induction t using List.reverseRecOn with
  | nil =>
    rw [stripEndWhile_nil, List.append_nil, stripEndWhile_eq_self_iff]
    exact fun c hc => hs c (List.mem_of_getLast? hc)
  | append_singleton t c ih =>
    rw [← List.append_assoc]
    cases hc : p c with
    | true => rw [stripEndWhile_append_of hc, stripEndWhile_append_of hc, ih]
    | false =>
      rw [stripEndWhile_append_of_not hc, stripEndWhile_append_of_not hc, List.append_assoc]

theorem dropReturns_prefix_self (line : List Char) : dropReturns line <+: line :=
  stripEndWhile_prefix_self _ line

theorem dropReturns_append {s : List Char} (h : '\r' ∉ s) (t : List Char) :
    dropReturns (s ++ t) = s ++ dropReturns t := by
  refine stripEndWhile_append_left (fun c hc => ?_) t
  rw [beq_eq_false_iff_ne]
  rintro rfl
  exact h hc

theorem dropReturns_cons {c : Char} (h : c ≠ '\r') (t : List Char) :
    dropReturns (c :: t) = c :: dropReturns t := by
  have hc : '\r' ∉ [c] := by simpa using Ne.symm h
  exact dropReturns_append hc t

theorem dropReturns_of_stripEnd {s : List Char} (h : stripEnd s = s) : dropReturns s = s := by
  unfold stripEnd at h
  unfold dropReturns
  rw [stripEndWhile_eq_self_iff] at h ⊢
  intro c hc
  have blank := h c hc
  rw [beq_eq_false_iff_ne]
  rintro rfl
  exact absurd blank (by decide)

/-- The lines of joined lines are these lines, and an empty one after the last ending. -/
theorem splitLines_joinLines {lines : List (List Char)} (h : ∀ line ∈ lines, '\n' ∉ line)
    (ending : Nat → Ending) :
    (splitLines (joinLines ending lines)).map dropReturns = lines.map dropReturns ++ [[]] := by
  induction lines generalizing ending with
  | nil => rfl
  | cons line lines ih =>
    have first : '\n' ∉ line := h line (by simp)
    have rest := ih (fun l hl => h l (by simp [hl])) (fun i => ending (i + 1))
    rw [joinLines]
    cases he : ending 0 with
    | lineFeed =>
      rw [Ending.chars, List.append_assoc, List.singleton_append, splitLines_append_newline,
        splitLines_of_not_mem first, List.map_append, rest]
      rfl
    | returnLineFeed =>
      have first' : '\n' ∉ line ++ ['\r'] := by simp [first]
      rw [Ending.chars, show line ++ ['\r', '\n'] = (line ++ ['\r']) ++ ['\n'] by simp,
        List.append_assoc, List.singleton_append, splitLines_append_newline,
        splitLines_of_not_mem first', List.map_append, rest]
      have drop : dropReturns (line ++ ['\r']) = dropReturns line := stripEndWhile_append_of rfl
      rw [List.map_cons, drop]
      rfl

/-! ### Headers -/

theorem stripStart_cons {c : Char} (h : isBlank c = false) (s : List Char) :
    stripStart (c :: s) = c :: s :=
  List.dropWhile_cons_of_neg (by rw [h]; decide)

theorem headerPath?_of {path : String} (hne : path ≠ "")
    (hend : stripEnd path.toList = path.toList) :
    headerPath? ("b/".toList ++ path.toList) = some path := by
  have hne' : path.toList ≠ [] := fun h => hne (String.toList_inj.1 h)
  have start : stripStart ("b/".toList ++ path.toList) = "b/".toList ++ path.toList :=
    stripStart_cons (by decide) _
  have stop : stripEnd ("b/".toList ++ path.toList) = "b/".toList ++ path.toList := by
    unfold stripEnd at hend ⊢
    rw [stripEndWhile_eq_self_iff] at hend ⊢
    rwa [List.getLast?_append_of_ne_nil _ hne']
  have here : ¬ "b/".toList ++ path.toList = nowhere :=
    fun h => absurd (List.cons.inj h).1 (by decide)
  unfold headerPath? strip
  rw [start, stop]
  simp only [here, if_false, dropStart?_append, Option.getD_some, List.isEmpty_iff, hne',
    String.ofList_toList]

theorem digits?_toDigits {rest : List Char} (n : Nat) (h : ∀ c ∈ rest.head?, isDigit c = false) :
    digits? (Nat.toDigits 10 n ++ rest) = some (Nat.toDigits 10 n, rest) := by
  unfold digits?
  rw [span_isDigit (fun c => isDigit_of_mem_toDigits) h]
  cases hd : Nat.toDigits 10 n with
  | nil => exact absurd hd Nat.toDigits_ne_nil
  | cons c s => rfl

theorem skipLength_toDigits {rest : List Char} (n : Nat) (h : ∀ c ∈ rest.head?, isDigit c = false) :
    skipLength (',' :: (Nat.toDigits 10 n ++ rest)) = rest := by
  unfold skipLength
  simp only [digits?_toDigits n h]

theorem stripStart_space {c : Char} (h : isBlank c = false) (s : List Char) :
    stripStart (' ' :: c :: s) = c :: s := by
  unfold stripStart
  rw [List.dropWhile_cons_of_pos (by decide)]
  exact stripStart_cons h s

theorem mark_append (h : Hunk) (rest : List Char) :
    h.mark ++ rest = hunkMark ++ '-' :: (Nat.toDigits 10 h.oldStart ++ ',' ::
      (Nat.toDigits 10 h.oldLength ++ ' ' :: '+' :: (Nat.toDigits 10 h.start ++ ',' ::
        (Nat.toDigits 10 h.length ++ ' ' :: '@' :: '@' :: rest)))) := by
  unfold Hunk.mark Hunk.range
  simp only [List.append_assoc, List.cons_append]
  rfl

theorem not_mem_mark {c : Char} (hd : c.isDigit = false) (hc : c ∉ "@-+, ".toList) (h : Hunk) :
    c ∉ h.mark := by
  have signs : c ≠ '@' ∧ c ≠ '-' ∧ c ≠ '+' ∧ c ≠ ',' ∧ c ≠ ' ' := by
    simpa [not_or] using hc
  rw [← List.append_nil h.mark, mark_append, show hunkMark = ['@', '@', ' '] by decide]
  simp [signs, not_mem_toDigits hd]

/-- The digits of the start line are found in the header of a hunk, whatever stands behind it. -/
theorem hunkDigits?_mark (h : Hunk) (rest : List Char) :
    hunkDigits? (h.mark ++ rest) = some (Nat.toDigits 10 h.start) := by
  have comma : ∀ (t : List Char), ∀ c ∈ (',' :: t).head?, isDigit c = false := by
    intro t c hc
    obtain rfl : ',' = c := by simpa using hc
    decide
  have space : ∀ (t : List Char), ∀ c ∈ (' ' :: t).head?, isDigit c = false := by
    intro t c hc
    obtain rfl : ' ' = c := by simpa using hc
    decide
  have first : ∀ t, dropStart? "@@".toList (hunkMark ++ t) = some (' ' :: t) := fun t =>
    dropStart?_append ['@', '@'] (' ' :: t)
  have minus : ∀ t, dropStart? "-".toList ('-' :: t) = some t := dropStart?_append ['-']
  have plus : ∀ t, dropStart? "+".toList ('+' :: t) = some t := dropStart?_append ['+']
  have close : dropStart? "@@".toList ('@' :: '@' :: rest) = some rest :=
    dropStart?_append ['@', '@'] rest
  unfold hunkDigits?
  rw [mark_append, first]
  simp only [Option.bind_eq_bind, Option.bind_some,
    stripStart_space (show isBlank '-' = false by decide), minus, digits?_toDigits _ (comma _),
    skipLength_toDigits _ (space _), stripStart_space (show isBlank '+' = false by decide), plus,
    stripStart_space (show isBlank '@' = false by decide), close]
  rfl

/-- **The start of a hunk is read from its header.** -/
theorem hunkStart?_mark {h : Hunk} (hw : h.WellFormed) (rest : List Char) :
    hunkStart? (h.mark ++ rest) = .ok (some h.start) := by
  have pos : ((h.start : Nat) : Int) > 0 := by
    have := hw.start_pos
    omega
  unfold hunkStart?
  rw [hunkDigits?_mark]
  simp only [readInteger_toDigits hw.start_short]
  show Except.ok _ = _
  rw [if_pos pos]
  rfl

/-! ### Lines that are no headers -/

theorem dropStart?_eq_none {start s : List Char} (h : ¬ start <+: s) :
    dropStart? start s = none := by
  rw [Option.eq_none_iff_forall_ne_some]
  intro rest hr
  exact h ⟨rest, (dropStart?_eq_some_iff.1 hr).symm⟩

theorem not_prefix_cons {c d : Char} (h : c ≠ d) (s t : List Char) : ¬ c :: s <+: d :: t := by
  rw [List.cons_prefix_cons]
  exact fun hp => h hp.1

namespace Progress

variable {ignored : String → Bool} {p q r : Progress} {path : String}

theorem count_of_absent {line : List Char} (h : isAbsent line = true) (p : Progress) :
    p.count line = p :=
  if_pos h

theorem count_of_present {line : List Char} (h : isAbsent line = false) (p : Progress) :
    p.count line = { p with line := p.line + 1 } :=
  if_neg (by rw [h]; decide)

theorem isAbsent_cons {c : Char} (h₁ : c ≠ '-') (h₂ : c ≠ '\\') (s : List Char) :
    isAbsent (c :: s) = false := by
  unfold isAbsent
  rw [Bool.or_eq_false_iff, beq_eq_false_iff_ne, beq_eq_false_iff_ne]
  exact ⟨fun h => h₁ (Option.some.inj h), fun h => h₂ (List.cons.inj h).1⟩

/-- A line that is no file header is read and then counted, if the file is not ignored. -/
theorem step_eq_body {line : List Char} (h : dropStart? fileMark line = none)
    (hs : p.skipping = false) :
    p.step ignored line = p.body line >>= fun q => .ok (q.count line) := by
  unfold Progress.step
  rw [h, hs]
  cases p.body line <;> rfl

theorem step_of_skipping {line : List Char} (h : dropStart? fileMark line = none)
    (hs : p.skipping = true) : p.step ignored line = .ok p := by
  unfold Progress.step
  rw [h, hs]
  rfl

theorem step_of_plain (ignored : String → Bool) {line : List Char} (hadd : ¬ ['+'] <+: line)
    (hhunk : ¬ hunkMark <+: line) (p : Progress) :
    p.step ignored line = .ok (if p.skipping then p else p.count line) := by
  have nofile : dropStart? fileMark line = none :=
    dropStart?_eq_none fun h => hadd ((show ['+'] <+: fileMark by decide).trans h)
  have nohunk : hunkMark.isPrefixOf line = false := by
    rw [Bool.eq_false_iff, ne_eq, List.isPrefixOf_iff_prefix]
    exact hhunk
  have body : p.body line = .ok p := by
    unfold Progress.body
    rw [nohunk]
    simp only [Bool.false_eq_true, if_false]
    split
    · exact absurd ⟨_, rfl⟩ hadd
    · rfl
  cases hs : p.skipping with
  | true => rw [step_of_skipping nofile hs, if_pos rfl]
  | false =>
    rw [step_eq_body nofile hs, body, if_neg Bool.false_ne_true]
    rfl

theorem exists_step_of_plain (ignored : String → Bool) {line : List Char} (hadd : ¬ ['+'] <+: line)
    (hhunk : ¬ hunkMark <+: line) (p : Progress) :
    ∃ n, p.step ignored line = .ok { p with line := n } := by
  rw [step_of_plain ignored hadd hhunk]
  by_cases hs : p.skipping = true
  · exact ⟨p.line, congrArg _ (if_pos hs)⟩
  · rw [if_neg hs]
    cases ha : isAbsent line with
    | true => exact ⟨p.line, by rw [count_of_absent ha]⟩
    | false => exact ⟨p.line + 1, by rw [count_of_present ha]⟩

/-- A line of a hunk that adds nothing is neither header nor added line; it counts if the new
version has it. -/
theorem plain_of_added? {line : BodyLine} (h : line.added? = none) :
    ¬ ['+'] <+: dropReturns line.chars ∧ ¬ hunkMark <+: dropReturns line.chars ∧
      isAbsent (dropReturns line.chars) = !line.isNew := by
  cases line with
  | added text => cases h
  | context text =>
    rw [BodyLine.chars, dropReturns_cons (by decide)]
    exact ⟨not_prefix_cons (by decide) _ _, not_prefix_cons (by decide) _ _,
      isAbsent_cons (by decide) (by decide) _⟩
  | removed text =>
    rw [BodyLine.chars, dropReturns_cons (by decide)]
    exact ⟨not_prefix_cons (by decide) _ _, not_prefix_cons (by decide) _ _, rfl⟩
  | noNewline => exact ⟨by decide, by decide, by decide⟩

theorem step_fileMark (p : Progress) (text : List Char) :
    p.step ignored (fileMark ++ text) = .ok (p.openFile ignored text) := by
  unfold Progress.step
  rw [dropStart?_append]

theorem step_hunkMark {text : List Char} {start : Nat} (hs : p.skipping = false)
    (h : hunkStart? (hunkMark ++ text) = .ok (some start)) (hp : 1 ≤ start) :
    p.step ignored (hunkMark ++ text) = .ok { p with inHunk := true, line := start } := by
  have nofile : dropStart? fileMark (hunkMark ++ text) = none :=
    dropStart?_eq_none (not_prefix_cons (by decide) _ _)
  have mark : hunkMark.isPrefixOf (hunkMark ++ text) = true := by
    rw [List.isPrefixOf_iff_prefix]
    exact List.prefix_append _ _
  have present : isAbsent (hunkMark ++ text) = false := isAbsent_cons (by decide) (by decide) _
  have opened : p.body (hunkMark ++ text) = .ok { p with inHunk := true, line := start - 1 } := by
    unfold Progress.body Progress.openHunk
    rw [mark, h]
    rfl
  rw [step_eq_body nofile hs, opened]
  show Except.ok (count _ _) = _
  rw [count_of_present present]
  simp only [Nat.sub_add_cancel hp]

/-- A line with a plus is a file header only if its text continues the mark. -/
theorem dropStart?_plus {text : List Char} (h : ¬ "++ ".toList <+: text) :
    dropStart? fileMark ('+' :: text) = none := by
  refine dropStart?_eq_none fun hp => h ?_
  rw [show fileMark = '+' :: "++ ".toList by decide, List.cons_prefix_cons] at hp
  exact hp.2

theorem body_plus (p : Progress) (text : List Char) :
    p.body ('+' :: text) =
      match p.inHunk, p.current? with
      | true, some path => p.add path text
      | _, _ => .ok p := by
  unfold Progress.body
  have nohunk : hunkMark.isPrefixOf ('+' :: text) = false := by
    rw [Bool.eq_false_iff, ne_eq, List.isPrefixOf_iff_prefix]
    exact not_prefix_cons (by decide) _ _
  rw [nohunk]
  simp only [Bool.false_eq_true, if_false]
  cases p.inHunk <;> cases p.current? <;> rfl

theorem count_plus (p : Progress) (text : List Char) :
    p.count ('+' :: text) = { p with line := p.line + 1 } :=
  count_of_present (isAbsent_cons (by decide) (by decide) text) p

/-- An added line of a hunk is recorded under the number of the line. -/
theorem step_plus {text : List Char} {lines : List AddedLine} (h : ¬ "++ ".toList <+: text)
    (hs : p.skipping = false) (hin : p.inHunk = true) (hc : p.current? = some path)
    (hf : p.files.find? path = some lines) (hpath : path ≠ "") (hline : 1 ≤ p.line) :
    p.step ignored ('+' :: text) =
      .ok { p with
        files := p.files.put path (lines ++ [⟨path, p.line, String.ofList text⟩])
        line := p.line + 1 } := by
  have add : p.body ('+' :: text) = .ok { p with
      files := p.files.put path (lines ++ [⟨path, p.line, String.ofList text⟩]) } := by
    simp only [body_plus, hin, hc, Progress.add, hf, AddedLine.make_ok hline hpath]
  rw [step_eq_body (dropStart?_plus h) hs, add]
  show Except.ok (count _ _) = _
  rw [count_plus]

theorem step_plus_of_not {text : List Char} (h : ¬ "++ ".toList <+: text)
    (hout : p.skipping = true ∨ p.inHunk = false ∨ p.current? = none) :
    ∃ n, p.step ignored ('+' :: text) = .ok { p with line := n } := by
  obtain hs | hs := Bool.eq_false_or_eq_true p.skipping
  · exact ⟨p.line, step_of_skipping (dropStart?_plus h) hs⟩
  have same : p.body ('+' :: text) = .ok p := by
    rw [body_plus]
    rcases hout with h | h | h
    · rw [hs] at h; cases h
    · rw [h]
    · rw [h]; cases p.inHunk <;> rfl
  rw [step_eq_body (dropStart?_plus h) hs, same]
  exact ⟨p.line + 1, congrArg Except.ok (count_plus p text)⟩

end Progress

end ActionItems.Diff
