import ActionItems.Proofs.Report.Ranges
import Mathlib.Data.List.Sort

/-!
# Ranges are runs of lines

The matches of a file have some line numbers, and a run of these (`IsRun`) goes on as long as the
next of them is within reach. Two runs of the same lines are one or lie apart (`IsRun.eq_of_meets`),
so the runs are told by the set of the lines alone. The ranges of a file are the runs of its matches
(`Grouping.mem_group_iff`), and in order there is one way to list them
(`Grouping.group_eq_of_lines`).

If every match is split from the next, each has a range of one line
(`Grouping.group_of_alwaysSplit`).
-/

namespace ActionItems

/-! ### Runs -/

/-- A range goes from one of some lines to another, on its way there is always another of them
within reach, and those outside are out of reach. -/
structure IsRun (reach : Int) (lines : List Nat) (r : LineRange) : Prop where
  order : r.first ≤ r.last
  first : r.first ∈ lines
  last : r.last ∈ lines
  linked : ∀ n, r.first ≤ n → n < r.last → ∃ m ∈ lines, n < m ∧ (m : Int) ≤ n + reach
  before : ∀ m ∈ lines, m < r.first → (m : Int) + reach < r.first
  after : ∀ m ∈ lines, r.last < m → (r.last : Int) + reach < m

namespace IsRun

variable {reach : Int} {lines others : List Nat} {q r : LineRange}

theorem congr (h : IsRun reach lines r) (same : ∀ n, n ∈ lines ↔ n ∈ others) :
    IsRun reach others r where
  order := h.order
  first := (same _).1 h.first
  last := (same _).1 h.last
  linked n hfirst hlast := by
    obtain ⟨m, hm, near⟩ := h.linked n hfirst hlast
    exact ⟨m, (same m).1 hm, near⟩
  before m hm := h.before m ((same m).2 hm)
  after m hm := h.after m ((same m).2 hm)

/-- A place inside a run is within reach of a line before it. -/
theorem exists_before (h : IsRun reach lines r) {n : Nat} (hfirst : r.first < n)
    (hlast : n ≤ r.last) : ∃ m ∈ lines, r.first ≤ m ∧ m < n ∧ (n : Int) ≤ m + reach := by
  -- From a line below the place the links lead upwards, until one of them passes it.
  have climb : ∀ k m, m ∈ lines → r.first ≤ m → m < n → n - m ≤ k →
      ∃ m ∈ lines, r.first ≤ m ∧ m < n ∧ (n : Int) ≤ m + reach := by
    intro k
    induction k with
    | zero =>
      intro m _ _ below close
      omega
    | succ k ih =>
      intro m hm from_first below close
      obtain ⟨next, hnext, above, near⟩ := h.linked m from_first (by omega)
      by_cases passed : n ≤ next
      · exact ⟨m, hm, from_first, below, by omega⟩
      · exact ih next hnext (by omega) (by omega) (by omega)
  exact climb (n - r.first) r.first h.first (Nat.le_refl _) hfirst (Nat.le_refl _)

theorem first_le_of_meets (h : IsRun reach lines r) (h' : IsRun reach lines q)
    (meets : r.first ≤ q.last) : r.first ≤ q.first := by
  by_contra inside
  obtain ⟨m, hm, -, below, near⟩ := h'.exists_before (Nat.lt_of_not_le inside) meets
  have far := h.before m hm below
  omega

theorem last_le_of_meets (h : IsRun reach lines r) (h' : IsRun reach lines q)
    (hfirst : q.first ≤ r.last) : q.last ≤ r.last := by
  by_contra inside
  obtain ⟨m, hm, above, near⟩ := h'.linked r.last hfirst (Nat.lt_of_not_le inside)
  have far := h.after m hm above
  omega

/-- **Runs that meet are the same.** -/
theorem eq_of_meets (h : IsRun reach lines r) (h' : IsRun reach lines q) (file : r.file = q.file)
    (hr : r.first ≤ q.last) (hq : q.first ≤ r.last) : r = q := by
  have first := Nat.le_antisymm (h.first_le_of_meets h' hr) (h'.first_le_of_meets h hq)
  have last := Nat.le_antisymm (h'.last_le_of_meets h hr) (h.last_le_of_meets h' hq)
  cases r
  cases q
  simp_all

end IsRun

namespace Grouping

variable {g : Grouping} {file : String} {found other : List Match} {ranges : List LineRange}

/-! ### Ranges of a file -/

/-- The greatest distance at which two neighbouring lines share a range. -/
def reach (g : Grouping) : Int := max greatestGap (g.additionalLines + 1)

theorem splits_iff (hs : g.alwaysSplit = false) {a b : Nat} :
    g.splits a b = true ↔ (a : Int) + g.reach < b := by
  unfold splits reach greatestGap
  rw [hs, Bool.false_or, Bool.and_eq_true, decide_eq_true_eq, decide_eq_true_eq]
  omega

/-- The numbers of the lines with matches. -/
def linesOf (found : List Match) : List Nat := found.map Match.line

theorem mem_linesOf {n : Nat} : n ∈ linesOf found ↔ ∃ m ∈ found, m.line = n := List.mem_map

/-- In a group of neighbours within reach, any place before the end is within reach of a line behind
it. -/
theorem linked_of_isChain (hs : g.alwaysSplit = false) {group : List Match} (hne : group ≠ [])
    (chain : group.IsChain fun a b => !g.splits a.line b.line) {n : Nat}
    (hfirst : (group.head hne).line ≤ n) (hlast : n < (group.getLast hne).line) :
    ∃ m ∈ linesOf group, n < m ∧ (m : Int) ≤ n + g.reach := by
  induction group with
  | nil => exact absurd rfl hne
  | cons a group ih =>
    cases group with
    | nil => exact absurd hlast (Nat.not_lt_of_le hfirst)
    | cons b group =>
      rw [List.isChain_cons_cons, Bool.not_eq_true', ← Bool.not_eq_true, splits_iff hs] at chain
      rw [List.head_cons] at hfirst
      by_cases reached : n < b.line
      · exact ⟨b.line, by simp [linesOf], reached, by omega⟩
      · obtain ⟨m, hm, near⟩ := ih (List.cons_ne_nil _ _) chain.2 (Nat.le_of_not_lt reached) hlast
        exact ⟨m, List.mem_cons_of_mem _ hm, near⟩

/-- Every match is in a group, or out of reach before it or behind it. -/
theorem mem_or_apart (hs : g.alwaysSplit = false) {group : List Match}
    (hgroup : group ∈ g.groups found) {m : Match} (hm : m ∈ found) :
    m ∈ group ∨ (∀ a ∈ group, (m.line : Int) + g.reach < a.line) ∨
      ∀ a ∈ group, (a.line : Int) + g.reach < m.line := by
  have least : 3 ≤ g.reach := Int.le_max_left _ _
  have apart := apart_groups (n := (g.reach - 1).toNat) (fun a b hsplits => by
    have far := (splits_iff hs).1 hsplits
    omega) found
  obtain ⟨before, after, hgroups⟩ := List.append_of_mem hgroup
  rw [hgroups, List.pairwise_append, List.pairwise_cons] at apart
  obtain ⟨-, ⟨behind, -⟩, ahead⟩ := apart
  rw [← mem_sorted, ← flatten_groups g, hgroups, List.flatten_append, List.flatten_cons,
    List.mem_append, List.mem_append] at hm
  rcases hm with hm | hm | hm
  · obtain ⟨earlier, hearlier, hm⟩ := List.mem_flatten.1 hm
    refine .inr (.inl fun a ha => ?_)
    have far := ahead earlier hearlier group List.mem_cons_self m hm a ha
    omega
  · exact .inl hm
  · obtain ⟨later, hlater, hm⟩ := List.mem_flatten.1 hm
    refine .inr (.inr fun a ha => ?_)
    have far := behind later hlater a ha m hm
    omega

/-- **The span of every group is a run.** -/
theorem isRun_span (hs : g.alwaysSplit = false) {group : List Match}
    (hgroup : group ∈ g.groups found) : IsRun g.reach (linesOf found) (span group) := by
  have hne := ne_nil_of_mem_groups hgroup
  have bounds {m : Match} (hm : m ∈ group) := span_bounds (groups_pairwise g found group hgroup) hm
  have members : ∀ m ∈ group, m.line ∈ linesOf found := fun m hm => by
    refine List.mem_map_of_mem ?_
    rw [← mem_sorted, ← flatten_groups g]
    exact List.mem_flatten_of_mem hgroup hm
  obtain ⟨⟨a, ha, hfirst⟩, ⟨b, hb, hlast⟩⟩ := span_ends hne
  refine ⟨?_, hfirst ▸ members a ha, hlast ▸ members b hb, fun n hn hn' => ?_, fun n hn below => ?_,
    fun n hn above => ?_⟩
  · exact Nat.le_trans (bounds ha).1 (bounds ha).2
  · rw [span, List.head?_eq_some_head hne] at hn
    rw [span, List.getLast?_eq_some_getLast hne] at hn'
    obtain ⟨n, hmem, near⟩ := linked_of_isChain hs hne (List.isChain_of_mem_splitBy hgroup) hn hn'
    obtain ⟨m, hm, rfl⟩ := mem_linesOf.1 hmem
    exact ⟨m.line, members m hm, near⟩
  · obtain ⟨m, hm, rfl⟩ := mem_linesOf.1 hn
    rcases mem_or_apart hs hgroup hm with hm | ahead | behind
    · exact absurd below (Nat.not_lt_of_le (bounds hm).1)
    · exact hfirst ▸ ahead a ha
    · have far := behind a ha
      have least : 3 ≤ g.reach := Int.le_max_left _ _
      omega
  · obtain ⟨m, hm, rfl⟩ := mem_linesOf.1 hn
    rcases mem_or_apart hs hgroup hm with hm | ahead | behind
    · exact absurd above (Nat.not_lt_of_le (bounds hm).2)
    · have far := ahead b hb
      have least : 3 ≤ g.reach := Int.le_max_left _ _
      omega
    · exact hlast ▸ behind b hb

/-- **The ranges of a file are the runs of its matches.** -/
theorem mem_group_iff (hs : g.alwaysSplit = false) (hfile : ∀ m ∈ found, m.file = file)
    (h : g.group found = .ok ranges) {r : LineRange} :
    r ∈ ranges ↔ r.file = file ∧ IsRun g.reach (linesOf found) r := by
  obtain rfl := eq_map_span h
  have files : ∀ group ∈ g.groups found, (span group).file = file := fun group hgroup => by
    have hne := ne_nil_of_mem_groups hgroup
    rw [span, List.head?_eq_some_head hne]
    refine hfile _ ?_
    rw [← mem_sorted, ← flatten_groups g]
    exact List.mem_flatten_of_mem hgroup (List.head_mem hne)
  constructor
  · intro hr
    obtain ⟨group, hgroup, rfl⟩ := List.mem_map.1 hr
    exact ⟨files group hgroup, isRun_span hs hgroup⟩
  · rintro ⟨file_eq, run⟩
    -- The run meets the span of the group that its first match is in.
    obtain ⟨m, hm, hfirst⟩ := mem_linesOf.1 run.first
    obtain ⟨group, hgroup, hmem⟩ : ∃ group ∈ g.groups found, m ∈ group := by
      rw [← List.mem_flatten, flatten_groups, mem_sorted]
      exact hm
    obtain ⟨lower, upper⟩ := span_bounds (groups_pairwise g found group hgroup) hmem
    rw [hfirst] at lower upper
    rw [run.eq_of_meets (isRun_span hs hgroup) (file_eq.trans (files group hgroup).symm) upper
      (Nat.le_trans lower run.order)]
    exact List.mem_map_of_mem hgroup

theorem ascending_group (hs : g.alwaysSplit = false) (h : g.group found = .ok ranges) :
    ranges.Pairwise fun r later => r.last < later.first := by
  obtain rfl := eq_map_span h
  have apart := apart_groups (g := g) (n := 0) (fun a b hsplits => by
    have far := (splits_iff hs).1 hsplits
    have least : 3 ≤ g.reach := Int.le_max_left _ _
    omega) found
  rw [List.pairwise_map]
  refine apart.imp_of_mem fun {group later} hgroup hlater far => ?_
  obtain ⟨-, b, hb, hlast⟩ := span_ends (ne_nil_of_mem_groups hgroup)
  obtain ⟨⟨a, ha, hfirst⟩, -⟩ := span_ends (ne_nil_of_mem_groups hlater)
  have := far b hb a ha
  omega

/-- **The ranges depend on the lines with matches alone**, not on their order or on how often they
come. -/
theorem group_eq_of_lines (hs : g.alwaysSplit = false) (hfile : ∀ m ∈ found, m.file = file)
    (hother : ∀ m ∈ other, m.file = file) (h : g.group found = .ok ranges)
    (same : ∀ n, n ∈ linesOf other ↔ n ∈ linesOf found) (hpos : ∀ m ∈ other, 1 ≤ m.line) :
    g.group other = .ok ranges := by
  obtain ⟨ranges', h'⟩ := g.exists_group hpos
  rw [h']
  refine congrArg Except.ok ?_
  let Before (r later : LineRange) : Prop := r.first < later.first
  have : Std.Irrefl Before := ⟨fun r => Nat.lt_irrefl r.first⟩
  have : Std.Antisymm Before := ⟨fun _ _ h h' => absurd h' (Nat.lt_asymm h)⟩
  have ordered {found : List Match} {ranges : List LineRange} (hfile : ∀ m ∈ found, m.file = file)
      (h : g.group found = .ok ranges) : ranges.Pairwise Before :=
    (ascending_group hs h).imp_of_mem fun {r _} hr _ ascends =>
      Nat.lt_of_le_of_lt ((mem_group_iff hs hfile h).1 hr).2.order ascends
  refine (ordered hother h').eq_of_mem_iff (ordered hfile h) fun r => ?_
  rw [mem_group_iff hs hother h', mem_group_iff hs hfile h]
  exact and_congr_right fun _ =>
    ⟨fun run => run.congr same, fun run => run.congr fun n => (same n).symm⟩

/-! ### Ranges of one line -/

/-- If every match is split from the next, each is a group. -/
theorem groups_of_alwaysSplit (hs : g.alwaysSplit = true) (found : List Match) :
    g.groups found = (sorted found).map fun m => [m] := by
  unfold groups
  rw [List.splitBy_eq_iff]
  refine ⟨?_, by simp, by simp, ?_⟩
  · rw [← List.flatMap_def, List.flatMap_singleton']
  · rw [List.isChain_map]
    refine (sorted_pairwise found).isChain.imp fun a b _ => ⟨by simp, by simp, ?_⟩
    simp [splits, hs]

/-- **If every match is split from the next, each has a range of its line**, in the order of the
lines. -/
theorem group_of_alwaysSplit (hs : g.alwaysSplit = true) (hfile : ∀ m ∈ found, m.file = file)
    (hpos : ∀ m ∈ found, 1 ≤ m.line) :
    g.group found = .ok ((linesOf (sorted found)).map fun n => ⟨file, n, n⟩) := by
  obtain ⟨ranges, h⟩ := g.exists_group hpos
  rw [h, eq_map_span h, groups_of_alwaysSplit hs, linesOf, List.map_map, List.map_map]
  refine congrArg Except.ok (List.map_congr_left fun m hm => ?_)
  exact congrArg (LineRange.mk · m.line m.line) (hfile m (mem_sorted.1 hm))

end Grouping

/-! ### Partitions -/

/-- Ranges part the matches of a file where two neighbours are further apart than `reach`. -/
structure Partitions (reach : Int) (file : String) (found : List Match) (ranges : List LineRange) :
    Prop where
  /-- The ranges ascend, and no two of them have a line in common. -/
  ascending : ranges.Pairwise fun r later => r.last < later.first
  /-- A range begins and ends with a match. -/
  ends : ∀ r ∈ ranges, r.file = file ∧ r.first ≤ r.last ∧ (∃ m ∈ found, m.line = r.first) ∧
    ∃ m ∈ found, m.line = r.last
  /-- Every match lies in exactly one range. -/
  covered : ∀ m ∈ found, ranges.countP (·.contains m.line) = 1
  /-- Neighbours share a range if and only if they are within reach. -/
  shared : ∀ a ∈ found, ∀ b ∈ found, a.line < b.line →
    (∀ c ∈ found, ¬ (a.line < c.line ∧ c.line < b.line)) →
      ((∃ r ∈ ranges, r.contains a.line = true ∧ r.contains b.line = true) ↔
        (b.line : Int) - a.line ≤ reach)

namespace Grouping

variable {g : Grouping} {file : String} {found : List Match} {ranges : List LineRange}

theorem exists_contains (h : g.group found = .ok ranges) {m : Match} (hm : m ∈ found) :
    ∃ r ∈ ranges, r.contains m.line = true := by
  obtain rfl := eq_map_span h
  obtain ⟨group, hgroup, hmem⟩ : ∃ group ∈ g.groups found, m ∈ group := by
    rw [← List.mem_flatten, flatten_groups, mem_sorted]
    exact hm
  exact ⟨span group, List.mem_map_of_mem hgroup,
    LineRange.contains_iff.2 (span_bounds (groups_pairwise g found group hgroup) hmem)⟩

/-- Neighbours share a range if and only if they are within reach. -/
theorem shared_iff (hs : g.alwaysSplit = false) (hfile : ∀ m ∈ found, m.file = file)
    (h : g.group found = .ok ranges) {a b : Match} (ha : a ∈ found) (hb : b ∈ found)
    (below : a.line < b.line) (neighbours : ∀ c ∈ found, ¬ (a.line < c.line ∧ c.line < b.line)) :
    (∃ r ∈ ranges, r.contains a.line = true ∧ r.contains b.line = true) ↔
      (b.line : Int) - a.line ≤ g.reach := by
  constructor
  · rintro ⟨r, hr, hra, hrb⟩
    rw [LineRange.contains_iff] at hra hrb
    obtain ⟨-, run⟩ := (mem_group_iff hs hfile h).1 hr
    -- The next line of the run after `a` is `b` at the earliest.
    obtain ⟨n, hn, above, near⟩ := run.linked a.line hra.1 (by omega)
    obtain ⟨c, hc, rfl⟩ := mem_linesOf.1 hn
    have := neighbours c hc
    omega
  · intro near
    obtain ⟨r, hr, hra⟩ := exists_contains h ha
    refine ⟨r, hr, hra, ?_⟩
    rw [LineRange.contains_iff] at hra ⊢
    obtain ⟨-, run⟩ := (mem_group_iff hs hfile h).1 hr
    refine ⟨by omega, ?_⟩
    by_contra beyond
    have far := run.after b.line (mem_linesOf.2 ⟨b, hb, rfl⟩) (Nat.lt_of_not_le beyond)
    omega

theorem partitions_group (hs : g.alwaysSplit = false) (hfile : ∀ m ∈ found, m.file = file)
    (h : g.group found = .ok ranges) : Partitions g.reach file found ranges where
  ascending := ascending_group hs h
  ends r hr := by
    obtain ⟨file_eq, run⟩ := (mem_group_iff hs hfile h).1 hr
    exact ⟨file_eq, run.order, mem_linesOf.1 run.first, mem_linesOf.1 run.last⟩
  covered m hm := by
    obtain ⟨r, hr, hrm⟩ := exists_contains h hm
    refine countP_eq_one hr hrm ((ascending_group hs h).imp fun ascends both => ?_)
    rw [LineRange.contains_iff, LineRange.contains_iff] at both
    omega
  shared _ ha _ hb := shared_iff hs hfile h ha hb

/-- **Grouping parts the lines of a file.** Matches of one file, in any order, are parted where two
neighbours are more than three lines apart and more than the added lines and one; all matches on the
same lines are parted alike. If every two are split, each match has a range of its line, in
ascending order. -/
theorem group_partitions (g : Grouping) (hfile : ∀ m ∈ found, m.file = file)
    (hpos : ∀ m ∈ found, 1 ≤ m.line) :
    (g.alwaysSplit = false → ∃ ranges, g.group found = .ok ranges ∧
      Partitions (max 3 (g.additionalLines + 1)) file found ranges ∧
      ∀ other : List Match, (∀ m ∈ other, m.file = file) →
        (∀ n, (∃ m ∈ other, m.line = n) ↔ ∃ m ∈ found, m.line = n) → g.group other = .ok ranges) ∧
    (g.alwaysSplit = true → ∃ lines : List Nat, lines.Perm (found.map Match.line) ∧
      lines.Pairwise (· ≤ ·) ∧ g.group found = .ok (lines.map fun n => ⟨file, n, n⟩)) := by
  constructor
  · intro hs
    obtain ⟨ranges, h⟩ := g.exists_group hpos
    refine ⟨ranges, h, partitions_group hs hfile h, fun other hother same => ?_⟩
    have same : ∀ n, n ∈ linesOf other ↔ n ∈ linesOf found := fun n => by
      rw [mem_linesOf, mem_linesOf]
      exact same n
    refine group_eq_of_lines hs hfile hother h same fun m hm => ?_
    obtain ⟨m', hm', hline⟩ := mem_linesOf.1 ((same m.line).1 (mem_linesOf.2 ⟨m, hm, rfl⟩))
    exact hline ▸ hpos m' hm'
  · intro hs
    refine ⟨linesOf (sorted found), (List.mergeSort_perm found _).map _, ?_,
      group_of_alwaysSplit hs hfile hpos⟩
    exact List.pairwise_map.2 (sorted_pairwise found)

/-- Six matches on five lines, out of order: with four added lines, the lines 3, 8 and 9 share a
range. -/
theorem group_partitions_padded :
    let found : List Match :=
      [⟨"f", 9, "c"⟩, ⟨"f", 3, "a"⟩, ⟨"f", 20, "d"⟩, ⟨"f", 8, "b"⟩, ⟨"f", 9, "c"⟩, ⟨"f", 15, "e"⟩]
    let g : Grouping := { additionalLines := 4 }
    (∀ m ∈ found, m.file = "f") ∧ (∀ m ∈ found, 1 ≤ m.line) ∧
      g.group found = .ok [⟨"f", 3, 9⟩, ⟨"f", 15, 20⟩] ∧
      Partitions 5 "f" found [⟨"f", 3, 9⟩, ⟨"f", 15, 20⟩] := by
  intro found g
  have hfile : ∀ m ∈ found, m.file = "f" := by decide
  have hpos : ∀ m ∈ found, 1 ≤ m.line := by decide
  have order : sorted found =
      [⟨"f", 3, "a"⟩, ⟨"f", 8, "b"⟩, ⟨"f", 9, "c"⟩, ⟨"f", 9, "c"⟩, ⟨"f", 15, "e"⟩,
        ⟨"f", 20, "d"⟩] := by
    simp [found, sorted, List.mergeSort]
  have h : g.group found = .ok [⟨"f", 3, 9⟩, ⟨"f", 15, 20⟩] := by
    rw [group, groups, order]
    decide +kernel
  obtain ⟨ranges, h', partitions, -⟩ := (group_partitions g hfile hpos).1 rfl
  obtain rfl := Except.ok.inj (h.symm.trans h')
  exact ⟨hfile, hpos, h, partitions⟩

end Grouping

end ActionItems
