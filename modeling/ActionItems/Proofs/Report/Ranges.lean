import ActionItems.Proofs.Except
import ActionItems.Report.Grouping
import Mathlib.Data.List.Chain
import Mathlib.Data.List.SplitBy

/-!
# What the ranges of a file cover

The matches of a file, put in order, are cut where two neighbours are too far apart. A line of a
later part lies behind every line of an earlier one, with the lines that a report adds after a range
and at least one more between them (`Grouping.apart_groups`). A range spans every part
(`Grouping.eq_map_span`, `Grouping.exists_group`), so with the added lines the ranges are disjoint
and every match lies in exactly one of them (`covers_group`).
-/

namespace ActionItems

/-- What the ranges of a file with some matches cover when `added` lines come after each. -/
structure Covers (added : Nat) (found : List Match) (ranges : List LineRange) : Prop where
  /-- The ranges ascend, and with their added lines they leave at least one line between two of
  them. -/
  apart : ranges.Pairwise fun r later => r.last + added + 1 < later.first
  /-- Every match lies in exactly one range with its added lines. -/
  covered : ∀ m ∈ found, ranges.countP
    (fun r => decide (r.first ≤ m.line ∧ m.line ≤ r.last + added)) = 1
  /-- A range begins with a match and, without the added lines, ends with one. -/
  ends : ∀ r ∈ ranges, r.first ≤ r.last ∧ (∃ m ∈ found, m.line = r.first) ∧
    ∃ m ∈ found, m.line = r.last

namespace Grouping

variable {g : Grouping} {n : Nat} {found : List Match} {ranges : List LineRange}

/-! ### Groups of matches -/

/-- Whether every match of a group, with the lines added after it, ends at least a line before
another group begins. -/
def Apart (n : Nat) (group later : List Match) : Prop :=
  ∀ a ∈ group, ∀ b ∈ later, a.line + n + 1 < b.line

theorem sorted_pairwise (found : List Match) :
    (sorted found).Pairwise fun a b => a.line ≤ b.line := by
  have trans : ∀ a b c : Match, decide (a.line ≤ b.line) → decide (b.line ≤ c.line) →
      decide (a.line ≤ c.line) := by
    intro a b c hab hbc
    simp only [decide_eq_true_eq] at *
    exact Nat.le_trans hab hbc
  have total : ∀ a b : Match, decide (a.line ≤ b.line) || decide (b.line ≤ a.line) := by
    intro a b
    simpa using Nat.le_total a.line b.line
  have sorted := List.pairwise_mergeSort trans total found
  exact sorted.imp of_decide_eq_true

theorem mem_sorted {m : Match} : m ∈ sorted found ↔ m ∈ found :=
  (List.mergeSort_perm found _).mem_iff

theorem flatten_groups (g : Grouping) (found : List Match) :
    (g.groups found).flatten = sorted found :=
  List.flatten_splitBy _ _

theorem ne_nil_of_mem_groups {group : List Match} (h : group ∈ g.groups found) : group ≠ [] :=
  List.ne_nil_of_mem_splitBy h

theorem groups_pairwise (g : Grouping) (found : List Match) :
    ∀ group ∈ g.groups found, group.Pairwise fun a b => a.line ≤ b.line := by
  have parts := sorted_pairwise found
  rw [← flatten_groups g, List.pairwise_flatten] at parts
  exact parts.1

/-- Lines that are split leave room for the added lines and one more. -/
theorem lt_of_splits {first second : Nat} (hs : g.alwaysSplit = false) (hn : g.additionalLines = n)
    (h : g.splits first second = true) : first + n + 1 < second := by
  unfold splits at h
  rw [hs, hn, Bool.false_or, Bool.and_eq_true, decide_eq_true_eq, decide_eq_true_eq] at h
  omega

/-- **The groups of a file are apart**, whatever lies between them, as far as lines that are split
are. -/
theorem apart_groups (hsplits : ∀ a b : Nat, g.splits a b = true → a + n + 1 < b)
    (found : List Match) : (g.groups found).Pairwise (Apart n) := by
  -- apartness alone is not transitive: a group without matches would be apart from every other
  let Next (group later : List Match) : Prop := group ≠ [] ∧ later ≠ [] ∧ Apart n group later
  have trans : ∀ a b c, Next a b → Next b c → Next a c := by
    rintro a b c ⟨ha, hb, hab⟩ ⟨-, hc, hbc⟩
    obtain ⟨m, hm⟩ := List.exists_mem_of_ne_nil b hb
    refine ⟨ha, hc, fun x hx y hy => ?_⟩
    have := hab x hx m hm
    have := hbc m hm y hy
    omega
  have : Trans Next Next Next := ⟨trans _ _ _⟩
  have chain : (g.groups found).IsChain Next := by
    refine (List.isChain_getLast_head_splitBy _ (sorted found)).imp_of_mem_imp ?_
    rintro a b ha hb ⟨hane, hbne, split⟩
    rw [Bool.not_eq_false'] at split
    refine ⟨hane, hbne, fun x hx y hy => ?_⟩
    have upto : x.line ≤ (a.getLast hane).line :=
      (groups_pairwise g found a ha).rel_getLast_of_rel_getLast_getLast hx (Nat.le_refl _)
    have onward : (b.head hbne).line ≤ y.line :=
      (groups_pairwise g found b hb).rel_head_of_rel_head_head hy (Nat.le_refl _)
    have gap := hsplits _ _ split
    omega
  exact chain.pairwise.imp fun h => h.2.2

/-! ### Groups and ranges -/

/-- The range from the first match of a group to the last. -/
def span (group : List Match) : LineRange :=
  ⟨group.head?.elim "" Match.file, group.head?.elim 0 Match.line, group.getLast?.elim 0 Match.line⟩

theorem rangeOf?_of_ne_nil {group : List Match} (hne : group ≠ []) :
    rangeOf? group =
      some (LineRange.make (span group).file (span group).first (span group).last) := by
  unfold rangeOf? span
  rw [List.head?_eq_some_head hne, List.getLast?_eq_some_getLast hne]
  rfl

theorem eq_of_make {file : String} {first last : Nat} {r : LineRange}
    (h : LineRange.make file first last = .ok r) : r = ⟨file, first, last⟩ := by
  unfold LineRange.make at h
  split at h
  · cases h
  · split at h
    · cases h
    · exact (Except.ok.inj h).symm

/-- **The ranges of a file are the spans of its groups.** -/
theorem eq_map_span (h : g.group found = .ok ranges) : ranges = (g.groups found).map span := by
  have made : (g.groups found).filterMap rangeOf? =
      (g.groups found).map fun group =>
        LineRange.make (span group).file (span group).first (span group).last := by
    rw [← List.filterMap_eq_map]
    exact List.filterMap_congr fun group hgroup => rangeOf?_of_ne_nil (ne_nil_of_mem_groups hgroup)
  unfold group at h
  rw [made] at h
  have each := List.forall₂_map_left_iff.1 (Except.forall₂_of_mapM h)
  have spans : List.Forall₂ (fun group r => span group = r) (g.groups found) ranges :=
    each.imp fun group r hr => (eq_of_make hr).symm
  rw [← List.forall₂_map_left_iff (f := span), List.forall₂_eq_eq_eq] at spans
  exact spans.symm

theorem span_bounds {group : List Match} (sorted : group.Pairwise fun a b => a.line ≤ b.line)
    {m : Match} (hm : m ∈ group) : (span group).first ≤ m.line ∧ m.line ≤ (span group).last := by
  have hne := List.ne_nil_of_mem hm
  unfold span
  rw [List.head?_eq_some_head hne, List.getLast?_eq_some_getLast hne]
  exact ⟨sorted.rel_head_of_rel_head_head hm (Nat.le_refl _),
    sorted.rel_getLast_of_rel_getLast_getLast hm (Nat.le_refl _)⟩

theorem span_ends {group : List Match} (hne : group ≠ []) :
    (∃ m ∈ group, m.line = (span group).first) ∧ ∃ m ∈ group, m.line = (span group).last := by
  unfold span
  rw [List.head?_eq_some_head hne, List.getLast?_eq_some_getLast hne]
  exact ⟨⟨group.head hne, List.head_mem hne, rfl⟩, ⟨group.getLast hne, List.getLast_mem hne, rfl⟩⟩

/-- **Matches on lines with positive numbers are parted into ranges.** -/
theorem exists_group (g : Grouping) {found : List Match} (h : ∀ m ∈ found, 1 ≤ m.line) :
    ∃ ranges, g.group found = .ok ranges := by
  refine Except.exists_mapM fun made hmade => ?_
  obtain ⟨group, hgroup, hrange⟩ := List.mem_filterMap.1 hmade
  have hne := ne_nil_of_mem_groups hgroup
  rw [rangeOf?_of_ne_nil hne] at hrange
  cases hrange
  obtain ⟨⟨m, hm, hfirst⟩, -⟩ := span_ends hne
  have bounds := span_bounds (groups_pairwise g found group hgroup) hm
  have there : m ∈ found := by
    rw [← mem_sorted, ← flatten_groups g]
    exact List.mem_flatten_of_mem hgroup hm
  exact ⟨_, LineRange.make_ok (hfirst ▸ h m there) (Nat.le_trans bounds.1 bounds.2)⟩

/-- Of facts that exclude each other, one that holds is the only one. -/
theorem countP_eq_one {α : Type} {p : α → Bool} {l : List α} {a : α} (ha : a ∈ l) (hp : p a = true)
    (exclusive : l.Pairwise fun b c => ¬ (p b = true ∧ p c = true)) : l.countP p = 1 := by
  induction l with
  | nil => cases ha
  | cons b l ih =>
    rw [List.pairwise_cons] at exclusive
    by_cases hb : p b = true
    · have none : l.countP p = 0 := List.countP_eq_zero.2 fun c hc hpc => exclusive.1 c hc ⟨hb, hpc⟩
      rw [List.countP_cons_of_pos hb, none]
    · rw [List.countP_cons_of_neg hb]
      rcases List.mem_cons.1 ha with rfl | ha
      · exact absurd hp hb
      · exact ih ha exclusive.2

/-- **The ranges of a file cover each of its matches once**, with the lines added after them. -/
theorem covers_group (hs : g.alwaysSplit = false) (hn : g.additionalLines = n)
    (h : g.group found = .ok ranges) : Covers n found ranges := by
  obtain rfl := eq_map_span h
  have sorted := groups_pairwise g found
  have members : ∀ group ∈ g.groups found, ∀ m ∈ group, m ∈ found := by
    intro group hgroup m hm
    rw [← mem_sorted, ← flatten_groups g]
    exact List.mem_flatten_of_mem hgroup hm
  have apart : ((g.groups found).map span).Pairwise
      fun r later => r.last + n + 1 < later.first := by
    rw [List.pairwise_map]
    refine (apart_groups (fun _ _ => lt_of_splits hs hn) found).imp_of_mem fun {group later} hgroup
      hlater far => ?_
    obtain ⟨-, b, hb, hlast⟩ := span_ends (ne_nil_of_mem_groups hgroup)
    obtain ⟨⟨a, ha, hfirst⟩, -⟩ := span_ends (ne_nil_of_mem_groups hlater)
    rw [← hlast, ← hfirst]
    exact far b hb a ha
  refine ⟨apart, fun m hm => ?_, fun r hr => ?_⟩
  · obtain ⟨group, hgroup, hmem⟩ : ∃ group ∈ g.groups found, m ∈ group := by
      rw [← List.mem_flatten, flatten_groups, mem_sorted]
      exact hm
    obtain ⟨lower, upper⟩ := span_bounds (sorted group hgroup) hmem
    refine countP_eq_one (List.mem_map_of_mem hgroup) (decide_eq_true ⟨lower, by omega⟩) ?_
    refine apart.imp fun far both => ?_
    simp only [decide_eq_true_eq] at both
    omega
  · obtain ⟨group, hgroup, rfl⟩ := List.mem_map.1 hr
    obtain ⟨⟨a, ha, hfirst⟩, ⟨b, hb, hlast⟩⟩ := span_ends (ne_nil_of_mem_groups hgroup)
    have order := span_bounds (sorted group hgroup) ha
    exact ⟨by omega, ⟨a, members group hgroup a ha, hfirst⟩, ⟨b, members group hgroup b hb, hlast⟩⟩

end Grouping

end ActionItems
