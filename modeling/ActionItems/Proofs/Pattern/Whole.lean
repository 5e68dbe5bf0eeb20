import ActionItems.Proofs.Pattern.Matching

/-!
# Patterns for whole texts

A pattern between the two anchors is compared with a text from its start to its end, where a line
feed at the end does not count. `Spells` says which texts the part between the anchors stands for,
if it is made of characters, characters that are repeated, groups and parts that may be missing
(`IsRegular`); however these parts can share a text, a way to cut it is found if there is one
(`matchFrom_regular_iff`). So the pattern matches what its inner part spells, and the same with a
line feed behind it (`matches_whole_iff`).
-/

namespace ActionItems.Pattern

variable {α : Type} {accept : Place → Option α} {node body first second : Node} {set : CharSet}
  {p q : Place} {number least : Nat} {s t text : List Char}

/-- A pattern of characters, characters that come at least so often, groups, and parts that may be
missing. -/
inductive IsRegular : Node → Prop
  | char (set : CharSet) : IsRegular (.char set)
  | many (least : Nat) (set : CharSet) : IsRegular (.loop least none false (.char set))
  | optional {body : Node} (inner : IsRegular body) : IsRegular (.loop 0 (some 1) false body)
  | group (number : Nat) {body : Node} (inner : IsRegular body) : IsRegular (.group number body)
  | seq {first second : Node} (one : IsRegular first) (other : IsRegular second) : IsRegular
    (.seq first second)

/-- The texts that a pattern stands for. -/
inductive Spells : Node → List Char → Prop
  | char {set : CharSet} {c : Char} (mem : set.test c = true) : Spells (.char set) [c]
  | many {least : Nat} {set : CharSet} {s : List Char} (enough : least ≤ s.length)
    (all : ∀ c ∈ s, set.test c = true) : Spells (.loop least none false (.char set)) s
  | absent {body : Node} : Spells (.loop 0 (some 1) false body) []
  | present {body : Node} {s : List Char} (inner : Spells body s) : Spells
    (.loop 0 (some 1) false body) s
  | group {number : Nat} {body : Node} {s : List Char} (inner : Spells body s) : Spells
    (.group number body) s
  | seq {first second : Node} {s t : List Char} (one : Spells first s) (other : Spells second t) :
    Spells (.seq first second) (s ++ t)

/-! ### What the kinds of patterns spell -/

theorem spells_char : Spells (.char set) s ↔ ∃ c, set.test c = true ∧ s = [c] := by
  constructor
  · intro h
    cases h with
    | char mem => exact ⟨_, mem, rfl⟩
  · rintro ⟨c, mem, rfl⟩
    exact .char mem

theorem spells_many : Spells (.loop least none false (.char set)) s ↔
    least ≤ s.length ∧ ∀ c ∈ s, set.test c = true := by
  constructor
  · intro h
    cases h with
    | many enough all => exact ⟨enough, all⟩
  · rintro ⟨enough, all⟩
    exact .many enough all

theorem spells_optional : Spells (.loop 0 (some 1) false body) s ↔ s = [] ∨ Spells body s := by
  constructor
  · intro h
    cases h with
    | absent => exact .inl rfl
    | present inner => exact .inr inner
  · rintro (rfl | inner)
    · exact .absent
    · exact .present inner

theorem spells_group : Spells (.group number body) s ↔ Spells body s := by
  constructor
  · intro h
    cases h with
    | group inner => exact inner
  · exact .group

theorem spells_seq :
    Spells (.seq first second) s ↔ ∃ t u, Spells first t ∧ Spells second u ∧ s = t ++ u := by
  constructor
  · intro h
    cases h with
    | seq one other => exact ⟨_, _, one, other, rfl⟩
  · rintro ⟨t, u, one, other, rfl⟩
    exact .seq one other

/-- Every set in a pattern holds only characters with a property. -/
def Within (P : Char → Prop) : Node → Prop
  | .char set => ∀ c, set.test c = true → P c
  | .loop _ _ _ body | .group _ body => Within P body
  | .seq first second => Within P first ∧ Within P second
  | _ => True

/-- However a text is shared between the parts of a pattern, each of its characters is in one of the
sets. -/
theorem Spells.forall_of_within {P : Char → Prop} (h : Spells node s) (within : Within P node) :
    ∀ c ∈ s, P c := by
  induction h with
  | char mem => exact List.forall_mem_singleton.2 (within _ mem)
  | many enough all => exact fun c hc => within c (all c hc)
  | absent => exact List.forall_mem_nil _
  | present inner ih => exact ih within
  | group inner ih => exact ih within
  | seq one other ih ih' => exact List.forall_mem_append.2 ⟨ih within.1, ih' within.2⟩

/-! ### Walking the patterns -/

/-- What is accepted does not depend on the texts of groups. -/
def Heedless (accept : Place → Option α) : Prop :=
  ∀ (p : Place) (groups : List (Nat × List Char)), (accept { p with groups }).isSome =
    (accept p).isSome

/-- The place after a spelled text is accepted. -/
def Admits (node : Node) (p : Place) (accept : Place → Option α) : Prop :=
  ∃ s q, Spells node s ∧ p.follow? s = some q ∧ (accept q).isSome = true

theorem follow?_groups (groups : List (Nat × List Char)) :
    { p with groups }.follow? s = (p.follow? s).map fun q => { q with groups } := by
  induction s generalizing p with
  | nil => rfl
  | cons c s ih =>
    rw [Place.follow?, Place.follow?]
    cases p.after with
    | nil => rfl
    | cons d rest =>
      dsimp only
      split
      · exact ih (p := ⟨d :: p.before, rest, p.groups⟩)
      · rfl

theorem admits_groups (heedless : Heedless accept) (groups : List (Nat × List Char)) :
    Admits node { p with groups } accept ↔ Admits node p accept := by
  unfold Admits
  simp only [follow?_groups, Option.map_eq_some_iff]
  constructor
  · rintro ⟨s, _, spells, ⟨q, hq, rfl⟩, hacc⟩
    exact ⟨s, q, spells, hq, heedless q groups ▸ hacc⟩
  · rintro ⟨s, q, spells, hq, hacc⟩
    exact ⟨s, _, spells, ⟨q, hq, rfl⟩, (heedless q groups).trans hacc⟩

theorem admits_seq : Admits (.seq first second) p accept ↔
    ∃ s q, Spells first s ∧ p.follow? s = some q ∧ Admits second q accept := by
  constructor
  · rintro ⟨_, r, spells, hr, hacc⟩
    obtain ⟨s, t, one, other, rfl⟩ := spells_seq.1 spells
    rw [follow?_append, Option.bind_eq_some_iff] at hr
    obtain ⟨q, hq, hr⟩ := hr
    exact ⟨s, q, one, hq, t, r, other, hr, hacc⟩
  · rintro ⟨s, q, one, hq, t, r, other, hr, hacc⟩
    refine ⟨s ++ t, r, .seq one other, ?_, hacc⟩
    rw [follow?_append, hq]
    exact hr

theorem matchFrom_optional :
    matchFrom (.loop 0 (some 1) false body) p accept = (matchFrom body p accept).or (accept p) := by
  -- After the one step that may come there is none left.
  have last (fuel : Nat) :
      repeatFrom (fun q k => matchFrom body q k) accept (fuel + 1) 0 (some 0) (some p)
        = accept := by
    funext q
    simp [repeatFrom]
  rw [matchFrom]
  simp only [Bool.false_eq_true, if_false, Nat.zero_add]
  rw [repeatFrom, if_neg (Nat.lt_irrefl 0)]
  simp only [Option.map_some, Nat.sub_self, last, Option.map_none, Option.getD_none, Bool.and_true]
  cases matchFrom body p accept <;> rfl

/-- Characters that must come are walked one by one. -/
theorem repeatFrom_due_iff {fuel : Nat} (enough : least + p.after.length < fuel) :
    (repeatFrom (fun q k => matchFrom (.char set) q k) accept fuel least none none p).isSome =
      true ↔
      Admits (.loop least none false (.char set)) p accept := by
  induction least generalizing fuel p with
  | zero =>
    rw [repeatFrom_iff (by omega) (by simp)]
    refine exists₂_congr fun s q => and_congr_left fun _ => ?_
    rw [describes_star, spells_many]
    simp
  | succ least ih =>
    obtain ⟨fuel, rfl⟩ : ∃ left, fuel = left + 1 := ⟨fuel - 1, by omega⟩
    have next (q : Place) (one : p.after.length = q.after.length + 1) :
        (repeatFrom (fun q k => matchFrom (.char set) q k) accept fuel least none none q).isSome =
          true ↔
          Admits (.loop least none false (.char set)) q accept := ih (by omega)
    rw [repeatFrom, if_pos (Nat.succ_pos least), matchFrom_char]
    constructor
    · rintro ⟨_, mid, one, hmid, hrest⟩
      obtain ⟨c, mem, rfl⟩ := describes_char.1 one
      have shorter : p.after.length = mid.after.length + 1 := by
        simp [(follow?_eq_some_iff.1 hmid).1]
      obtain ⟨s, q, spells, hq, hacc⟩ := (next mid shorter).1 hrest
      obtain ⟨enough, all⟩ := spells_many.1 spells
      refine ⟨c :: s, q, .many (Nat.succ_le_succ enough) (List.forall_mem_cons.2 ⟨mem, all⟩),
        ?_, hacc⟩
      rw [← List.singleton_append, follow?_append, hmid]
      exact hq
    · rintro ⟨s, q, spells, hq, hacc⟩
      obtain ⟨enough, all⟩ := spells_many.1 spells
      cases s with
      | nil => cases enough
      | cons c s =>
        rw [← List.singleton_append, follow?_append, Option.bind_eq_some_iff] at hq
        obtain ⟨mid, hmid, hq⟩ := hq
        rw [List.forall_mem_cons] at all
        have shorter : p.after.length = mid.after.length + 1 := by
          simp [(follow?_eq_some_iff.1 hmid).1]
        exact ⟨[c], mid, .char all.1, hmid,
          (next mid shorter).2 ⟨s, q, .many (Nat.le_of_succ_le_succ enough) all.2, hq, hacc⟩⟩

/-- **Walking a regular pattern finds a way to cut the text if there is one.** -/
theorem matchFrom_regular_iff (h : IsRegular node) (heedless : Heedless accept) :
    (matchFrom node p accept).isSome = true ↔ Admits node p accept := by
  induction h generalizing p accept with
  | char set =>
    rw [matchFrom_char]
    refine exists₂_congr fun s q => and_congr_left fun _ => ?_
    rw [describes_char, spells_char]
  | many least set =>
    rw [matchFrom]
    exact repeatFrom_due_iff (by omega)
  | @optional body inner ih =>
    rw [matchFrom_optional, Option.isSome_or, Bool.or_eq_true, ih heedless]
    constructor
    · rintro (⟨s, q, spells, hq, hacc⟩ | hacc)
      · exact ⟨s, q, .present spells, hq, hacc⟩
      · exact ⟨[], p, .absent, rfl, hacc⟩
    · rintro ⟨s, q, spells, hq, hacc⟩
      rcases spells_optional.1 spells with rfl | inner
      · cases hq
        exact .inr hacc
      · exact .inl ⟨s, q, inner, hq, hacc⟩
  | @group number body inner ih =>
    have kept : Heedless fun q => accept (q.keep p number) := fun q groups =>
      (heedless _ _).trans (heedless _ _).symm
    rw [matchFrom, ih kept]
    have same (q : Place) : (accept (q.keep p number)).isSome = (accept q).isSome := heedless q _
    refine exists₂_congr fun s q => and_congr spells_group.symm (and_congr_right fun _ => ?_)
    rw [same]
  | @seq first second one other ih ih' =>
    have behind : Heedless fun q => matchFrom second q accept := fun q groups => by
      rw [Bool.eq_iff_iff, ih' heedless, ih' heedless, admits_groups heedless]
    rw [matchFrom, ih behind, admits_seq]
    exact exists₂_congr fun s q => and_congr_right fun _ => and_congr_right fun _ => ih' heedless

/-! ### Whole texts -/

/-- A pattern between the anchors. -/
def whole (body : Node) : Node := .seq (.seq (.anchor .start) body) (.anchor .finish)

/-- **A pattern for whole texts** matches the texts that its inner part spells, and the same with a
line feed behind them. -/
theorem matches_whole_iff (h : IsRegular body) : matchesAt (whole body) ⟨[], text, []⟩ = true ↔
    ∃ s, (text = s ∨ text = s ++ ['\n']) ∧ Spells body s := by
  have heedless : Heedless fun q => if Anchor.finish.test q then some () else none := fun _ _ => rfl
  have walk : (matchFrom (whole body) ⟨[], text, []⟩ fun _ => some ()) =
      matchFrom body ⟨[], text, []⟩ fun q => if Anchor.finish.test q then some () else none := rfl
  rw [matchesAt, walk, matchFrom_regular_iff h heedless]
  constructor
  · rintro ⟨s, q, spells, hq, hacc⟩
    obtain ⟨rfl, -, -⟩ := follow?_eq_some_iff.1 hq
    have finish : q.after = [] ∨ q.after = ['\n'] := by
      by_contra hno
      simp [Anchor.test, hno] at hacc
    refine ⟨s, finish.imp (fun h => ?_) fun h => ?_, spells⟩
    · rw [h, List.append_nil]
    · rw [h]
  · rintro ⟨s, htext, spells⟩
    have cut (rest : List Char) : Place.follow? ⟨[], s ++ rest, []⟩ s =
        some ⟨s.reverse, rest, []⟩ :=
      follow?_eq_some_iff.2 ⟨rfl, by simp, rfl⟩
    rcases htext with rfl | rfl
    · have hq := cut []
      rw [List.append_nil] at hq
      exact ⟨text, _, spells, hq, rfl⟩
    · exact ⟨s, _, spells, cut ['\n'], rfl⟩

end ActionItems.Pattern
