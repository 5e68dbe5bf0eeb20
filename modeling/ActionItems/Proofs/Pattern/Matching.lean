import ActionItems.Pattern.Reader
import Mathlib.Data.List.Forall2

/-!
# What patterns describe

`Describes` says which texts a pattern describes that consists of characters, of sequences and of
characters repeated as often as they come (`IsSimple`). Walking such a pattern from a place hands
all the places after a described text to the continuation, and no others (`matchFrom_iff`). The
order in which it does so matters only to which of them is accepted first, so a simple pattern
occurs in a text if and only if a part of the text is described (`search_iff`).
-/

namespace ActionItems.Pattern

variable {α : Type} {accept : Place → Option α} {node : Node} {set : CharSet} {p q : Place}
  {s t text : List Char}

/-! ### Places further on -/

theorem follow?_eq_some_iff : p.follow? s = some q ↔
    p.after = s ++ q.after ∧ q.before = s.reverse ++ p.before ∧ q.groups = p.groups := by
  induction s generalizing p with
  | nil =>
    rw [Place.follow?, Option.some.injEq]
    constructor
    · rintro rfl
      exact ⟨rfl, rfl, rfl⟩
    · rintro ⟨hafter, hbefore, hgroups⟩
      cases p
      cases q
      simp_all
  | cons c s ih =>
    rw [Place.follow?]
    cases hp : p.after with
    | nil => simp
    | cons d rest =>
      dsimp only
      split
      · next hc =>
        subst hc
        rw [ih]
        simp
      · next hc =>
        simp [Ne.symm hc]

theorem follow?_append : p.follow? (s ++ t) = (p.follow? s).bind fun q => q.follow? t := by
  induction s generalizing p with
  | nil => rfl
  | cons c s ih =>
    rw [List.cons_append, Place.follow?, Place.follow?]
    cases p.after with
    | nil => rfl
    | cons d rest =>
      dsimp only
      split
      · exact ih
      · rfl

/-! ### Described texts -/

/-- The texts that a pattern describes. -/
inductive Describes : Node → List Char → Prop
  | empty : Describes .empty []
  | char {set : CharSet} {c : Char} (mem : set.test c = true) : Describes (.char set) [c]
  | seq {first second : Node} {s t : List Char} (one : Describes first s)
    (other : Describes second t) :
    Describes (.seq first second) (s ++ t)
  | star {set : CharSet} {s : List Char} (all : ∀ c ∈ s, set.test c = true) :
    Describes (.loop 0 none false (.char set)) s

theorem describes_char : Describes (.char set) s ↔ ∃ c, set.test c = true ∧ s = [c] := by
  constructor
  · intro h
    cases h with
    | char mem => exact ⟨_, mem, rfl⟩
  · rintro ⟨c, mem, rfl⟩
    exact .char mem

theorem describes_seq {first second : Node} : Describes (.seq first second) s ↔
    ∃ t u, Describes first t ∧ Describes second u ∧ s = t ++ u := by
  constructor
  · intro h
    cases h with
    | seq one other => exact ⟨_, _, one, other, rfl⟩
  · rintro ⟨t, u, one, other, rfl⟩
    exact .seq one other

theorem describes_star :
    Describes (.loop 0 none false (.char set)) s ↔ ∀ c ∈ s, set.test c = true := by
  constructor
  · intro h
    cases h with
    | star all => exact all
  · exact .star

/-- A pattern without anchors, alternatives, groups and bounds. -/
inductive IsSimple : Node → Prop
  | empty : IsSimple .empty
  | char (set : CharSet) : IsSimple (.char set)
  | seq {first second : Node} (one : IsSimple first) (other : IsSimple second) : IsSimple
    (.seq first second)
  | star (set : CharSet) : IsSimple (.loop 0 none false (.char set))

/-- The place after a described text is accepted. -/
def Accepts (node : Node) (p : Place) (accept : Place → Option α) : Prop :=
  ∃ s q, Describes node s ∧ p.follow? s = some q ∧ (accept q).isSome = true

theorem accepts_empty : Accepts .empty p accept ↔ (accept p).isSome = true := by
  constructor
  · rintro ⟨_, q, ⟨⟩, ⟨⟩, hacc⟩
    exact hacc
  · exact fun hacc => ⟨[], p, .empty, rfl, hacc⟩

theorem accepts_seq {first second : Node} : Accepts (.seq first second) p accept ↔
    ∃ s q, Describes first s ∧ p.follow? s = some q ∧ Accepts second q accept := by
  constructor
  · rintro ⟨s, r, hs, hr, hacc⟩
    obtain ⟨t, u, one, other, rfl⟩ := describes_seq.1 hs
    rw [follow?_append, Option.bind_eq_some_iff] at hr
    obtain ⟨q, hq, hr⟩ := hr
    exact ⟨t, q, one, hq, u, r, other, hr, hacc⟩
  · rintro ⟨s, q, one, hq, t, r, other, hr, hacc⟩
    refine ⟨s ++ t, r, .seq one other, ?_, hacc⟩
    rw [follow?_append, hq]
    exact hr

theorem accepts_star : Accepts (.loop 0 none false (.char set)) p accept ↔
    Accepts (.seq (.char set) (.loop 0 none false (.char set))) p accept ∨
    (accept p).isSome = true := by
  rw [accepts_seq]
  constructor
  · rintro ⟨s, q, hs, hq, hacc⟩
    rw [describes_star] at hs
    cases s with
    | nil =>
      cases hq
      exact .inr hacc
    | cons c s =>
      rw [← List.singleton_append, follow?_append, Option.bind_eq_some_iff] at hq
      obtain ⟨mid, hmid, hq⟩ := hq
      rw [List.forall_mem_cons] at hs
      exact .inl ⟨[c], mid, .char hs.1, hmid, s, q, .star hs.2, hq, hacc⟩
  · rintro (⟨_, mid, one, hmid, s, q, more, hq, hacc⟩ | hacc)
    · obtain ⟨c, mem, rfl⟩ := describes_char.1 one
      refine ⟨c :: s, q, .star (List.forall_mem_cons.2 ⟨mem, describes_star.1 more⟩), ?_, hacc⟩
      rw [← List.singleton_append, follow?_append, hmid]
      exact hq
    · exact ⟨[], p, .star (by simp), rfl, hacc⟩

/-! ### Walking a pattern -/

theorem matchFrom_char :
    (matchFrom (.char set) p accept).isSome = true ↔ Accepts (.char set) p accept := by
  rw [matchFrom]
  constructor
  · intro h
    split at h
    · cases h
    · next c rest hp =>
      split at h
      · next mem =>
        refine ⟨[c], _, .char mem, ?_, h⟩
        rw [follow?_eq_some_iff]
        exact ⟨hp, rfl, rfl⟩
      · cases h
  · rintro ⟨s, q, hs, hq, hacc⟩
    obtain ⟨c, mem, rfl⟩ := describes_char.1 hs
    obtain ⟨hp, hbefore, hgroups⟩ := follow?_eq_some_iff.1 hq
    have there : { p with before := c :: p.before, after := q.after } = q := by
      cases q
      cases hbefore
      cases hgroups
      rfl
    rw [hp]
    dsimp only [List.singleton_append]
    rwa [mem, if_pos rfl, there]

/-- Every step goes on, so the bound on the steps is not felt. -/
theorem repeatFrom_iff {fuel : Nat} {last? : Option Place} (enough : p.after.length < fuel)
    (moved : ∀ q ∈ last?, p.movedFrom q = true) :
    (repeatFrom (fun q k => matchFrom (.char set) q k) accept fuel 0 none last? p).isSome = true ↔
      Accepts (.loop 0 none false (.char set)) p accept := by
  induction fuel generalizing p last? with
  | zero => omega
  | succ fuel ih =>
    have mayGoOn :
        ((none : Option Nat) != some 0 && (last?.map (p.movedFrom ·)).getD true) = true := by
      cases last? with
      | none => rfl
      | some q => exact moved q rfl
    have further : (matchFrom (.char set) p
          (repeatFrom (fun q k => matchFrom (.char set) q k) accept fuel 0 none (some p))).isSome =
            true ↔
        Accepts (.seq (.char set) (.loop 0 none false (.char set))) p accept := by
      rw [matchFrom_char, accepts_seq]
      refine exists₂_congr fun s q => and_congr_right fun one => and_congr_right fun hq => ?_
      obtain ⟨c, -, rfl⟩ := describes_char.1 one
      have shorter : p.after.length = q.after.length + 1 := by
        rw [(follow?_eq_some_iff.1 hq).1]
        simp
      refine ih (by omega) ?_
      rintro _ ⟨⟩
      simp [Place.movedFrom, shorter]
    rw [accepts_star, ← further, repeatFrom, if_neg (Nat.lt_irrefl 0)]
    dsimp only
    rw [mayGoOn, if_pos rfl, Option.map_none]
    split
    · next found => simp [found]
    · next missed => simp [missed]

/-- **A simple pattern hands on the places after the texts that it describes.** -/
theorem matchFrom_iff (h : IsSimple node) :
    (matchFrom node p accept).isSome = true ↔ Accepts node p accept := by
  induction h generalizing p accept with
  | empty => exact accepts_empty.symm
  | char set => exact matchFrom_char
  | seq one other ih ih' =>
    rw [matchFrom, ih, accepts_seq]
    exact exists₂_congr fun s q => and_congr_right fun _ => and_congr_right fun _ => ih'
  | star set =>
    rw [matchFrom]
    exact repeatFrom_iff (by omega) (by simp)

/-- **A simple pattern occurs in a text if and only if it describes a part of it.** -/
theorem search_iff (h : IsSimple node) :
    search node text = true ↔ ∃ before s after, text = before ++ s ++ after ∧ Describes node s := by
  unfold search
  simp only [searchFrom_iff, matchesAt, matchFrom_iff h]
  constructor
  · rintro ⟨before, rest, rfl, s, q, hs, hq, -⟩
    obtain ⟨hrest, -⟩ := follow?_eq_some_iff.1 hq
    refine ⟨before, s, q.after, ?_, hs⟩
    rw [List.append_assoc, ← hrest]
  · rintro ⟨before, s, after, rfl, hs⟩
    refine ⟨before, s ++ after, List.append_assoc .., s,
      ⟨s.reverse ++ (before.reverse ++ []), after, []⟩, hs, ?_, rfl⟩
    rw [follow?_eq_some_iff]
    exact ⟨rfl, rfl, rfl⟩

/-! ### Sequences -/

theorem describes_foldl {first : Node} {more : List Node} : Describes (more.foldl .seq first) s ↔
    ∃ t pieces, Describes first t ∧ List.Forall₂ Describes more pieces ∧
      s = t ++ pieces.flatten := by
  induction more generalizing first with
  | nil =>
    constructor
    · exact fun h => ⟨s, [], h, .nil, by simp⟩
    · rintro ⟨t, _, h, ⟨⟩, rfl⟩
      simpa using h
  | cons next more ih =>
    rw [List.foldl_cons, ih]
    constructor
    · rintro ⟨_, pieces, h, all, rfl⟩
      obtain ⟨t, u, one, other, rfl⟩ := describes_seq.1 h
      exact ⟨t, u :: pieces, one, .cons other all, by simp⟩
    · rintro ⟨t, pieces, one, all, rfl⟩
      obtain ⟨u, pieces, other, rest, rfl⟩ := List.forall₂_cons_left_iff.1 all
      exact ⟨t ++ u, pieces, .seq one other, rest, by simp⟩

theorem describes_sequence {parts : List Node} : Describes (sequence parts.reverse) s ↔
    ∃ pieces, List.Forall₂ Describes parts pieces ∧ s = pieces.flatten := by
  rw [sequence, List.reverse_reverse]
  cases parts with
  | nil =>
    constructor
    · rintro ⟨⟩
      exact ⟨[], .nil, rfl⟩
    · rintro ⟨_, ⟨⟩, rfl⟩
      exact .empty
  | cons first more =>
    dsimp only
    rw [describes_foldl]
    constructor
    · rintro ⟨t, pieces, one, all, rfl⟩
      exact ⟨t :: pieces, .cons one all, rfl⟩
    · rintro ⟨pieces, all, rfl⟩
      obtain ⟨t, pieces, one, rest, rfl⟩ := List.forall₂_cons_left_iff.1 all
      exact ⟨t, pieces, one, rest, rfl⟩

theorem isSimple_foldl {first : Node} {more : List Node} (h : IsSimple first)
    (all : ∀ node ∈ more, IsSimple node) : IsSimple (more.foldl .seq first) := by
  induction more generalizing first with
  | nil => exact h
  | cons next more ih =>
    rw [List.forall_mem_cons] at all
    exact ih (.seq h all.1) all.2

theorem isSimple_sequence {parts : List Node} (all : ∀ node ∈ parts, IsSimple node) :
    IsSimple (sequence parts.reverse) := by
  rw [sequence, List.reverse_reverse]
  cases parts with
  | nil => exact .empty
  | cons first more =>
    rw [List.forall_mem_cons] at all
    exact isSimple_foldl all.1 all.2

theorem matchFrom_sequence_concat (parts : List Node) (last : Node) :
    matchFrom (sequence (parts ++ [last]).reverse) p accept =
      matchFrom (sequence parts.reverse) p fun q => matchFrom last q accept := by
  rw [sequence, sequence, List.reverse_reverse, List.reverse_reverse]
  cases parts with
  | nil => rfl
  | cons first more =>
    show matchFrom ((more ++ [last]).foldl .seq first) p accept = _
    rw [List.foldl_append]
    rfl

/-- **The parts of a sequence are walked one after the other.** -/
theorem matchFrom_sequence_append (parts more : List Node) :
    matchFrom (sequence (parts ++ more).reverse) p accept =
      matchFrom (sequence parts.reverse) p fun q => matchFrom (sequence more.reverse) q accept := by
  induction more generalizing parts p with
  | nil =>
    rw [List.append_nil]
    rfl
  | cons next more ih =>
    have behind (q : Place) : matchFrom (sequence (next :: more).reverse) q accept =
        matchFrom next q fun r => matchFrom (sequence more.reverse) r accept := ih [next]
    rw [← List.singleton_append, ← List.append_assoc, ih (parts ++ [next]),
      matchFrom_sequence_concat]
    simp only [List.singleton_append, behind]

/-! ### Characters between word boundaries -/

theorem describes_chars {sets : List CharSet} :
    Describes (sequence (sets.map Node.char).reverse) s ↔
    List.Forall₂ (fun set c => set.test c = true) sets s := by
  rw [describes_sequence]
  induction sets generalizing s with
  | nil =>
    constructor
    · rintro ⟨_, ⟨⟩, rfl⟩
      exact .nil
    · rintro ⟨⟩
      exact ⟨[], .nil, rfl⟩
  | cons set sets ih =>
    rw [List.map_cons]
    constructor
    · rintro ⟨pieces, all, rfl⟩
      obtain ⟨piece, pieces, one, rest, rfl⟩ := List.forall₂_cons_left_iff.1 all
      obtain ⟨c, mem, rfl⟩ := describes_char.1 one
      exact .cons mem (ih.1 ⟨pieces, rest, rfl⟩)
    · intro all
      obtain ⟨c, more, mem, rest, rfl⟩ := List.forall₂_cons_left_iff.1 all
      obtain ⟨pieces, others, rfl⟩ := ih.2 rest
      exact ⟨[c] :: pieces, .cons (.char mem) others, rfl⟩

/-- The parts of a pattern for characters of sets between word boundaries. -/
def between (sets : List CharSet) : List Node :=
  [.anchor .boundary] ++ sets.map .char ++ [.anchor .boundary]

/-- A place where characters between word boundaries match. -/
theorem matchesAt_between {sets : List CharSet} :
    matchesAt (sequence (between sets).reverse) p = true ↔
    p.isBoundary = true ∧ ∃ s q, List.Forall₂ (fun set c => set.test c = true) sets s ∧
      p.follow? s = some q ∧ q.isBoundary = true := by
  have anchor (q : Place) :
      (matchFrom (sequence [Node.anchor .boundary].reverse) q fun _ => some ()) =
      if q.isBoundary = true then some () else none := rfl
  have simple : IsSimple (sequence (sets.map Node.char).reverse) := by
    refine isSimple_sequence fun node hnode => ?_
    obtain ⟨set, -, rfl⟩ := List.mem_map.1 hnode
    exact .char set
  have inner : (matchFrom (sequence (sets.map Node.char).reverse) p fun q =>
        if q.isBoundary = true then some () else none).isSome = true ↔
      ∃ s q, List.Forall₂ (fun set c => set.test c = true) sets s ∧ p.follow? s = some q ∧
        q.isBoundary = true := by
    rw [matchFrom_iff simple]
    refine exists₂_congr fun s q => and_congr describes_chars (and_congr_right fun _ => ?_)
    by_cases finish : q.isBoundary = true <;> simp [finish]
  have start : (matchFrom (sequence (between sets).reverse) p fun _ => some ()) =
      if p.isBoundary = true then
        matchFrom (sequence (sets.map Node.char).reverse) p fun q => if q.isBoundary =
          true then some () else none
      else none := by
    rw [between, matchFrom_sequence_append, matchFrom_sequence_append]
    simp only [anchor]
    rfl
  rw [matchesAt, start, ← inner]
  cases p.isBoundary <;> simp

/-- **Characters between word boundaries** occur in a text where a piece of it has them and begins
and ends at a boundary. -/
theorem search_between {sets : List CharSet} :
    search (sequence (between sets).reverse) text = true ↔
    ∃ before s after, text = before ++ s ++ after ∧
      List.Forall₂ (fun set c => set.test c = true) sets s ∧
      Text.isBoundary before.reverse (s ++ after) = true ∧
      Text.isBoundary (s.reverse ++ before.reverse) after = true := by
  unfold search
  simp only [searchFrom_iff, matchesAt_between]
  constructor
  · rintro ⟨before, rest, rfl, start, s, q, hs, hq, finish⟩
    obtain ⟨hrest, hbefore, -⟩ := follow?_eq_some_iff.1 hq
    dsimp only at hrest hbefore
    subst hrest
    rw [Place.isBoundary, hbefore] at finish
    rw [Place.isBoundary] at start
    rw [List.append_nil] at start finish
    exact ⟨before, s, q.after, (List.append_assoc ..).symm, hs, start, finish⟩
  · rintro ⟨before, s, after, rfl, hs, start, finish⟩
    refine ⟨before, s ++ after, List.append_assoc .., ?_, s,
      ⟨s.reverse ++ before.reverse, after, []⟩, hs, ?_, finish⟩
    · rw [Place.isBoundary, List.append_nil]
      exact start
    · rw [follow?_eq_some_iff]
      simp

end ActionItems.Pattern
