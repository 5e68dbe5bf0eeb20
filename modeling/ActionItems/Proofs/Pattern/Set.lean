import ActionItems.Proofs.Pattern.Escape

/-!
# How far sets go

A set in a pattern ends at its closing bracket, and what is read of it stays the same whatever text
comes after that (`charSet?_local`). The bracket is found member by member: a member ends where its
digits do (`setMember?_local`). Characters without a meaning of their own are the members of the set
that they are written in (`charSet?_points`).
-/

namespace ActionItems.Pattern

theorem head?_closed (inner after after' : List Char) :
    (inner ++ ']' :: after').head? = (inner ++ ']' :: after).head? := by
  cases inner <;> rfl

theorem not_head_closed {chars : List Char} {d : Char} (hd : d ∉ chars) (close : d ≠ ']')
    (rest more : List Char) : chars ++ ']' :: rest ≠ d :: more := by
  cases chars with
  | nil => exact fun h => close (List.cons.inj h).1.symm
  | cons c chars => exact fun h => hd (by rw [(List.cons.inj h).1]; exact List.mem_cons_self)

variable [CharNames] {s after : List Char}

theorem setMember?_local {item : SetItem} (h : setMember? s = some (item, after)) :
    ∃ taken, taken ≠ [] ∧ s = taken ++ after ∧
      ∀ after', after'.head? = after.head? →
        setMember? (taken ++ after') = some (item, after') := by
  unfold setMember? at h
  split at h
  · cases h
  · next rest =>
    obtain ⟨⟨e, left⟩, escaped, h⟩ := Option.bind_eq_some_iff.1 h
    obtain ⟨other, hitem, h⟩ := Option.bind_eq_some_iff.1 h
    cases h
    cases rest with
    | nil => cases escaped
    | cons c rest =>
      obtain ⟨digits, rfl, -, same⟩ := setEscape?_local escaped
      refine ⟨'\\' :: c :: digits, by simp, rfl, fun after' head => ?_⟩
      show (setEscape? (c :: (digits ++ after')) >>= _) = _
      rw [show setEscape? (c :: (digits ++ after')) = some (e, after') from
        same after' (.inl head.symm)]
      show (e.setItem? >>= _) = _
      rw [hitem]
      rfl
  · next c rest plain =>
    cases h
    refine ⟨[c], by simp, rfl, fun after' _ => ?_⟩
    unfold setMember?
    split
    · next he => cases he
    · next he =>
      cases he
      exact (plain rfl).elim
    · next he =>
      cases he
      rfl

/-- What is read of a set after one of its members. -/
def afterMember? (fuel : Nat) (read : List SetItem) (item : SetItem) :
    List Char → Option (List SetItem × List Char)
  | '-' :: ']' :: rest => some ((.point 0x2D :: item :: read).reverse, rest)
  | '-' :: more => do
    let (other, after) ← setMember? more
    match item, other with
    | .point first, .point last =>
      if first ≤ last then setItems? fuel (.range first last :: read) after else none
    | _, _ => none
  | after => setItems? fuel (item :: read) after

theorem setItems?_succ {fuel : Nat} {read : List SetItem}
    (h : ∀ rest, s = ']' :: rest → read = []) :
    setItems? (fuel + 1) read s = (setMember? s).bind fun (item, after) =>
      afterMember? fuel read item after := by
  rw [setItems?]
  · refine congrArg (Option.bind (setMember? s)) (funext fun member => ?_)
    obtain ⟨item, after⟩ := member
    dsimp only
    split
    · rfl
    · next notLast => exact (afterMember?.eq_2 fuel read item _ notLast).symm
    · next notLast notRange => exact (afterMember?.eq_3 fuel read item _ notLast notRange).symm
  · intro rest first more hs hread
    rw [h rest hs] at hread
    cases hread

/-- A reader, given fuel for what it reads, reads up to a closing bracket, and the same whatever
comes after that. -/
def Closes {α : Type} (read : Nat → List Char → Option (α × List Char)) (s : List Char) (a : α)
    (after : List Char) : Prop :=
  ∃ inner, s = inner ++ ']' :: after ∧
    ∀ after' fuel, inner.length < fuel → read fuel (inner ++ ']' :: after') = some (a, after')

theorem afterMember?_local {fuel : Nat} {read items : List SetItem} {item : SetItem}
    (ih : ∀ {read s}, setItems? fuel read s = some (items, after) →
      Closes (fun fuel => setItems? fuel read) s items after)
    (h : afterMember? fuel read item s = some (items, after)) :
    Closes (fun fuel => afterMember? fuel read item) s items after := by
  unfold afterMember? at h
  split at h
  · cases h
    exact ⟨['-'], rfl, fun after' fuel' _ => rfl⟩
  · next more notLast =>
    obtain ⟨⟨other, left⟩, member, range⟩ := Option.bind_eq_some_iff.1 h
    obtain ⟨taken, hne, rfl, same⟩ := setMember?_local member
    obtain ⟨c, others, rfl⟩ := List.exists_cons_of_ne_nil hne
    dsimp only at range
    split at range
    · next first last =>
      split at range
      · next order =>
        obtain ⟨inner, rfl, hinner⟩ := ih range
        refine ⟨'-' :: (c :: others ++ inner), by simp, fun after' fuel' enough => ?_⟩
        have enough : inner.length < fuel' := by
          simp only [List.length_append, List.length_cons] at enough
          omega
        have next := same _ (head?_closed inner after after')
        dsimp only
        rw [List.cons_append, List.append_assoc, afterMember?]
        · rw [next]
          show (if first ≤ last then _ else none) = _
          rw [if_pos order]
          exact hinner after' fuel' enough
        · intro rest hrest
          cases hrest
          exact notLast _ rfl
      · cases range
    · cases range
  · next notLast notRange =>
    obtain ⟨inner, rfl, hinner⟩ := ih h
    refine ⟨inner, rfl, fun after' fuel' enough => ?_⟩
    have notRange' : ∀ more, inner ++ ']' :: after' = '-' :: more → False := by
      intro more hmore
      have head := head?_closed inner after after'
      rw [hmore] at head
      obtain ⟨rest, hrest⟩ := List.head?_eq_some_iff.1 head.symm
      exact notRange rest hrest
    dsimp only
    rw [afterMember?]
    · exact hinner after' fuel' enough
    · exact fun rest hrest => notRange' _ hrest
    · exact notRange'

/-- The members of a set end at its closing bracket, and what comes after it does not matter. -/
theorem setItems?_local {fuel : Nat} {read items : List SetItem}
    (h : setItems? fuel read s = some (items, after)) :
    Closes (fun fuel => setItems? fuel read) s items after := by
  induction fuel generalizing read s with
  | zero => cases h
  | succ fuel ih =>
    -- In the first place a closing bracket is a member.
    by_cases closed : ∃ rest, s = ']' :: rest ∧ read ≠ []
    · obtain ⟨rest, rfl, hne⟩ := closed
      obtain ⟨first, more, rfl⟩ := List.exists_cons_of_ne_nil hne
      cases h
      refine ⟨[], rfl, fun after' fuel' enough => ?_⟩
      cases fuel' with
      | zero => cases enough
      | succ fuel' => rfl
    · have opened : ∀ rest, s = ']' :: rest → read = [] := fun rest hs =>
        Classical.byContradiction fun hne => closed ⟨rest, hs, hne⟩
      rw [setItems?_succ opened] at h
      obtain ⟨⟨item, left⟩, member, more⟩ := Option.bind_eq_some_iff.1 h
      obtain ⟨taken, hne, rfl, same⟩ := setMember?_local member
      obtain ⟨inner, rfl, hinner⟩ := afterMember?_local ih more
      refine ⟨taken ++ inner, by simp, fun after' fuel' enough => ?_⟩
      cases fuel' with
      | zero => cases enough
      | succ fuel' =>
        have enough : inner.length < fuel' := by
          have := List.length_pos_iff.2 hne
          rw [List.length_append] at enough
          omega
        have opened' : ∀ rest, taken ++ (inner ++ ']' :: after') = ']' :: rest → read = [] := by
          intro rest hrest
          obtain ⟨c, others, rfl⟩ := List.exists_cons_of_ne_nil hne
          cases hrest
          exact opened _ rfl
        dsimp only
        rw [List.append_assoc, setItems?_succ opened', same _ (head?_closed inner after after')]
        exact hinner after' fuel' enough

theorem charSet?_negated (s : List Char) : charSet? ('^' :: s) =
    (setItems? (s.length + 1) [] s).map fun (items, after) => (⟨true, items⟩, after) := by
  show (setItems? (s.length + 1) [] s >>= _) = _
  cases setItems? (s.length + 1) [] s <;> rfl

theorem charSet?_plain (h : s.head? ≠ some '^') : charSet? s =
    (setItems? (s.length + 1) [] s).map fun (items, after) => (⟨false, items⟩, after) := by
  unfold charSet?
  split
  next negated inner hs =>
    split at hs
    · exact absurd rfl h
    · cases hs
      cases setItems? (s.length + 1) [] s <;> rfl

/-- **A set ends at its closing bracket**, and what comes after it does not matter. -/
theorem charSet?_local {set : CharSet} (h : charSet? s = some (set, after)) :
    ∃ inner, s = inner ++ ']' :: after ∧
      ∀ after', charSet? (inner ++ ']' :: after') = some (set, after') := by
  have enough (inner after' : List Char) : inner.length < (inner ++ ']' :: after').length + 1 := by
    rw [List.length_append]
    omega
  by_cases negated : s.head? = some '^'
  · obtain ⟨rest, rfl⟩ := List.head?_eq_some_iff.1 negated
    rw [charSet?_negated] at h
    obtain ⟨⟨items, left⟩, hitems, hset⟩ := Option.map_eq_some_iff.1 h
    cases hset
    obtain ⟨inner, rfl, hinner⟩ := setItems?_local hitems
    refine ⟨'^' :: inner, rfl, fun after' => ?_⟩
    have same : setItems? _ [] (inner ++ ']' :: after') = some (items, after') :=
      hinner after' _ (enough inner after')
    rw [List.cons_append, charSet?_negated, same]
    rfl
  · rw [charSet?_plain negated] at h
    obtain ⟨⟨items, left⟩, hitems, hset⟩ := Option.map_eq_some_iff.1 h
    cases hset
    obtain ⟨inner, rfl, hinner⟩ := setItems?_local hitems
    refine ⟨inner, rfl, fun after' => ?_⟩
    have same : setItems? _ [] (inner ++ ']' :: after') = some (items, after') :=
      hinner after' _ (enough inner after')
    rw [← head?_closed inner after after'] at negated
    rw [charSet?_plain negated, same]
    rfl

/-! ### Characters as members -/

/-- The characters of a text as members of a set. -/
def points (chars : List Char) : List SetItem := chars.map fun c => .point c.toNat

section

variable {chars : List Char} (plain : ∀ c ∈ chars, c ∉ ['-', ']', '\\', '^'])

include plain

theorem setItems?_points {read : List SetItem} (started : chars = [] → read ≠ []) {fuel : Nat}
    (enough : chars.length < fuel) (rest : List Char) :
    setItems? fuel read (chars ++ ']' :: rest) = some (read.reverse ++ points chars, rest) := by
  obtain ⟨fuel, rfl⟩ : ∃ left, fuel = left + 1 := ⟨fuel - 1, by omega⟩
  induction chars generalizing read fuel with
  | nil =>
    obtain ⟨item, read, rfl⟩ := List.exists_cons_of_ne_nil (started rfl)
    rw [List.nil_append, setItems?, points, List.map_nil, List.append_nil]
  | cons c chars ih =>
    obtain ⟨left, rfl⟩ : ∃ left, fuel = left + 1 := ⟨fuel - 1, by simp at enough; omega⟩
    rw [List.forall_mem_cons] at plain
    obtain ⟨hc, plain⟩ := plain
    simp only [List.mem_cons, List.not_mem_nil, or_false, not_or] at hc
    have member : setMember? (c :: (chars ++ ']' :: rest)) =
        some (.point c.toNat, chars ++ ']' :: rest) :=
      setMember?.eq_3 _ _ fun h => hc.2.2.1 h
    have noRange : ∀ more, chars ++ ']' :: rest ≠ '-' :: more :=
      not_head_closed (fun h => plain _ h (by simp)) (by decide) rest
    have goes : afterMember? (left + 1) read (.point c.toNat) (chars ++ ']' :: rest) =
        setItems? (left + 1) (.point c.toNat :: read) (chars ++ ']' :: rest) :=
      afterMember?.eq_3 _ _ _ _ (fun _ => noRange _) noRange
    rw [List.cons_append, setItems?_succ (fun _ h => absurd (List.cons.inj h).1 hc.2.1), member]
    show afterMember? _ _ _ _ = _
    rw [goes, ih plain (by simp) left (by simpa using enough)]
    simp [points]

/-- **Characters in brackets are a set of these characters**, if none of them has a meaning of its
own there. -/
theorem charSet?_points (nonempty : chars ≠ []) (rest : List Char) :
    charSet? (chars ++ ']' :: rest) = some (⟨false, points chars⟩, rest) := by
  have head : (chars ++ ']' :: rest).head? ≠ some '^' := fun h => by
    obtain ⟨more, hmore⟩ := List.head?_eq_some_iff.1 h
    exact not_head_closed (fun h => plain _ h (by simp)) (by decide) rest more hmore
  have enough : chars.length < (chars ++ ']' :: rest).length + 1 := by
    rw [List.length_append]
    omega
  rw [charSet?_plain head, setItems?_points plain (fun h => absurd h nonempty) enough rest]
  rfl

end

end ActionItems.Pattern
