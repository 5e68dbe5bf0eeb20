import ActionItems.Proofs.Except
import ActionItems.Proofs.Pattern.Token

/-!
# How patterns are read

`Reads` says which pattern is read of a text, and up to where; `Refuses` says that the reading comes
upon bounds that are refused. Neither knows of a bound on the steps: the reader, given as much fuel
as there are characters to read, finds out which of them holds (`answers_run`, `Reads.run`,
`Refuses.run`), so they tell what is a pattern and what is refused (`read_eq_ok_iff`,
`read_eq_error_iff`).
-/

namespace ActionItems.Pattern

variable [CharNames]

/-- What is to be read: the parts of a sequence, after those read so far in reverse, or
alternatives. -/
inductive Task where
  | parts (read : List Node)
  | alternatives

/-- Reads what a task asks for. -/
def Task.run : Task → Nat → Source → Except ReadError (Node × Source)
  | .parts read, fuel, source => Pattern.parts fuel read source
  | .alternatives, fuel, source => Pattern.alternatives fuel source

/-- The fuel that a task needs. -/
def Task.need : Task → Source → Nat
  | .parts _, source => 2 * source.rest.length + 1
  | .alternatives, source => 2 * source.rest.length + 2

/-- What is read of a text, and what is left of it. -/
inductive Reads : Task → Source → Node → Source → Prop
  | stop {read : List Node} {source : Source} {rest : List Char}
    (token : source.token = .ok (.stop, rest)) :
    Reads (.parts read) source (sequence read) source
  | part {read : List Node} {source : Source} {part : Node} {rest : List Char} {node : Node}
    {after : Source} (token : source.token = .ok (.part part, rest))
    (more : Reads (.parts (part :: read)) { source with rest } node after) :
    Reads (.parts read) source node after
  | repeated {read read' : List Node} {source : Source} {least : Nat} {greatest : Option Nat}
    {rest rest' : List Char} {node : Node} {after : Source}
    (token : source.token = .ok (.repeated least greatest, rest))
    (last : repeatLast read least greatest rest = .ok (read', rest'))
    (more : Reads (.parts read') { source with rest := rest' } node after) :
    Reads (.parts read) source node after
  | group {read : List Node} {source : Source} {rest rest' : List Char} {body : Node}
    {closed : Source} {node : Node} {after : Source} (token : source.token = .ok (.opening, rest))
    (inner : Reads .alternatives (source.inner rest) body closed)
    (close : closed.rest = ')' :: rest')
    (more : Reads (.parts (.group (source.groups + 1) body :: read)) ⟨rest', closed.groups,
      source.unclosed⟩ node after) : Reads (.parts read) source node after
  | one {source : Source} {node : Node} {after : Source}
    (first : Reads (.parts []) source node after) (last : after.rest.head? ≠ some '|') :
    Reads .alternatives source node after
  | more {source : Source} {first second : Node} {mid after : Source} {rest : List Char}
    (one : Reads (.parts []) source first mid) (bar : mid.rest = '|' :: rest)
    (others : Reads .alternatives { mid with rest } second after) :
    Reads .alternatives source (.alt first second) after

/-- The reading of a text comes upon bounds that are refused. -/
inductive Refuses (e : ReadError) : Task → Source → Prop
  | here {read : List Node} {source : Source} (token : source.token = .error e) :
    Refuses e (.parts read) source
  | part {read : List Node} {source : Source} {part : Node} {rest : List Char}
    (token : source.token = .ok (.part part, rest))
    (more : Refuses e (.parts (part :: read)) { source with rest }) : Refuses e (.parts read) source
  | repeated {read read' : List Node} {source : Source} {least : Nat} {greatest : Option Nat}
    {rest rest' : List Char} (token : source.token = .ok (.repeated least greatest, rest))
    (last : repeatLast read least greatest rest = .ok (read', rest'))
    (more : Refuses e (.parts read') { source with rest := rest' }) : Refuses e (.parts read) source
  | inside {read : List Node} {source : Source} {rest : List Char}
    (token : source.token = .ok (.opening, rest))
    (inner : Refuses e .alternatives (source.inner rest)) : Refuses e (.parts read) source
  | behind {read : List Node} {source : Source} {rest rest' : List Char} {body : Node}
    {closed : Source} (token : source.token = .ok (.opening, rest))
    (inner : Reads .alternatives (source.inner rest) body closed)
    (close : closed.rest = ')' :: rest')
    (more : Refuses e (.parts (.group (source.groups + 1) body :: read)) ⟨rest', closed.groups,
      source.unclosed⟩) :
    Refuses e (.parts read) source
  | first {source : Source} (first : Refuses e (.parts []) source) : Refuses e .alternatives source
  | later {source : Source} {first : Node} {mid : Source} {rest : List Char}
    (one : Reads (.parts []) source first mid) (bar : mid.rest = '|' :: rest)
    (others : Refuses e .alternatives { mid with rest }) : Refuses e .alternatives source

/-! ### Steps of the reader -/

/-- The alternatives after the first one. -/
def afterFirst (fuel : Nat) (first : Node) (mid : Source) : Except ReadError (Node × Source) :=
  match mid.rest with
  | '|' :: rest => do
    let (second, after) ← alternatives fuel { mid with rest }
    return (.alt first second, after)
  | _ => .ok (first, mid)

theorem alternatives_succ (fuel : Nat) (source : Source) : alternatives (fuel + 1) source =
    parts fuel [] source >>= fun (first, mid) => afterFirst fuel first mid := by
  rw [alternatives]
  rfl

section Steps

variable {fuel : Nat} {read read' : List Node} {source mid : Source} {rest rest' : List Char}
  {least : Nat} {greatest : Option Nat} {node : Node} {e : ReadError}

theorem run_parts {t : Token} (token : source.token = .ok (t, rest)) :
    (Task.parts read).run (fuel + 1) source = afterToken fuel read source (t, rest) := by
  show parts (fuel + 1) read source = _
  rw [parts_succ, token]
  rfl

theorem run_repeated (token : source.token = .ok (.repeated least greatest, rest))
    (last : repeatLast read least greatest rest = .ok (read', rest')) :
    (Task.parts read).run (fuel + 1) source =
      (Task.parts read').run fuel { source with rest := rest' } := by
  rw [run_parts token, afterToken, last]
  rfl

theorem run_opening (token : source.token = .ok (.opening, rest)) :
    (Task.parts read).run (fuel + 1) source =
      Task.alternatives.run fuel (source.inner rest) >>= fun (body, closed) =>
        afterGroup fuel read source body closed :=
  run_parts token

theorem run_group {body : Node} {closed : Source} (token : source.token = .ok (.opening, rest))
    (inner : Task.alternatives.run fuel (source.inner rest) = .ok (body, closed))
    (close : closed.rest = ')' :: rest') : (Task.parts read).run (fuel + 1) source =
      (Task.parts (.group (source.groups + 1) body :: read)).run fuel
        ⟨rest', closed.groups, source.unclosed⟩ := by
  rw [run_opening token, inner]
  show afterGroup fuel read source body closed = _
  rw [afterGroup, close]
  rfl

theorem run_alternatives : Task.alternatives.run (fuel + 1) source =
    (Task.parts []).run fuel source >>= fun (first, mid) => afterFirst fuel first mid :=
  alternatives_succ fuel source

theorem run_one (one : (Task.parts []).run fuel source = .ok (node, mid))
    (last : mid.rest.head? ≠ some '|') :
    Task.alternatives.run (fuel + 1) source = .ok (node, mid) := by
  rw [run_alternatives, one]
  show afterFirst fuel node mid = _
  unfold afterFirst
  split
  · next rest bar =>
    rw [bar] at last
    exact absurd rfl last
  · rfl

theorem run_more (one : (Task.parts []).run fuel source = .ok (node, mid))
    (bar : mid.rest = '|' :: rest) :
    Task.alternatives.run (fuel + 1) source =
      Task.alternatives.run fuel { mid with rest } >>= fun (second, after) =>
        .ok (.alt node second, after) := by
  rw [run_alternatives, one]
  show afterFirst fuel node mid = _
  rw [afterFirst, bar]
  rfl

end Steps

/-! ### What the reader finds -/

omit [CharNames] in
theorem repeatLast_error {read : List Node} {least : Nat} {greatest : Option Nat} {s : List Char}
    {e : ReadError} (h : repeatLast read least greatest s = .error e) : e = .malformed := by
  unfold repeatLast at h
  dsimp only at h
  split at h <;> cases h <;> rfl

/-- A result answers to what is read, to a text that is malformed or to one that is refused. -/
def Answers (task : Task) (source : Source) : Except ReadError (Node × Source) → Prop
  | .ok (node, after) => Reads task source node after
  | .error e => e = .malformed ∨ Refuses e task source

theorem Answers.imp {task task' : Task} {source source' : Source}
    {r : Except ReadError (Node × Source)} (h : Answers task source r)
    (reads : ∀ node after, Reads task source node after → Reads task' source' node after)
    (refuses : ∀ e, Refuses e task source → Refuses e task' source') : Answers task' source' r := by
  cases r with
  | ok result => exact reads _ _ h
  | error e => exact h.imp_right (refuses e)

section

variable {fuel : Nat} (ih : ∀ task source, Answers task source (task.run fuel source))

include ih

theorem answers_group {read : List Node} {source : Source} {rest : List Char}
    (token : source.token = .ok (.opening, rest)) :
    Answers (.parts read) source ((Task.parts read).run (fuel + 1) source) := by
  have inside := ih .alternatives (source.inner rest)
  rw [run_opening token]
  cases group : Task.alternatives.run fuel (source.inner rest) with
  | error e =>
    rw [group] at inside
    exact inside.imp_right (.inside token)
  | ok result =>
    obtain ⟨body, closed⟩ := result
    rw [group] at inside
    show Answers (.parts read) source (afterGroup fuel read source body closed)
    unfold afterGroup
    split
    · next close =>
      exact (ih (.parts _) _).imp (fun _ _ => .group token inside close) fun _ =>
        .behind token inside close
    · exact .inl rfl

theorem answers_parts (read : List Node) (source : Source) :
    Answers (.parts read) source ((Task.parts read).run (fuel + 1) source) := by
  cases token : source.token with
  | error e =>
    show Answers (.parts read) source (parts (fuel + 1) read source)
    rw [parts_succ, token]
    exact .inr (.here token)
  | ok next =>
    obtain ⟨t, rest⟩ := next
    cases t with
    | stop =>
      rw [run_parts token]
      exact .stop token
    | part part =>
      rw [run_parts token]
      exact (ih (.parts (part :: read)) _).imp (fun _ _ => .part token) fun _ => .part token
    | repeated least greatest =>
      cases last : repeatLast read least greatest rest with
      | error e =>
        rw [run_parts token, afterToken, last]
        exact .inl (repeatLast_error last)
      | ok result =>
        rw [run_repeated token last]
        exact (ih (.parts result.1) _).imp (fun _ _ => .repeated token last) fun _ =>
          .repeated token last
    | opening => exact answers_group ih token

theorem answers_alternatives (source : Source) :
    Answers .alternatives source (Task.alternatives.run (fuel + 1) source) := by
  have first := ih (.parts []) source
  rw [run_alternatives]
  cases one : (Task.parts []).run fuel source with
  | error e =>
    rw [one] at first
    exact first.imp_right .first
  | ok result =>
    obtain ⟨node, mid⟩ := result
    rw [one] at first
    show Answers .alternatives source (afterFirst fuel node mid)
    unfold afterFirst
    split
    · next rest bar =>
      have others := ih .alternatives { mid with rest }
      change Answers _ _ (alternatives fuel { mid with rest }) at others
      cases more : alternatives fuel { mid with rest } with
      | error e =>
        rw [more] at others
        exact others.imp_right (.later first bar)
      | ok result =>
        rw [more] at others
        exact .more first bar others
    · next last =>
      refine .one first fun h => ?_
      obtain ⟨rest, hrest⟩ := List.head?_eq_some_iff.1 h
      exact last rest hrest

end

/-- **The reader answers to what there is to read.** -/
theorem answers_run (fuel : Nat) (task : Task) (source : Source) :
    Answers task source (task.run fuel source) := by
  induction fuel generalizing task source with
  | zero => cases task <;> exact .inl rfl
  | succ fuel ih =>
    cases task with
    | parts read => exact answers_parts ih read source
    | alternatives => exact answers_alternatives ih source

/-! ### What is read is found -/

omit [CharNames] in
theorem suffix_of_repeatLast {read read' : List Node} {least : Nat} {greatest : Option Nat}
    {s rest : List Char} (h : repeatLast read least greatest s = .ok (read', rest)) :
    rest <:+ s := by
  unfold repeatLast at h
  dsimp only at h
  split at h
  · cases h
  · cases h
  · cases h
  · cases h
    split
    · exact List.suffix_cons _ _
    · exact List.suffix_refl _

theorem suffix_of_token {source : Source} {t : Token} {rest : List Char}
    (h : source.token = .ok (t, rest)) (ht : t ≠ .stop) : rest <:+ source.rest := by
  obtain ⟨taken, -, htaken⟩ := shorter_of_token h ht
  exact ⟨taken, htaken.symm⟩

theorem Reads.suffix {task : Task} {source after : Source} {node : Node}
    (h : Reads task source node after) : after.rest <:+ source.rest := by
  induction h with
  | stop token => exact List.suffix_refl _
  | part token more ih => exact ih.trans (suffix_of_token token (by simp))
  | repeated token last more ih =>
    exact ih.trans ((suffix_of_repeatLast last).trans (suffix_of_token token (by simp)))
  | group token inner close more ih ih' =>
    rw [close] at ih
    exact ih'.trans ((List.suffix_cons _ _).trans (ih.trans (suffix_of_token token (by simp))))
  | one first last ih => exact ih
  | more one bar others ih ih' =>
    rw [bar] at ih
    exact ih'.trans ((List.suffix_cons _ _).trans ih)

theorem Reads.suffix_behind {task : Task} {source after : Source} {node : Node} {c : Char}
    {rest : List Char} (h : Reads task source node after) (hc : after.rest = c :: rest) :
    rest <:+ source.rest :=
  (List.suffix_cons c rest).trans (hc ▸ h.suffix)

section Fuel

variable {fuel : Nat} {read : List Node} {source : Source} {rest rest' : List Char}

omit [CharNames] in
theorem exists_fuel {task : Task} (enough : task.need source ≤ fuel) : ∃ left, fuel = left + 1 := by
  cases fuel with
  | zero => cases task <;> cases enough
  | succ left => exact ⟨left, rfl⟩

/-- The fuel that is left after a token is enough for every task further on. -/
theorem need_of_token {t : Token} (token : source.token = .ok (t, rest)) (ht : t ≠ .stop)
    (within : rest' <:+ rest) (enough : (Task.parts read).need source ≤ fuel + 1) (task : Task)
    (groups : Nat) (unclosed : List Nat) : task.need ⟨rest', groups, unclosed⟩ ≤ fuel := by
  obtain ⟨taken, hne, htaken⟩ := shorter_of_token token ht
  have some := List.length_pos_iff.2 hne
  have shorter := within.length_le
  rw [Task.need, htaken, List.length_append] at enough
  cases task <;> dsimp only [Task.need] <;> omega

omit [CharNames] in
theorem need_of_one (enough : Task.alternatives.need source ≤ fuel + 1) :
    (Task.parts []).need source ≤ fuel :=
  Nat.le_of_succ_le_succ enough

omit [CharNames] in
theorem need_of_bar (within : '|' :: rest <:+ source.rest)
    (enough : Task.alternatives.need source ≤ fuel + 1) (groups : Nat) (unclosed : List Nat) :
    Task.alternatives.need ⟨rest, groups, unclosed⟩ ≤ fuel := by
  have shorter := within.length_le
  rw [List.length_cons] at shorter
  dsimp only [Task.need] at enough ⊢
  omega

end Fuel

/-- **What is read is found**, if there is enough fuel. -/
theorem Reads.run {task : Task} {source after : Source} {node : Node}
    (h : Reads task source node after) {fuel : Nat} (enough : task.need source ≤ fuel) :
    task.run fuel source = .ok (node, after) := by
  induction h generalizing fuel with
  | stop token =>
    obtain ⟨fuel, rfl⟩ := exists_fuel enough
    exact run_parts token
  | part token more ih =>
    obtain ⟨fuel, rfl⟩ := exists_fuel enough
    exact (run_parts token).trans
      (ih (need_of_token token (by simp) (List.suffix_refl _) enough ..))
  | repeated token last more ih =>
    obtain ⟨fuel, rfl⟩ := exists_fuel enough
    exact (run_repeated token last).trans
      (ih (need_of_token token (by simp) (suffix_of_repeatLast last) enough ..))
  | group token inner close more ih ih' =>
    obtain ⟨fuel, rfl⟩ := exists_fuel enough
    have found := ih (need_of_token token (by simp) (List.suffix_refl _) enough ..)
    exact (run_group token found close).trans
      (ih' (need_of_token token (by simp) (inner.suffix_behind close) enough ..))
  | one first last ih =>
    obtain ⟨fuel, rfl⟩ := exists_fuel enough
    exact run_one (ih (need_of_one enough)) last
  | @more source first second mid after rest one bar others ih ih' =>
    obtain ⟨fuel, rfl⟩ := exists_fuel enough
    have found : Task.alternatives.run fuel { mid with rest } = .ok (second, after) :=
      ih' (need_of_bar (bar ▸ one.suffix) enough ..)
    rw [run_more (ih (need_of_one enough)) bar, found]
    rfl

/-- **Bounds that are refused are found**, if there is enough fuel. -/
theorem Refuses.run {e : ReadError} {task : Task} {source : Source} (h : Refuses e task source)
    {fuel : Nat} (enough : task.need source ≤ fuel) : task.run fuel source = .error e := by
  induction h generalizing fuel with
  | @here read source token =>
    obtain ⟨fuel, rfl⟩ := exists_fuel enough
    show parts (fuel + 1) read source = _
    rw [parts_succ, token]
    rfl
  | part token more ih =>
    obtain ⟨fuel, rfl⟩ := exists_fuel enough
    exact (run_parts token).trans
      (ih (need_of_token token (by simp) (List.suffix_refl _) enough ..))
  | repeated token last more ih =>
    obtain ⟨fuel, rfl⟩ := exists_fuel enough
    exact (run_repeated token last).trans
      (ih (need_of_token token (by simp) (suffix_of_repeatLast last) enough ..))
  | inside token inner ih =>
    obtain ⟨fuel, rfl⟩ := exists_fuel enough
    rw [run_opening token, ih (need_of_token token (by simp) (List.suffix_refl _) enough ..)]
    rfl
  | behind token inner close more ih =>
    obtain ⟨fuel, rfl⟩ := exists_fuel enough
    have found := inner.run (need_of_token token (by simp) (List.suffix_refl _) enough ..)
    exact (run_group token found close).trans
      (ih (need_of_token token (by simp) (inner.suffix_behind close) enough ..))
  | first first ih =>
    obtain ⟨fuel, rfl⟩ := exists_fuel enough
    rw [run_alternatives, ih (need_of_one enough)]
    rfl
  | @later source first mid rest one bar others ih =>
    obtain ⟨fuel, rfl⟩ := exists_fuel enough
    have found : Task.alternatives.run fuel { mid with rest } = .error e :=
      ih (need_of_bar (bar ▸ one.suffix) enough ..)
    rw [run_more (one.run (need_of_one enough)) bar, found]
    rfl

/-! ### Whole patterns -/

theorem read_eq (s : List Char) : read s =
    Task.run .alternatives (Task.need .alternatives { rest := s }) { rest := s } >>=
      fun (node, after) => if after.rest.isEmpty then .ok node else .error .malformed := rfl

/-- **A text is a pattern if and only if it is read to its end.** -/
theorem read_eq_ok_iff {s : List Char} {node : Node} :
    read s = .ok node ↔ ∃ after, Reads .alternatives { rest := s } node after ∧
      after.rest = [] := by
  rw [read_eq]
  constructor
  · intro h
    obtain ⟨⟨node', after⟩, hrun, h⟩ := Except.of_bind_ok h
    have reads := answers_run (Task.need .alternatives { rest := s }) .alternatives { rest := s }
    rw [hrun] at reads
    dsimp only at h
    split at h
    · next empty =>
      cases h
      exact ⟨after, reads, List.isEmpty_iff.1 empty⟩
    · cases h
  · rintro ⟨after, reads, empty⟩
    rw [reads.run (Nat.le_refl _)]
    exact if_pos (List.isEmpty_iff.2 empty)

/-- **A text is refused, and not only malformed, if and only if its reading comes upon refused
bounds.** -/
theorem read_eq_error_iff {s : List Char} {e : ReadError} (he : e ≠ .malformed) :
    read s = .error e ↔ Refuses e .alternatives { rest := s } := by
  rw [read_eq]
  constructor
  · intro h
    have answer := answers_run (Task.need .alternatives { rest := s }) .alternatives { rest := s }
    cases hrun : Task.run .alternatives (Task.need .alternatives { rest := s }) { rest := s } with
    | error e' =>
      rw [hrun] at h answer
      cases h
      exact answer.resolve_left he
    | ok result =>
      rw [hrun] at h
      obtain ⟨node, after⟩ := result
      change (if after.rest.isEmpty then _ else _) = _ at h
      split at h
      · cases h
      · cases h
        exact absurd rfl he
  · intro refuses
    rw [refuses.run (Nat.le_refl _)]
    rfl

end ActionItems.Pattern
