import ActionItems.Proofs.Except
import ActionItems.Proofs.Json.Step

/-!
# How JSON texts are read

The reader, given fuel for all characters of a text, finds out what the text is: it reads a value of
a text that holds one, refuses the first integer with too many digits that it comes to, and any
other text for a fault (`answers_run`, `Reads.runs`, `Meets.runs`). So it is known which texts are
read (`exists_readPoints_iff`) and which are refused for a number (`readPoints_eq_number_iff`).
-/

namespace ActionItems.Json

open ActionItems.Number (IntegerError digitLimit)

variable {c : Cursor} {s rest : List Nat} {fuel : Nat}

/-- What is read of a part has the property `P`, whatever was read before it. -/
def Part.Runs (P : Except Failure (Value × Cursor) → Prop) : Part → Nat → Cursor → Prop
  | .value, fuel, c => P (Json.value fuel c)
  | .entries kind, fuel, c => ∀ held : Held, held.kind = kind → P (held.run fuel c)

theorem runs_full {P : Except Failure (Value × Cursor) → Prop} {kind : Kind}
    (text : c.rest = kind.opening :: s) (filled : (afterGap s).head? ≠ some kind.closing)
    (entries : (Part.entries kind).Runs P fuel (c.advance 1).skip) :
    Part.value.Runs P (fuel + 1) c := by
  show P (value (fuel + 1) c)
  rw [value_opening text, if_neg filled]
  exact entries kind.fresh kind.kind_fresh

/-! ### What is found is there -/

/-- What is found is what there is to read. -/
abbrev Answers (part : Part) (s : List Nat) : Except Failure (Value × Cursor) → Prop :=
  Ends (Reads part s) (MeetsLong part s)

section Sound

variable (value_answers : ∀ c : Cursor, Answers .value c.rest (value fuel c))
  (run_answers : ∀ (held : Held) (c : Cursor),
    Answers (.entries held.kind) c.rest (held.run fuel c))

include run_answers

theorem answers_opening {kind : Kind} (h : c.rest = kind.opening :: s) :
    Answers .value c.rest (value (fuel + 1) c) := by
  have inner := rest_inner h
  rw [value_opening h, h]
  split
  · next closed =>
    obtain ⟨rest, text⟩ := List.head?_eq_some_iff.1 closed
    exact .empty (by rw [text, rest_next (inner.trans text)])
  · next filled =>
    have entries := run_answers kind.fresh (c.advance 1).skip
    rw [Kind.kind_fresh, inner] at entries
    exact entries.imp (fun _ => .full filled) fun n ⟨t, meets, long⟩ =>
      ⟨t, .inside filled meets, long⟩

theorem answers_goOn (held : Held) {t u : List Nat} (starts : held.kind.Starts s t)
    (value : Reads .value t u) (hc : c.rest = afterGap u) :
    Answers (.entries held.kind) s (held.goOn fuel c) := by
  unfold Held.goOn
  split
  · next closed =>
    obtain ⟨rest, text⟩ := List.head?_eq_some_iff.1 closed
    exact .last starts value (by rw [← hc, text, rest_next text])
  · split
    · next comma =>
      obtain ⟨v, text⟩ := List.head?_eq_some_iff.1 comma
      have others := run_answers held (c.advance 1).skip
      rw [rest_inner text] at others
      rw [hc] at text
      exact others.imp (fun _ => .more starts value text) fun n ⟨t, meets, long⟩ =>
        ⟨t, .later starts value text meets, long⟩
    · trivial

include value_answers

theorem answers_run_succ (held : Held) (c : Cursor) :
    Answers (.entries held.kind) c.rest (held.run (fuel + 1) c) := by
  rw [run_succ]
  refine (ends_start held c).bind (fun _ => False.elim) fun key start starts => ?_
  refine (value_answers start).bind (fun n ⟨t, meets, long⟩ => ⟨t, .entry starts meets, long⟩)
    fun v after reads => ?_
  have more :=
    answers_goOn run_answers (held.add key v) (by rwa [Held.kind_add]) reads (rest_skip after)
  rwa [Held.kind_add] at more

end Sound

/-- **The reader finds what there is to read**, whatever fuel it has. -/
theorem answers_run (fuel : Nat) (part : Part) (c : Cursor) :
    part.Runs (Answers part c.rest) fuel c := by
  induction fuel generalizing part c with
  | zero =>
    cases part with
    | value =>
      show Answers .value c.rest (value 0 c)
      rw [value]
      trivial
    | entries kind =>
      rintro (read | read) rfl
      · show Answers _ c.rest (items 0 read c)
        rw [items]
        trivial
      · show Answers _ c.rest (members 0 read c)
        rw [members]
        trivial
  | succ fuel ih =>
    have run_answers (held : Held) (c : Cursor) :
        Answers (.entries held.kind) c.rest (held.run fuel c) :=
      ih (.entries held.kind) c held rfl
    cases part with
    | value =>
      show Answers .value c.rest (value (fuel + 1) c)
      by_cases quote : ∃ s, c.rest = 0x22 :: s
      · obtain ⟨s, text⟩ := quote
        rw [value_quote text, text]
        exact (ends_string _).imp (fun _ closes => .string (rest_next text ▸ closes))
          fun _ => False.elim
      · by_cases opening : ∃ (kind : Kind) (s : List Nat), c.rest = kind.opening :: s
        · obtain ⟨kind, s, text⟩ := opening
          exact answers_opening run_answers text
        · have opens : OpensAtom c.rest := by
            intro n hn
            obtain ⟨s, text⟩ := List.head?_eq_some_iff.1 hn
            exact ⟨fun h => quote ⟨s, h ▸ text⟩, fun kind h => opening ⟨kind, s, h ▸ text⟩⟩
          rw [value_atom opens]
          exact (ends_atom c).imp (fun _ => id) fun n long => ⟨c.rest, .here, long⟩
    | entries kind =>
      rintro held rfl
      exact answers_run_succ (ih .value) run_answers held c

/-! ### What is there is found -/

/-- The fuel that a part needs: for every bracket there are two steps, to the entries and to the
first value. -/
def Part.need : Part → List Nat → Nat
  | .value, s => 2 * s.length + 1
  | .entries _, s => 2 * s.length + 2

theorem exists_fuel {part : Part} (enough : part.need s ≤ fuel) : ∃ left, fuel = left + 1 := by
  cases fuel with
  | zero => cases part <;> cases enough
  | succ left => exact ⟨left, rfl⟩

theorem need_full {kind : Kind} {opening : Nat}
    (enough : Part.value.need (opening :: s) ≤ fuel + 1) :
    (Part.entries kind).need (afterGap s) ≤ fuel := by
  have := length_afterGap_le s
  simp only [Part.need, List.length_cons] at enough ⊢
  omega

theorem need_value {kind : Kind} {t : List Nat} (starts : kind.Starts s t)
    (enough : (Part.entries kind).need s ≤ fuel + 1) : Part.value.need t ≤ fuel := by
  have := starts.length_le
  simp only [Part.need] at enough ⊢
  omega

theorem need_others {kind : Kind} {t u v : List Nat} (starts : kind.Starts s t)
    (value : Reads .value t u) (comma : afterGap u = 0x2C :: v)
    (enough : (Part.entries kind).need s ≤ fuel + 1) :
    (Part.entries kind).need (afterGap v) ≤ fuel := by
  have := starts.length_le
  have := value.length_lt
  have := length_lt_of_afterGap comma
  have := length_afterGap_le v
  simp only [Part.need] at enough ⊢
  omega

/-- **What is there to read is found**, if there is enough fuel. -/
theorem Reads.runs {part : Part} (h : Reads part s rest) {c : Cursor} (text : c.rest = s)
    (enough : part.need s ≤ fuel) : part.Runs (EndsAt rest) fuel c := by
  induction h generalizing c fuel with
  | string closes =>
    obtain ⟨fuel, rfl⟩ := exists_fuel enough
    show EndsAt _ (value (fuel + 1) c)
    rw [value_quote text]
    exact Closes.endsAt_string (by rwa [rest_next text])
  | word isWord hword =>
    obtain ⟨fuel, rfl⟩ := exists_fuel enough
    show EndsAt _ (value (fuel + 1) c)
    rw [value_atom (by rw [text, hword]; exact opensAtom_word isWord _)]
    obtain ⟨v, found⟩ := atom_word isWord (text.trans hword)
    exact ⟨v, _, found, rfl⟩
  | number stands short =>
    obtain ⟨fuel, rfl⟩ := exists_fuel enough
    show EndsAt _ (value (fuel + 1) c)
    subst text
    rw [value_atom (opensAtom_number stands)]
    exact stands.endsAt short
  | empty closed =>
    obtain ⟨fuel, rfl⟩ := exists_fuel enough
    show EndsAt _ (value (fuel + 1) c)
    rw [value_opening text, if_pos (by rw [closed]; rfl)]
    exact ⟨_, _, rfl, rest_next ((rest_inner text).trans closed)⟩
  | full filled entries ih =>
    obtain ⟨fuel, rfl⟩ := exists_fuel enough
    exact runs_full text filled (ih (rest_inner text) (need_full enough))
  | @last kind s t u rest starts reads closed ih =>
    obtain ⟨fuel, rfl⟩ := exists_fuel enough
    rintro held rfl
    obtain ⟨key, v, after, step, behind⟩ :=
      run_of_starts (text ▸ starts) fun start htext => ih htext (need_value starts enough)
    have closing : after.skip.rest = (held.add key v).kind.closing :: rest := by
      rw [behind, closed, Held.kind_add]
    rw [step, goOn_closing closing]
    exact ⟨_, _, rfl, rest_next closing⟩
  | @more kind s t u v rest starts reads comma others ih ih' =>
    obtain ⟨fuel, rfl⟩ := exists_fuel enough
    rintro held rfl
    obtain ⟨key, x, after, step, behind⟩ :=
      run_of_starts (text ▸ starts) fun start htext => ih htext (need_value starts enough)
    have next : after.skip.rest = 0x2C :: v := behind.trans comma
    rw [step, goOn_comma next]
    exact ih' (rest_inner next) (need_others starts reads comma enough) (held.add key x)
      (held.kind_add key x)

/-- **An integer that is too long is refused as soon as it is come to.** -/
theorem Meets.runs {part : Part} {t : List Nat} {n : Nat} (h : Meets part s t)
    (long : LongInteger n t) {c : Cursor} (text : c.rest = s) (enough : part.need s ≤ fuel) :
    part.Runs (fun x => x = .error (.number (.tooLong n))) fuel c := by
  induction h generalizing c fuel with
  | here =>
    obtain ⟨fuel, rfl⟩ := exists_fuel enough
    show value (fuel + 1) c = _
    subst text
    obtain ⟨m, rest, stands, -⟩ := id long
    rw [value_atom (opensAtom_number stands), long.atom_eq]
  | inside filled entries ih =>
    obtain ⟨fuel, rfl⟩ := exists_fuel enough
    exact runs_full text filled (ih long (rest_inner text) (need_full enough))
  | entry starts value ih =>
    obtain ⟨fuel, rfl⟩ := exists_fuel enough
    rintro held rfl
    obtain ⟨key, start, hstart, htext⟩ := Kind.Starts.endsAt (text ▸ starts)
    have refused : Json.value fuel start = _ := ih long htext (need_value starts enough)
    rw [run_succ, hstart]
    show (Json.value fuel start >>= _) = _
    rw [refused]
    rfl
  | @later kind s t u v w starts reads comma others ih =>
    obtain ⟨fuel, rfl⟩ := exists_fuel enough
    rintro held rfl
    obtain ⟨key, x, after, step, behind⟩ :=
      run_of_starts (text ▸ starts) fun start htext => reads.runs htext (need_value starts enough)
    have next : after.skip.rest = 0x2C :: v := behind.trans comma
    rw [step, goOn_comma next]
    exact ih long (rest_inner next) (need_others starts reads comma enough) (held.add key x)
      (held.kind_add key x)

/-! ### Texts -/

section Texts

variable {points : List Nat}

/-- The cursor at the value of a text. -/
def textStart (points : List Nat) : Cursor := Cursor.skip ⟨points, 0⟩

theorem readWhole_eq (h : points.head? ≠ some 0xFEFF) : readWhole points =
    value (2 * points.length + 2) (textStart points) >>= fun (v, after) =>
      if after.skip.rest.isEmpty then .ok v else .error (.at .extraData after.skip.offset) := by
  rw [readWhole, if_neg h]
  rfl

theorem readWhole_mark (h : points.head? = some 0xFEFF) :
    readWhole points = .error (.at .byteOrderMark 0) := by
  rw [readWhole, if_pos h]
  rfl

theorem need_text (points : List Nat) :
    Part.value.need (afterGap points) ≤ 2 * points.length + 2 := by
  have := length_afterGap_le points
  simp only [Part.need]
  omega

theorem not_mark {P : Except Failure (Value × Cursor) → Prop}
    (hP : ∀ fault offset, ¬ P (.error (.at fault offset)))
    (h : P (value (2 * points.length + 2) (textStart points))) : points.head? ≠ some 0xFEFF := by
  intro mark
  obtain ⟨s, rfl⟩ := List.head?_eq_some_iff.1 mark
  have start : (textStart (0xFEFF :: s)).rest = 0xFEFF :: s := by
    rw [textStart, rest_skip]
    rfl
  rw [value_mark start] at h
  exact hP _ _ h

theorem answers_text (points : List Nat) :
    Answers .value (afterGap points) (value (2 * points.length + 2) (textStart points)) := by
  have answers := answers_run (2 * points.length + 2) .value (textStart points)
  rwa [textStart, rest_skip] at answers

theorem isText_of_readWhole {v : Value} (h : readWhole points = .ok v) : IsText points := by
  have unmarked : points.head? ≠ some 0xFEFF := mt readWhole_mark (by rw [h]; nofun)
  rw [readWhole_eq unmarked] at h
  obtain ⟨⟨w, after⟩, found, h⟩ := Except.of_bind_ok h
  have answers := answers_text points
  rw [found] at answers
  dsimp only at h
  split at h
  · next last => exact ⟨after.rest, answers, by rwa [rest_skip, List.isEmpty_iff] at last⟩
  · cases h

theorem meetsLong_of_readWhole {e : IntegerError} (h : readWhole points = .error (.number e)) :
    ∃ n, e = .tooLong n ∧ MeetsLong .value (afterGap points) n := by
  have unmarked : points.head? ≠ some 0xFEFF := mt readWhole_mark (by rw [h]; nofun)
  rw [readWhole_eq unmarked] at h
  have answers := answers_text points
  cases found : value (2 * points.length + 2) (textStart points) with
  | error failure =>
    rw [found] at h answers
    cases h
    exact answers
  | ok result =>
    rw [found] at h
    change (if _ then _ else _) = _ at h
    split at h <;> cases h

theorem IsText.readWhole (h : IsText points) : ∃ v, readWhole points = .ok v := by
  obtain ⟨rest, reads, last⟩ := h
  have found : EndsAt rest (value (2 * points.length + 2) (textStart points)) :=
    reads.runs (rest_skip _) (need_text points)
  have unmarked :=
    not_mark (P := EndsAt rest) (by rintro fault offset ⟨v, after, h, -⟩; cases h) found
  obtain ⟨v, after, hvalue, rfl⟩ := found
  have empty : after.skip.rest.isEmpty = true := by rw [rest_skip, last]; rfl
  refine ⟨v, ?_⟩
  rw [readWhole_eq unmarked, hvalue]
  exact if_pos empty

theorem MeetsLong.readWhole {n : Nat} (h : MeetsLong .value (afterGap points) n) :
    readWhole points = .error (.number (.tooLong n)) := by
  obtain ⟨t, meets, long⟩ := h
  have refused : value (2 * points.length + 2) (textStart points) = .error (.number (.tooLong n)) :=
    meets.runs long (rest_skip _) (need_text points)
  have unmarked :=
    not_mark (P := fun x => x = .error (.number (.tooLong n))) (by rintro fault offset ⟨⟩) refused
  rw [readWhole_eq unmarked, refused]
  rfl

/-- **A text is read if and only if it holds a value and nothing else.** -/
theorem exists_readPoints_iff : (∃ v, readPoints points = .ok v) ↔ IsText points := by
  unfold readPoints
  constructor
  · rintro ⟨v, h⟩
    split at h
    · next found => exact isText_of_readWhole found
    · cases h
    · cases h
  · intro h
    obtain ⟨v, found⟩ := h.readWhole
    exact ⟨v, by rw [found]⟩

/-- **A text is refused for a number if and only if an integer with too many digits is come to.** -/
theorem readPoints_eq_number_iff {e : IntegerError} :
    readPoints points = .error (.number e) ↔
      ∃ n, e = .tooLong n ∧ MeetsLong .value (afterGap points) n := by
  unfold readPoints
  constructor
  · intro h
    split at h
    · cases h
    · cases h
    · next found =>
      cases h
      exact meetsLong_of_readWhole found
  · rintro ⟨n, rfl, h⟩
    rw [h.readWhole]

end Texts

end ActionItems.Json
