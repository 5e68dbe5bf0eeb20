import ActionItems.Proofs.Diff.Reading

/-!
# Two diffs that differ in the text of one line

Two readings that differ in the text of at most one recorded line (`Alike`) stay so over any further
line (`Alike.step`), as no step looks at the texts that were recorded. A line with a plus brings
such a difference about (`alike_step_plus`), if neither of its two texts makes it a file header. So
two lists of lines that differ in the text of one such line are read alike (`agree_of_lines`), and
so are two diffs (`agree_of_splitLines`).
-/

namespace ActionItems.Diff

open ActionItems.Text

/-! ### Tables that differ in one text -/

/-- Two tables of added lines are the same but for the text of at most one line, which is `old` in
the first and `new` in the second. -/
inductive Retexted (old new : String) : Keyed (List AddedLine) → Keyed (List AddedLine) → Prop
  | same (files : Keyed (List AddedLine)) : Retexted old new files files
  | here (path file : String) (line : Nat) (first rest : List AddedLine)
    (files : Keyed (List AddedLine)) :
    Retexted old new ((path, first ++ ⟨file, line, old⟩ :: rest) :: files)
      ((path, first ++ ⟨file, line, new⟩ :: rest) :: files)
  | there (e : String × List AddedLine) {files files' : Keyed (List AddedLine)}
    (h : Retexted old new files files') : Retexted old new (e :: files) (e :: files')

/-- The files in order, each with the numbers of its added lines. -/
def shape (files : Keyed (List AddedLine)) : Keyed (List Nat) :=
  files.mapValues (·.map AddedLine.line)

namespace Retexted

variable {old new : String} {files files' : Keyed (List AddedLine)}

theorem shape_eq (h : Retexted old new files files') : shape files' = shape files := by
  induction h with
  | same => rfl
  | here path file line first rest files => simp [shape, Keyed.mapValues]
  | there e h ih =>
    unfold shape Keyed.mapValues at ih ⊢
    rw [List.map_cons, List.map_cons, ih]

theorem put (h : Retexted old new files files') (key : String) (lines : List AddedLine) :
    Retexted old new (files.put key lines) (files'.put key lines) := by
  induction h with
  | same => exact .same _
  | here path file line first rest files =>
    unfold Keyed.put
    split
    · exact .same _
    · exact .here path file line first rest _
  | there e h ih =>
    unfold Keyed.put
    split
    · exact .there _ h
    · exact .there _ ih

/-- A line put into one place twice, with either text. -/
theorem put_append (files : Keyed (List AddedLine)) (key file : String) (line : Nat)
    (lines : List AddedLine) :
    Retexted old new (files.put key (lines ++ [⟨file, line, old⟩]))
      (files.put key (lines ++ [⟨file, line, new⟩])) := by
  induction files with
  | nil => exact .here key file line lines [] []
  | cons e files ih =>
    unfold Keyed.put
    split
    · exact .here _ file line lines [] files
    · exact .there _ ih

theorem find? (h : Retexted old new files files') (key : String) :
    (files.find? key = none ∧ files'.find? key = none) ∨
      ∃ lines lines', files.find? key = some lines ∧ files'.find? key = some lines' ∧
        ∀ l, Retexted old new (files.put key (lines ++ [l])) (files'.put key (lines' ++ [l])) := by
  induction h with
  | same files =>
    cases hf : Keyed.find? key files with
    | none => exact .inl ⟨rfl, rfl⟩
    | some lines => exact .inr ⟨lines, lines, rfl, rfl, fun l => .same _⟩
  | here path file line first rest files =>
    unfold Keyed.find? Keyed.put
    by_cases hk : path = key
    · refine .inr ⟨_, _, if_pos hk, if_pos hk, fun l => ?_⟩
      rw [if_pos hk, if_pos hk, List.append_assoc, List.append_assoc, List.cons_append,
        List.cons_append]
      exact .here path file line first (rest ++ [l]) files
    · simp only [hk, if_false]
      cases hf : Keyed.find? key files with
      | none => exact .inl ⟨rfl, rfl⟩
      | some lines =>
        exact .inr ⟨lines, lines, rfl, rfl, fun l => .here path file line first rest _⟩
  | there e h ih =>
    unfold Keyed.find? Keyed.put
    by_cases hk : e.1 = key
    · exact .inr ⟨e.2, e.2, if_pos hk, if_pos hk, fun l => by
        rw [if_pos hk, if_pos hk]; exact .there _ h⟩
    · simp only [hk, if_false]
      obtain hnone | ⟨lines, lines', hf, hf', hput⟩ := ih
      · exact .inl hnone
      · exact .inr ⟨lines, lines', hf, hf', fun l => .there e (hput l)⟩

end Retexted

/-! ### Readings side by side -/

/-- Two readings fail in the same way, or neither fails and the results are related. -/
def Agree {ε α : Type} (R : α → α → Prop) : Except ε α → Except ε α → Prop
  | .ok a, .ok b => R a b
  | .error e, .error f => e = f
  | _, _ => False

section

variable {ε α β γ : Type} {R : α → α → Prop} {S : β → β → Prop}

theorem Agree.bind {x y : Except ε α} {f g : α → Except ε β} (h : Agree R x y)
    (hf : ∀ a b, R a b → Agree S (f a) (g b)) : Agree S (x >>= f) (y >>= g) := by
  cases x with
  | error e =>
    cases y with
    | error e' => exact h
    | ok b => exact h.elim
  | ok a =>
    cases y with
    | error e' => exact h.elim
    | ok b => exact hf a b h

/-- What each step keeps, a run keeps. -/
theorem Agree.foldlM {f : α → γ → Except ε α} (hstep : ∀ a b x, R a b → Agree R (f a x) (f b x))
    (xs : List γ) {a b : α} (h : R a b) : Agree R (xs.foldlM f a) (xs.foldlM f b) := by
  induction xs generalizing a b with
  | nil => exact h
  | cons x xs ih =>
    rw [List.foldlM_cons, List.foldlM_cons]
    exact (hstep a b x h).bind fun a' b' h' => ih h'

theorem Agree.map_eq {x y : Except ε α} {f g : α → β} (h : Agree R x y)
    (hf : ∀ a b, R a b → g b = f a) : y.map g = x.map f := by
  cases x with
  | error e =>
    cases y with
    | error e' => exact congrArg Except.error (Eq.symm h)
    | ok b => exact h.elim
  | ok a =>
    cases y with
    | error e' => exact h.elim
    | ok b => exact congrArg Except.ok (hf a b h)

theorem Agree.refl (hR : ∀ a, R a a) (x : Except ε α) : Agree R x x := by
  cases x with
  | error e => exact rfl
  | ok a => exact hR a

end

namespace Progress

variable {ignored : String → Bool} {old new : String} {p q : Progress}

/-- Two readings stand at the same place, and what they read differs in one text at most. -/
structure Alike (old new : String) (p q : Progress) : Prop where
  files : Retexted old new p.files q.files
  rest : q = { p with files := q.files }

theorem Alike.refl (p : Progress) : Alike old new p p := ⟨.same _, rfl⟩

theorem Alike.openFile (h : Alike old new p q) (text : List Char) :
    Alike old new (p.openFile ignored text) (q.openFile ignored text) := by
  obtain ⟨hf, hr⟩ := h
  rw [hr]
  unfold Progress.openFile
  cases headerPath? text with
  | none => exact ⟨hf, rfl⟩
  | some path =>
    dsimp only
    split
    · exact ⟨hf, rfl⟩
    · exact ⟨hf.put path [], rfl⟩

theorem Alike.openHunk (h : Alike old new p q) (line : List Char) :
    Agree (Alike old new) (p.openHunk line) (q.openHunk line) := by
  obtain ⟨hf, hr⟩ := h
  rw [hr]
  unfold Progress.openHunk
  match hunkStart? line with
  | .error e => exact rfl
  | .ok none => exact ⟨hf, rfl⟩
  | .ok (some start) => exact ⟨hf, rfl⟩

theorem Alike.add (h : Alike old new p q) (path : String) (text : List Char) :
    Agree (Alike old new) (p.add path text) (q.add path text) := by
  obtain ⟨hf, hr⟩ := h
  rw [hr]
  unfold Progress.add
  obtain ⟨hnone, hnone'⟩ | ⟨lines, lines', hsome, hsome', hput⟩ := hf.find? path
  · rw [hnone, hnone']
    exact rfl
  · rw [hsome, hsome']
    cases AddedLine.make path p.line (String.ofList text) with
    | error e => exact rfl
    | ok l => exact ⟨hput l, rfl⟩

theorem Alike.count (h : Alike old new p q) (line : List Char) :
    Alike old new (p.count line) (q.count line) := by
  obtain ⟨hf, hr⟩ := h
  rw [hr]
  unfold Progress.count
  cases isAbsent line with
  | true => exact ⟨hf, rfl⟩
  | false => exact ⟨hf, rfl⟩

theorem Alike.body (h : Alike old new p q) (line : List Char) :
    Agree (Alike old new) (p.body line) (q.body line) := by
  have hin : q.inHunk = p.inHunk := by rw [h.rest]
  have hcur : q.current? = p.current? := by rw [h.rest]
  unfold Progress.body
  rw [hin, hcur]
  split
  · exact h.openHunk line
  · split
    · exact h.add _ _
    · exact h

/-- **A line is read alike** by readings that differ in a text. -/
theorem Alike.step (h : Alike old new p q) (line : List Char) :
    Agree (Alike old new) (p.step ignored line) (q.step ignored line) := by
  have hskip : q.skipping = p.skipping := by rw [h.rest]
  cases hd : dropStart? fileMark line with
  | some text =>
    unfold Progress.step
    rw [hd]
    exact h.openFile text
  | none =>
    cases hs : p.skipping with
    | true =>
      rw [step_of_skipping hd hs, step_of_skipping hd (hskip.trans hs)]
      exact h
    | false =>
      rw [step_eq_body hd hs, step_eq_body hd (hskip.trans hs)]
      exact (h.body line).bind fun a b hab => hab.count line

theorem alike_body_plus (t u : List Char) (p : Progress) :
    Agree (Alike (String.ofList t) (String.ofList u)) (p.body ('+' :: t)) (p.body ('+' :: u)) := by
  rw [body_plus, body_plus]
  split
  · next path hin hcur =>
    unfold Progress.add
    cases p.files.find? path with
    | none => exact rfl
    | some lines =>
      unfold AddedLine.make
      by_cases hline : (p.line : Int) < 1
      · simp only [hline, if_true]
        exact rfl
      by_cases hpath : path.isEmpty = true
      · simp only [hline, hpath, if_false, if_true]
        exact rfl
      simp only [hline, hpath, if_false]
      exact ⟨.put_append p.files path path _ lines, rfl⟩
  · exact Alike.refl p

/-- Two texts of an added line, neither of which makes it a file header, are read alike. -/
theorem alike_step_plus {t u : List Char} (ht : ¬ "++ ".toList <+: t) (hu : ¬ "++ ".toList <+: u)
    (p : Progress) :
    Agree (Alike (String.ofList t) (String.ofList u)) (p.step ignored ('+' :: t))
      (p.step ignored ('+' :: u)) := by
  cases hs : p.skipping with
  | true =>
    rw [step_of_skipping (dropStart?_plus ht) hs, step_of_skipping (dropStart?_plus hu) hs]
    exact Alike.refl p
  | false =>
    rw [step_eq_body (dropStart?_plus ht) hs, step_eq_body (dropStart?_plus hu) hs]
    refine (alike_body_plus t u p).bind fun a b hab => ?_
    have hcount := hab.count ('+' :: t)
    rw [count_plus a, count_plus b] at hcount
    rw [count_plus, count_plus]
    exact hcount

/-- Lists of lines that differ in the text of one added line are read alike from any place. -/
theorem agree_of_lines (before after : List (List Char)) {t u : List Char}
    (ht : ¬ "++ ".toList <+: t) (hu : ¬ "++ ".toList <+: u) (p : Progress) :
    Agree (Alike (String.ofList t) (String.ofList u))
      ((before ++ ('+' :: t) :: after).foldlM (Progress.step ignored) p)
      ((before ++ ('+' :: u) :: after).foldlM (Progress.step ignored) p) := by
  rw [List.foldlM_append, List.foldlM_append]
  refine (Agree.refl (R := Eq) (fun _ => rfl) _).bind fun a b hab => ?_
  subst hab
  rw [List.foldlM_cons, List.foldlM_cons]
  exact (alike_step_plus ht hu a).bind fun a' b' hab =>
    Agree.foldlM (fun _ _ line h => h.step line) after hab

end Progress

theorem agree_of_map_splitLines (ignored : String → Bool) {diff diff' : String}
    {before after : List (List Char)} {t u : List Char}
    (hd : (splitLines diff.toList).map dropReturns = before ++ ('+' :: t) :: after)
    (hd' : (splitLines diff'.toList).map dropReturns = before ++ ('+' :: u) :: after)
    (ht : ¬ "++ ".toList <+: t) (hu : ¬ "++ ".toList <+: u) :
    Agree (Retexted (String.ofList t) (String.ofList u)) (addedLines ignored diff)
      (addedLines ignored diff') := by
  unfold addedLines
  rw [hd, hd']
  exact (Progress.agree_of_lines before after ht hu {}).bind fun p q hpq => hpq.files

/-- **Diffs that differ in the text of one added line are read alike**, if neither text makes the
line a file header: what is read differs in that text at most. -/
theorem agree_of_splitLines {ignored : String → Bool} {diff diff' : String}
    {before after : List (List Char)} {t u : List Char}
    (hd : splitLines diff.toList = before ++ ('+' :: t) :: after)
    (hd' : splitLines diff'.toList = before ++ ('+' :: u) :: after)
    (ht : ¬ "++ ".toList <+: t) (hu : ¬ "++ ".toList <+: u) :
    Agree (Retexted (String.ofList (dropReturns t)) (String.ofList (dropReturns u)))
      (addedLines ignored diff) (addedLines ignored diff') := by
  have plus : ∀ x : List Char, (before ++ ('+' :: x) :: after).map dropReturns =
      before.map dropReturns ++ ('+' :: dropReturns x) :: after.map dropReturns := by
    intro x
    rw [List.map_append, List.map_cons, dropReturns_cons (by decide)]
  refine agree_of_map_splitLines ignored (by rw [hd, plus]) (by rw [hd', plus]) (fun h => ht ?_)
    (fun h => hu ?_)
  · exact h.trans (dropReturns_prefix_self t)
  · exact h.trans (dropReturns_prefix_self u)

end ActionItems.Diff
