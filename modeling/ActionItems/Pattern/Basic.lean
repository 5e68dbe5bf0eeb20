import ActionItems.Text.Blank
import ActionItems.Text.Case
import ActionItems.Text.DecimalDigit
import ActionItems.Text.Word

/-!
# Search patterns

A search pattern describes texts: characters of a set, anchors, sequences, alternatives, repetitions
and groups whose text may be asked for again. `matchFrom` walks a pattern from a place in a text and
hands every place where it can end to a continuation, longest repetitions first, until one accepts;
`search` asks whether the pattern occurs anywhere in a text.

A possessive repetition takes the first way that each of its steps can end and never gives it up.
-/

namespace ActionItems.Pattern

open ActionItems.Text

/-- A class of characters with a letter of its own. -/
inductive CharClass where
  | digit
  | blank
  | word
deriving Repr, DecidableEq

/-- Whether a character belongs to a class. -/
def CharClass.test : CharClass → Char → Bool
  | .digit, c => isDigit c
  | .blank, c => isBlank c
  | .word, c => isWord c

/-- A part of a set of characters; characters are given by their code points. -/
inductive SetItem where
  | point (n : Nat)
  /-- A letter in any case. -/
  | letter (n : Nat)
  | range (first last : Nat)
  | inside (k : CharClass)
  | outside (k : CharClass)
deriving Repr, DecidableEq

/-- Whether a character belongs to a part of a set. -/
def SetItem.test : SetItem → Char → Bool
  | .point n, c => c.toNat == n
  | .letter n, c => sameLetter (Char.ofNat n) c
  | .range first last, c => decide (first ≤ c.toNat) && decide (c.toNat ≤ last)
  | .inside k, c => k.test c
  | .outside k, c => !k.test c

/-- A set of characters. -/
structure CharSet where
  negated : Bool
  items : List SetItem
deriving Repr, DecidableEq

/-- Whether a character belongs to a set. -/
def CharSet.test (s : CharSet) (c : Char) : Bool := s.items.any (·.test c) != s.negated

/-- All characters but the line feed. -/
def CharSet.anyButNewline : CharSet := ⟨true, [.point 0x0A]⟩

/-- The set of one character. -/
def CharSet.single (n : Nat) : CharSet := ⟨false, [.point n]⟩

/-- A condition on a place in a text. -/
inductive Anchor where
  /-- The start of the text. -/
  | start
  /-- The end of the text, or a line feed that ends it. -/
  | finish
  /-- The end of the text. -/
  | absoluteFinish
  /-- A place between a word character and none. -/
  | boundary
  /-- A place that is no boundary, in a text that is not empty. -/
  | inner
deriving Repr, DecidableEq

/-- A search pattern. -/
inductive Node where
  | empty
  | char (set : CharSet)
  | anchor (a : Anchor)
  | seq (first second : Node)
  | alt (first second : Node)
  /-- At least `min` and, if a bound is given, at most `max` times the body. -/
  | loop (min : Nat) (max : Option Nat) (possessive : Bool) (body : Node)
  | group (number : Nat) (body : Node)
  /-- The text that a group matched last. -/
  | again (number : Nat)
deriving Repr, DecidableEq

/-- A place in a text: what is before it, read backwards, what is after it, and the texts that the
groups matched on the way. -/
structure Place where
  before : List Char
  after : List Char
  groups : List (Nat × List Char) := []
deriving Repr, DecidableEq

/-- Whether a place lies between a word character and none. -/
def Place.isBoundary (p : Place) : Bool := Text.isBoundary p.before p.after

/-- Whether a place meets the condition of an anchor. -/
def Anchor.test : Anchor → Place → Bool
  | .start, p => p.before.isEmpty
  | .finish, p => p.after = [] || p.after = ['\n']
  | .absoluteFinish, p => p.after.isEmpty
  | .boundary, p => p.isBoundary
  | .inner, p => !(p.before.isEmpty && p.after.isEmpty) && !p.isBoundary

/-- The place after `text`, if the text goes on with it. -/
def Place.follow? (p : Place) : List Char → Option Place
  | [] => some p
  | c :: more =>
    match p.after with
    | [] => none
    | d :: rest =>
      if c = d then Place.follow? { p with before := d :: p.before, after := rest } more else none

/-- The place with the text since `start` kept for a group. -/
def Place.keep (p : Place) (start : Place) (number : Nat) : Place :=
  let length := p.before.length - start.before.length
  { p with groups := (number, (p.before.take length).reverse) :: p.groups }

/-- Whether a place is not where another one is. -/
def Place.movedFrom (p q : Place) : Bool := p.after.length != q.after.length

/-- Repeats a step: `fuel` bounds the steps, `due` is the number of steps that must come, `left` the
number that may. A step that may come is taken first, but not from a place that the step before it
did not move away from (`last?`). -/
def repeatFrom {α : Type} (step : Place → (Place → Option α) → Option α)
    (accept : Place → Option α) :
    Nat → Nat → Option Nat → Option Place → Place → Option α
  | 0, due, _, _, p => if due = 0 then accept p else none
  | fuel + 1, due, left, last?, p =>
    if due > 0 then
      step p (repeatFrom step accept fuel (due - 1) (left.map (· - 1)) last?)
    else
      let mayGoOn := left != some 0 && (last?.map (p.movedFrom ·)).getD true
      let further :=
        if mayGoOn then
          step p (repeatFrom step accept fuel 0 (left.map (· - 1)) (some p))
        else none
      match further with
      | some a => some a
      | none => accept p

/-- Repeats a step as often as it succeeds, taking the first way that each step can end. The bounds
are those of `repeatFrom`. -/
def drainFrom (step : Place → Option Place) :
    Nat → Nat → Option Nat → Option Place → Place → Option Place
  | 0, due, _, _, p => if due = 0 then some p else none
  | fuel + 1, due, left, last?, p =>
    if due > 0 then
      match step p with
      | some q => drainFrom step fuel (due - 1) (left.map (· - 1)) last? q
      | none => none
    else if left != some 0 && (last?.map (p.movedFrom ·)).getD true then
      match step p with
      | some q => drainFrom step fuel 0 (left.map (· - 1)) (some p) q
      | none => some p
    else some p

/-- The first answer of `accept` on a place where the pattern can end, starting from a place. -/
def matchFrom {α : Type} : Node → Place → (Place → Option α) → Option α
  | .empty, p, accept => accept p
  | .char set, p, accept =>
    match p.after with
    | [] => none
    | c :: rest =>
      if set.test c then accept { p with before := c :: p.before, after := rest } else none
  | .anchor a, p, accept => if a.test p then accept p else none
  | .seq first second, p, accept => matchFrom first p fun q => matchFrom second q accept
  | .alt first second, p, accept =>
    match matchFrom first p accept with
    | some a => some a
    | none => matchFrom second p accept
  | .loop min max possessive body, p, accept =>
    let fuel := min + p.after.length + 2
    if possessive then
      match drainFrom (fun q => matchFrom body q some) fuel min max none p with
      | some q => accept q
      | none => none
    else repeatFrom (fun q k => matchFrom body q k) accept fuel min max none p
  | .group number body, p, accept => matchFrom body p fun q => accept (q.keep p number)
  | .again number, p, accept =>
    match p.groups.lookup number with
    | some text => (p.follow? text).bind accept
    | none => none

/-- Whether a pattern matches at a place. -/
def matchesAt (node : Node) (p : Place) : Bool := (matchFrom node p fun _ => some ()).isSome

/-- Whether a pattern occurs in `after`, where `before` is the text before it read backwards. -/
def searchFrom (node : Node) (before : List Char) : List Char → Bool
  | [] => matchesAt node ⟨before, [], []⟩
  | c :: rest => matchesAt node ⟨before, c :: rest, []⟩ || searchFrom node (c :: before) rest

/-- Whether a pattern occurs in a text. -/
def search (node : Node) (text : List Char) : Bool := searchFrom node [] text

/-- A pattern occurs in a text iff it matches at some place of it. -/
theorem searchFrom_iff {node : Node} {before text : List Char} :
    searchFrom node before text = true ↔
      ∃ skipped rest, text = skipped ++ rest ∧
        matchesAt node ⟨skipped.reverse ++ before, rest, []⟩ := by
  induction text generalizing before with
  | nil =>
    simp only [searchFrom]
    constructor
    · intro h
      exact ⟨[], [], rfl, by simpa using h⟩
    · rintro ⟨skipped, rest, h, hm⟩
      obtain ⟨rfl, rfl⟩ := List.append_eq_nil_iff.1 h.symm
      simpa using hm
  | cons c text ih =>
    simp only [searchFrom, Bool.or_eq_true, ih]
    constructor
    · rintro (h | ⟨skipped, rest, rfl, hm⟩)
      · exact ⟨[], c :: text, rfl, by simpa using h⟩
      · exact ⟨c :: skipped, rest, rfl, by simpa using hm⟩
    · rintro ⟨skipped, rest, h, hm⟩
      cases skipped with
      | nil =>
        simp only [List.nil_append] at h
        subst h
        exact .inl (by simpa using hm)
      | cons d skipped =>
        simp only [List.cons_append, List.cons.injEq] at h
        obtain ⟨rfl, rfl⟩ := h
        exact .inr ⟨skipped, rest, rfl, by simpa using hm⟩

end ActionItems.Pattern
