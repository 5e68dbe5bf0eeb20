import ActionItems.Proofs.Json.Numeral

/-!
# What is a JSON text

`Reads` says which texts are values and where they end, and `Meets` which values are come to while
one is read: all those in front of which nothing is wrong. Both are told of code points, without a
reader.
-/

namespace ActionItems.Json

open ActionItems.Number (digitLimit)

variable {s rest : List Nat}

/-! ### Gaps, words and strings -/

/-- A text without the blanks at its start. -/
def afterGap (s : List Nat) : List Nat := s.dropWhile isGap

/-- The words that stand for a value, as code points. -/
def wordTexts : List (List Nat) := words.map fun w => w.1.toList.map Char.toNat

/-- What is left of a text behind the quote that closes a string. -/
inductive Closes : List Nat → List Nat → Prop
  | quote {rest : List Nat} : Closes (0x22 :: rest) rest
  | plain {n : Nat} {s rest : List Nat} (control : ¬ n ≤ 0x1F) (quote : n ≠ 0x22)
    (backslash : n ≠ 0x5C) (more : Closes s rest) : Closes (n :: s) rest
  | escape {n p : Nat} {s rest : List Nat} (letter : escaped? n = some p) (more : Closes s rest) :
    Closes (0x5C :: n :: s) rest
  | code {a b c d n : Nat} {s rest : List Nat} (digits : hex4? a b c d = some n)
    (more : Closes s rest) :
    Closes (0x5C :: 0x75 :: a :: b :: c :: d :: s) rest

/-- The name of a member with the colon behind it stands at the start of a text, and its value at
`t`. -/
def Named (s t : List Nat) : Prop :=
  ∃ name behind more, s = 0x22 :: name ∧ Closes name behind ∧ afterGap behind = 0x3A :: more ∧
    t = afterGap more

/-! ### Values -/

/-- The kinds of values that hold others. -/
inductive Kind where
  | list
  | map

/-- The bracket in front of the entries. -/
def Kind.opening : Kind → Nat
  | .list => 0x5B
  | .map => 0x7B

/-- The bracket behind the entries. -/
def Kind.closing : Kind → Nat
  | .list => 0x5D
  | .map => 0x7D

/-- An entry stands at the start of a text, and its value at `t`. -/
def Kind.Starts : Kind → List Nat → List Nat → Prop
  | .list, s, t => t = s
  | .map, s, t => Named s t

/-- What is to be read: a value, or the entries of one up to the bracket behind them. -/
inductive Part where
  | value
  | entries (kind : Kind)

/-- What is to be read stands at the start of a text, and `rest` behind it. -/
inductive Reads : Part → List Nat → List Nat → Prop
  | string {s rest : List Nat} (closes : Closes s rest) : Reads .value (0x22 :: s) rest
  | word {word s rest : List Nat} (isWord : word ∈ wordTexts)
    (text : s = word ++ rest) : Reads .value s rest
  | number {m : Numeral} {s rest : List Nat} (stands : m.At s rest)
    (short : ¬ (m.isInteger = true ∧ digitLimit < m.whole.length)) : Reads .value s rest
  | empty {kind : Kind} {s rest : List Nat} (closed : afterGap s = kind.closing :: rest) :
    Reads .value (kind.opening :: s) rest
  | full {kind : Kind} {s rest : List Nat} (filled : (afterGap s).head? ≠ some kind.closing)
    (entries : Reads (.entries kind) (afterGap s) rest) : Reads .value (kind.opening :: s) rest
  | last {kind : Kind} {s t u rest : List Nat} (starts : kind.Starts s t) (value : Reads .value t u)
    (closed : afterGap u = kind.closing :: rest) : Reads (.entries kind) s rest
  | more {kind : Kind} {s t u v rest : List Nat} (starts : kind.Starts s t)
    (value : Reads .value t u) (comma : afterGap u = 0x2C :: v)
    (others : Reads (.entries kind) (afterGap v) rest) : Reads (.entries kind) s rest

/-- In reading what stands at the start of a text, a value at `t` is come to. -/
inductive Meets : Part → List Nat → List Nat → Prop
  | here {s : List Nat} : Meets .value s s
  | inside {kind : Kind} {s t : List Nat} (filled : (afterGap s).head? ≠ some kind.closing)
    (entries : Meets (.entries kind) (afterGap s) t) : Meets .value (kind.opening :: s) t
  | entry {kind : Kind} {s t u : List Nat} (starts : kind.Starts s t) (value : Meets .value t u) :
    Meets (.entries kind) s u
  | later {kind : Kind} {s t u v w : List Nat} (starts : kind.Starts s t) (value : Reads .value t u)
    (comma : afterGap u = 0x2C :: v) (others : Meets (.entries kind) (afterGap v) w) :
    Meets (.entries kind) s w

/-- In reading what stands at the start of a text, an integer of `n` digits is come to, which are
more than are converted. -/
def MeetsLong (part : Part) (s : List Nat) (n : Nat) : Prop := ∃ t, Meets part s t ∧ LongInteger n t

/-- A text holds a value, and nothing else. -/
def IsText (s : List Nat) : Prop := ∃ rest, Reads .value (afterGap s) rest ∧ afterGap rest = []

/-! ### What is read is taken off the text -/

theorem length_afterGap_le (s : List Nat) : (afterGap s).length ≤ s.length :=
  (List.dropWhile_sublist isGap).length_le

theorem length_lt_of_afterGap {n : Nat} (h : afterGap s = n :: rest) : rest.length < s.length := by
  have := length_afterGap_le s
  rw [h, List.length_cons] at this
  exact this

theorem Closes.length_lt (h : Closes s rest) : rest.length < s.length := by
  induction h with
  | quote => exact Nat.lt_succ_self _
  | plain _ _ _ _ ih => exact Nat.lt_succ_of_lt ih
  | escape _ _ ih =>
    simp only [List.length_cons]
    omega
  | code _ _ ih =>
    simp only [List.length_cons]
    omega

theorem Named.length_lt (h : Named s rest) : rest.length < s.length := by
  obtain ⟨name, behind, more, rfl, closes, colon, rfl⟩ := h
  have := closes.length_lt
  have := length_lt_of_afterGap colon
  have := length_afterGap_le more
  rw [List.length_cons]
  omega

theorem Kind.Starts.length_le {kind : Kind} (h : kind.Starts s rest) : rest.length ≤ s.length := by
  cases kind with
  | list => exact (congrArg List.length h).le
  | map => exact (Named.length_lt h).le

theorem length_lt_of_isWord {word : List Nat} (h : word ∈ wordTexts) :
    rest.length < (word ++ rest).length := by
  have all : ∀ word ∈ wordTexts, 0 < word.length := by decide
  have := all word h
  rw [List.length_append]
  omega

theorem Numeral.At.length_lt {m : Numeral} (h : m.At s rest) : rest.length < s.length := by
  obtain ⟨n, t, whole, -⟩ := h.isWhole.exists_cons
  rw [h.text, whole]
  simp only [List.length_append, List.length_cons]
  omega

theorem Reads.length_lt {part : Part} (h : Reads part s rest) : rest.length < s.length := by
  induction h with
  | string closes => exact Nat.lt_succ_of_lt closes.length_lt
  | word isWord text =>
    rw [text]
    exact length_lt_of_isWord isWord
  | number stands => exact stands.length_lt
  | empty closed => exact Nat.lt_succ_of_lt (length_lt_of_afterGap closed)
  | @full kind s rest _ _ ih => exact Nat.lt_succ_of_lt (ih.trans_le (length_afterGap_le s))
  | last starts _ closed ih =>
    exact (length_lt_of_afterGap closed).trans (ih.trans_le starts.length_le)
  | @more kind s t u v rest starts _ comma _ ih ih' =>
    have := length_lt_of_afterGap comma
    have := length_afterGap_le v
    have := starts.length_le
    omega

end ActionItems.Json
