/-!
# Blank characters

The blanks are the space, the controls that move the cursor or separate records, and the space, line
and paragraph separators of every script. `strip` removes them at both ends of a text, and
`dropFinalNewline` removes a single line feed at its end.
-/

namespace ActionItems.Text

/-- The ranges of blank characters. -/
def blankRanges : List (Nat × Nat) :=
  [(0x09, 0x0D), (0x1C, 0x20), (0x85, 0x85), (0xA0, 0xA0), (0x1680, 0x1680), (0x2000, 0x200A),
    (0x2028, 0x2029), (0x202F, 0x202F), (0x205F, 0x205F), (0x3000, 0x3000)]

/-- A space, line break, tab or separator of any script. -/
def isBlank (c : Char) : Bool :=
  blankRanges.any fun (first, last) => decide (first ≤ c.toNat) && decide (c.toNat ≤ last)

/-- A text without the blanks at its start. -/
def stripStart (s : List Char) : List Char := s.dropWhile isBlank

/-- A text without the characters satisfying `p` at its end. -/
def stripEndWhile (p : Char → Bool) (s : List Char) : List Char :=
  (s.reverse.dropWhile p).reverse

/-- A text without the blanks at its end. -/
def stripEnd (s : List Char) : List Char := stripEndWhile isBlank s

/-- A text without the blanks at both ends. -/
def strip (s : List Char) : List Char := stripEnd (stripStart s)

/-- A text without the line feed that it may end in. -/
def dropFinalNewline (s : List Char) : List Char :=
  if s.getLast? = some '\n' then s.dropLast else s

/-- A text that is not empty and all of one kind of characters, whether or not a line feed follows
it. -/
theorem all_dropFinalNewline_iff {p : Char → Bool} (hp : p '\n' = false) {s : List Char} :
    (!(dropFinalNewline s).isEmpty && (dropFinalNewline s).all p) = true ↔
      ∃ body, (s = body ∨ s = body ++ ['\n']) ∧ body ≠ [] ∧ ∀ c ∈ body, p c = true := by
  have valid (body : List Char) : (!body.isEmpty && body.all p) = true ↔
      body ≠ [] ∧ ∀ c ∈ body, p c = true := by
    simp
  rw [valid, dropFinalNewline]
  constructor
  · split
    · next hlast =>
      obtain ⟨body, rfl⟩ := List.getLast?_eq_some_iff.1 hlast
      rw [List.dropLast_concat]
      exact fun h => ⟨body, .inr rfl, h⟩
    · exact fun h => ⟨s, .inl rfl, h⟩
  · rintro ⟨body, rfl | rfl, h⟩
    · rw [if_neg]
      · exact h
      · intro hlast
        obtain ⟨front, rfl⟩ := List.getLast?_eq_some_iff.1 hlast
        have newline := h.2 '\n' (by simp)
        rw [hp] at newline
        cases newline
    · rw [List.getLast?_concat, if_pos rfl, List.dropLast_concat]
      exact h

theorem stripEndWhile_nil (p : Char → Bool) : stripEndWhile p [] = [] := rfl

theorem stripEndWhile_append_of_not {p : Char → Bool} {s : List Char} {c : Char}
    (h : p c = false) : stripEndWhile p (s ++ [c]) = s ++ [c] := by
  simp [stripEndWhile, h]

theorem stripEndWhile_append_of {p : Char → Bool} {s : List Char} {c : Char}
    (h : p c = true) : stripEndWhile p (s ++ [c]) = stripEndWhile p s := by
  simp [stripEndWhile, h]

end ActionItems.Text
