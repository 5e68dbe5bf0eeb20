import ActionItems.Pattern.Literal
import ActionItems.Proofs.Pattern.Matching
import ActionItems.Proofs.Pattern.Reading

/-!
# Texts in patterns are read as themselves

Before a character that means something in a pattern `literal` writes a backslash, and any other
character stands for itself, so each character of a text is one token, whatever the text goes on
with (`token_literalChar`, `reads_literal`). A text between word boundaries is read as its
characters between word boundaries (`read_between`), and to ignore case is to take each of them in
any case (`ignoringCase_sequence`).
-/

namespace ActionItems.Pattern

section

variable [CharNames] {c : Char} {s rest : List Char} {groups : Nat} {unclosed : List Nat}

/-! ### Characters -/

theorem token_special (h : c ∈ specialChars) (rest : List Char) (groups : Nat)
    (unclosed : List Nat) :
    Source.token ⟨'\\' :: c :: rest, groups, unclosed⟩ =
      .ok (.part (.char (.single c.toNat)), rest) := by
  have each : ∀ c ∈ specialChars,
      Source.token ⟨'\\' :: c :: rest, groups, unclosed⟩ =
        .ok (.part (.char (.single c.toNat)), rest) := by
    simp only [specialChars, List.forall_mem_cons, List.not_mem_nil, false_imp_iff,
      implies_true, and_true]
    and_intros <;> rfl
  exact each c h

/-- **A character is one token**, whatever comes after it. -/
theorem token_literalChar (c : Char) (rest : List Char) (groups : Nat) (unclosed : List Nat) :
    Source.token ⟨literalChar c ++ rest, groups, unclosed⟩ =
      .ok (.part (.char (.single c.toNat)), rest) := by
  unfold literalChar
  split
  · next special => exact token_special (List.contains_iff_mem.1 special) rest groups unclosed
  · next plain =>
    have marks : tokenMarks ⊆ specialChars := by decide
    exact token_of_not_mem rest groups unclosed fun hc => plain (List.contains_iff_mem.2 (marks hc))

/-! ### Texts -/

/-- The sets of the characters of a text. -/
def singles (s : List Char) : List CharSet := s.map fun c => .single c.toNat

/-- A text is read character by character, and then what comes after it. -/
theorem reads_literal {read : List Node} {node : Node} {after : Source}
    (more : Reads (.parts (((singles s).map Node.char).reverse ++ read)) ⟨rest, groups, unclosed⟩
      node after) :
    Reads (.parts read) ⟨literal s ++ rest, groups, unclosed⟩ node after := by
  induction s generalizing read with
  | nil => exact more
  | cons c s ih =>
    have token := token_literalChar c (literal s ++ rest) groups unclosed
    have later :
        Reads (.parts (.char (.single c.toNat) :: read)) ⟨literal s ++ rest, groups, unclosed⟩
          node after := by
      refine ih ?_
      rw [singles, List.map_cons, List.map_cons, List.reverse_cons, List.append_assoc] at more
      exact more
    rw [literal, List.flatMap_cons, List.append_assoc]
    exact .part token later

/-- **A text between word boundaries is read as its characters between word boundaries.** -/
theorem read_between (s : List Char) :
    read (['\\', 'b'] ++ literal s ++ ['\\', 'b']) =
      .ok (sequence (between (singles s)).reverse) := by
  have boundary (rest : List Char) : Source.token ⟨'\\' :: 'b' :: rest, 0, []⟩ =
      .ok (.part (.anchor .boundary), rest) := rfl
  have parts : Reads (.parts []) { rest := ['\\', 'b'] ++ literal s ++ ['\\', 'b'] }
      (sequence (between (singles s)).reverse) ⟨[], 0, []⟩ := by
    rw [List.append_assoc]
    refine .part (boundary _) (reads_literal (.part (boundary []) ?_))
    rw [between, List.reverse_append, List.reverse_append]
    exact .stop rfl
  rw [read_eq_ok_iff]
  exact ⟨⟨[], 0, []⟩, .one parts (by simp), rfl⟩

end

/-! ### Any case -/

theorem ignoringCase_foldl (first : Node) (more : List Node) :
    (more.foldl .seq first).ignoringCase =
      (more.map Node.ignoringCase).foldl .seq first.ignoringCase := by
  induction more generalizing first with
  | nil => rfl
  | cons next more ih => exact ih (.seq first next)

/-- The parts of a sequence are taken in any case one by one. -/
theorem ignoringCase_sequence (parts : List Node) :
    (sequence parts.reverse).ignoringCase = sequence (parts.map Node.ignoringCase).reverse := by
  rw [sequence, sequence, List.reverse_reverse, List.reverse_reverse]
  cases parts with
  | nil => rfl
  | cons first more => exact ignoringCase_foldl first more

theorem ignoringCase_between (sets : List CharSet) :
    (sequence (between sets).reverse).ignoringCase =
      sequence (between (sets.map CharSet.ignoringCase)).reverse := by
  rw [ignoringCase_sequence, between, between, List.map_append, List.map_append, List.map_map,
    List.map_map]
  rfl

end ActionItems.Pattern
