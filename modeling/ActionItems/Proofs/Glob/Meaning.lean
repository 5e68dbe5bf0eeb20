import ActionItems.Proofs.Glob
import ActionItems.Proofs.Pattern.Matching

/-!
# What globs mean

A glob of stars, question marks, brackets and characters that stand for themselves is a list of
`Part`s, and a path is matched if it has a stretch that can be cut so that every part takes its
piece (`anyMatch_written`). In the notation of search patterns each part is one node
(`reads_parts`): a star is read as a repetition of the point before it, and nothing that a glob goes
on with makes this repetition another one. So the pattern is a sequence of simple nodes, and these
describe what the parts take, up to line feeds (`takes_iff`).
-/

namespace ActionItems.Glob

open ActionItems.Pattern ActionItems.Text

/-- A part of a glob. -/
inductive Part where
  | star
  | one
  | oneOf (members : List Char) (nonempty : members ≠ []) (words : ∀ c ∈ members, isWord c = true)
  | char (c : Char) (literal : isWord c = true ∨ c ∈ ['-', '/', '.'])

namespace Part

/-- How a part is written. -/
def text : Part → List Char
  | star => ['*']
  | one => ['?']
  | oneOf members _ _ => '[' :: (members ++ [']'])
  | char c _ => [c]

/-- Whether a part takes a piece of a path. -/
def Takes : Part → List Char → Prop
  | star, _ => True
  | one, piece => ∃ c, c ≠ '/' ∧ piece = [c]
  | oneOf members _ _, piece => ∃ c ∈ members, piece = [c]
  | char c _, piece => piece = [c]

/-- A part as a search pattern. -/
def node : Part → Node
  | star => .loop 0 none false (.char .anyButNewline)
  | one => .char ⟨true, points ['/']⟩
  | oneOf members _ _ => .char ⟨false, points members⟩
  | char c _ => .char (.single c.toNat)

end Part

/-- The glob that is written part by part. -/
def written (parts : List Part) : List Char := parts.flatMap Part.text

variable {c : Char} {part : Part} {parts : List Part} {piece s rest : List Char}

/-! ### Reading the parts -/

/-- The characters that mean something in a glob or in a search pattern. -/
def marks : List Char := "*?.[]^-/\\|()+\x7b$".toList

theorem not_mem_marks (h : isWord c = true) : c ∉ marks := by
  intro hc
  have noword : marks.all (!isWord ·) = true := by decide
  have := List.all_eq_true.1 noword c hc
  rw [h] at this
  cases this

theorem isPlain_of_isWord (h : isWord c = true) : IsPlain c :=
  fun hc => not_mem_marks h ((by decide : ['*', '?', '.', '[', '^', '/', ']', '\\'] ⊆ marks) hc)

theorem asPattern_oneOf {members : List Char} (words : ∀ c ∈ members, isWord c = true) :
    asPattern ('[' :: (members ++ [']'])) = '[' :: (members ++ [']']) := by
  show '[' :: asPattern (members ++ [']']) = _
  rw [asPattern_append, asPattern_of_isPlain fun c hc => isPlain_of_isWord (words c hc)]
  rfl

theorem asPattern_char (literal : isWord c = true ∨ c ∈ ['-', '/', '.']) :
    asPattern (Part.char c literal).text = asPatternChar c := List.append_nil _

/-- No part makes a repetition before it possessive. -/
theorem head?_written (parts : List Part) : (asPattern (written parts)).head? ≠ some '+' := by
  cases parts with
  | nil => exact fun h => by cases h
  | cons part parts =>
    show (asPattern (part.text ++ written parts)).head? ≠ _
    rw [asPattern_append]
    cases part with
    | star => exact fun h => by cases h
    | one => exact fun h => by cases h
    | oneOf => exact fun h => by cases h
    | char c literal =>
      rw [asPattern_char]
      rcases literal with h | h
      · rw [asPatternChar_of_isPlain (isPlain_of_isWord h)]
        rintro ⟨⟩
        exact not_mem_marks h (by decide)
      · simp only [List.mem_cons, List.not_mem_nil, or_false] at h
        rcases h with rfl | rfl | rfl <;> exact fun h => by cases h

section

variable [CharNames]

theorem token_of_isWord (h : isWord c = true) (rest : List Char) (groups : Nat)
    (unclosed : List Nat) :
    Source.token ⟨c :: rest, groups, unclosed⟩ = .ok (.part (.char (.single c.toNat)), rest) :=
  token_of_not_mem rest groups unclosed fun hc =>
    not_mem_marks h ((by decide : tokenMarks ⊆ marks) hc)

theorem token_of_literal (h : isWord c = true ∨ c ∈ ['-', '/', '.']) (rest : List Char)
    (groups : Nat) (unclosed : List Nat) :
    Source.token ⟨asPatternChar c ++ rest, groups, unclosed⟩ =
      .ok (.part (.char (.single c.toNat)), rest) := by
  rcases h with h | h
  · rw [asPatternChar_of_isPlain (isPlain_of_isWord h)]
    exact token_of_isWord h rest groups unclosed
  · simp only [List.mem_cons, List.not_mem_nil, or_false] at h
    rcases h with rfl | rfl | rfl <;> rfl

/-- A part is read as its node, if what follows it does not make a repetition possessive. -/
theorem reads_part (part : Part) (follows : rest.head? ≠ some '+') {read : List Node} {groups : Nat}
    {unclosed : List Nat} {node : Node} {after : Source}
    (more : Reads (.parts (part.node :: read)) ⟨rest, groups, unclosed⟩ node after) :
    Reads (.parts read) ⟨asPattern part.text ++ rest, groups, unclosed⟩ node after := by
  cases part with
  | star =>
    have last : repeatLast (.char .anyButNewline :: read) 0 none rest =
        .ok (Part.star.node :: read, rest) := by
      unfold repeatLast
      split
      next possessive after hs =>
        split at hs
        · exact absurd rfl follows
        · cases hs
          rfl
    have point : Source.token ⟨'.' :: '*' :: rest, groups, unclosed⟩ =
        .ok (.part (.char .anyButNewline), '*' :: rest) := rfl
    exact .part point (.repeated rfl last more)
  | one => exact .part rfl more
  | oneOf members nonempty words =>
    have plain : ∀ c ∈ members, c ∉ ['-', ']', '\\', '^'] := fun c hc h =>
      not_mem_marks (words c hc) ((by decide : ['-', ']', '\\', '^'] ⊆ marks) h)
    have token : Source.token ⟨'[' :: (members ++ ']' :: rest), groups, unclosed⟩ =
        .ok (.part (Part.oneOf members nonempty words).node, rest) := by
      rw [token_set, charSet?_points plain nonempty rest]
      rfl
    rw [Part.text, asPattern_oneOf words, List.cons_append, List.append_assoc,
      List.singleton_append]
    exact .part token more
  | char c literal =>
    rw [asPattern_char]
    exact .part (token_of_literal literal rest groups unclosed) more

theorem reads_written (parts : List Part) (read : List Node) (groups : Nat) (unclosed : List Nat) :
    Reads (.parts read) ⟨asPattern (written parts), groups, unclosed⟩
      (sequence ((parts.map Part.node).reverse ++ read)) ⟨[], groups, unclosed⟩ := by
  induction parts generalizing read with
  | nil => exact .stop rfl
  | cons part parts ih =>
    show Reads _ ⟨asPattern (part.text ++ written parts), _, _⟩ _ _
    rw [asPattern_append, List.map_cons, List.reverse_cons, List.append_assoc,
      List.singleton_append]
    exact reads_part part (head?_written parts) (ih (part.node :: read))

/-- **A glob is read part by part.** -/
theorem read_written (parts : List Part) :
    read (asPattern (written parts)) = .ok (sequence (parts.map Part.node).reverse) := by
  rw [read_eq_ok_iff]
  refine ⟨⟨[], 0, []⟩, .one ?_ (by simp), rfl⟩
  have reads := reads_written parts [] 0 []
  rwa [List.append_nil] at reads

end

/-! ### What the parts take -/

theorem test_points {members : List Char} {negated : Bool} :
    CharSet.test ⟨negated, points members⟩ c = (decide (c ∈ members) != negated) := by
  have items : (points members).any (·.test c) = decide (c ∈ members) := by
    rw [Bool.eq_iff_iff]
    simp [points, SetItem.test, Char.toNat_inj]
  rw [CharSet.test, items]

/-- Up to line feeds, a part takes what its pattern describes. -/
theorem takes_iff (h : '\n' ∉ piece) : Describes part.node piece ↔ part.Takes piece := by
  cases part with
  | star =>
    refine iff_of_true (describes_star.2 fun c hc => ?_) trivial
    have feed : c ≠ '\n' := fun he => h (he ▸ hc)
    show CharSet.test ⟨true, points ['\n']⟩ c = true
    simp [test_points, feed]
  | one =>
    rw [Part.node, describes_char]
    simp [test_points, Part.Takes]
  | oneOf members =>
    rw [Part.node, describes_char]
    simp [test_points, Part.Takes]
  | char c =>
    show Describes (.char ⟨false, points [c]⟩) piece ↔ _
    rw [describes_char]
    simp [test_points, Part.Takes]

theorem forall₂_takes_iff {pieces : List (List Char)} (h : '\n' ∉ pieces.flatten) :
    List.Forall₂ Describes (parts.map Part.node) pieces ↔ List.Forall₂ Part.Takes parts pieces := by
  rw [List.forall₂_map_left_iff]
  induction parts generalizing pieces with
  | nil => rw [List.forall₂_nil_left_iff, List.forall₂_nil_left_iff]
  | cons part parts ih =>
    cases pieces with
    | nil => simp
    | cons piece pieces =>
      rw [List.flatten_cons, List.mem_append, not_or] at h
      rw [List.forall₂_cons, List.forall₂_cons, takes_iff h.1, ih h.2]

theorem isSimple_node (part : Part) : IsSimple part.node := by
  cases part with
  | star => exact .star _
  | one => exact .char _
  | oneOf => exact .char _
  | char => exact .char _

/-- **A glob matches a path if and only if its parts take pieces of it one behind the other.** The
path has no line feed. -/
theorem anyMatch_written [CharNames] (parts : List Part) : ∃ node,
    compile? (String.ofList (written parts)) = .ok (some node) ∧
    compileAll [String.ofList (written parts)] = .ok [node] ∧
    ∀ path : String, '\n' ∉ path.toList → (anyMatch [node] path = true ↔
      ∃ before pieces after, path.toList = before ++ pieces.flatten ++ after ∧
        List.Forall₂ Part.Takes parts pieces) := by
  have compiled : compile? (String.ofList (written parts)) =
      .ok (some (sequence (parts.map Part.node).reverse)) := by
    rw [compile?_eq_ok_some_iff, String.toList_ofList]
    exact read_written parts
  refine ⟨_, compiled, ?_, fun path nofeed => ?_⟩
  · rw [compileAll, compiled]
    rfl
  have simple : IsSimple (sequence (parts.map Part.node).reverse) := by
    refine isSimple_sequence fun node hnode => ?_
    obtain ⟨part, -, rfl⟩ := List.mem_map.1 hnode
    exact isSimple_node part
  rw [anyMatch, List.any_cons, List.any_nil, Bool.or_false, search_iff simple]
  constructor
  · rintro ⟨before, s, after, hpath, hs⟩
    obtain ⟨pieces, all, rfl⟩ := describes_sequence.1 hs
    refine ⟨before, pieces, after, hpath, (forall₂_takes_iff fun hfeed => nofeed ?_).1 all⟩
    rw [hpath]
    simp only [List.mem_append, hfeed, or_true, true_or]
  · rintro ⟨before, pieces, after, hpath, all⟩
    refine ⟨before, pieces.flatten, after, hpath, describes_sequence.2 ⟨pieces, ?_, rfl⟩⟩
    refine (forall₂_takes_iff fun hfeed => nofeed ?_).2 all
    rw [hpath]
    simp only [List.mem_append, hfeed, or_true, true_or]

attribute [local instance] CharNames.ascii

/-- Both wildcards next to each other: the star takes a directory and the question mark the name. -/
theorem anyMatch_written_star_one :
    let parts : List Part :=
      [.char 'a' (by decide), .char '/' (by decide), .star, .one, .char '.' (by decide),
      .oneOf ['c', 'h'] (by decide) (List.all_eq_true.1 (by decide))]
    written parts = "a/*?.[ch]".toList ∧ ∃ node, compile? "a/*?.[ch]" = .ok (some node) ∧
      anyMatch [node] "src/a/b/c.h" = true ∧
      ¬ ∃ before pieces after, "a/b/.h".toList = before ++ pieces.flatten ++ after ∧
        List.Forall₂ Part.Takes parts pieces := by
  intro parts
  have glob : written parts = "a/*?.[ch]".toList := by decide
  obtain ⟨node, compiled, -, matches_iff⟩ := anyMatch_written parts
  rw [glob, String.ofList_toList] at compiled
  refine ⟨glob, node, compiled, ?_, ?_⟩
  · rw [matches_iff "src/a/b/c.h" (by decide)]
    refine ⟨"src/".toList, [['a'], ['/'], ['b', '/'], ['c'], ['.'], ['h']], [], by decide, ?_⟩
    simp [parts, Part.Takes]
  · have missed : ∃ node, compile? "a/*?.[ch]" = .ok (some node) ∧
        anyMatch [node] "a/b/.h" = false :=
      ⟨_, rfl, by decide⟩
    obtain ⟨node', hnode, missed⟩ := missed
    cases compiled.symm.trans hnode
    rw [← matches_iff "a/b/.h" (by decide), missed]
    exact Bool.false_ne_true

end ActionItems.Glob
