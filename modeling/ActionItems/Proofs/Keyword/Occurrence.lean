import ActionItems.Keyword
import ActionItems.Proofs.Pattern.Literal
import Mathlib.Logic.Basic

/-!
# Keywords occur as whole words

`StandsBetween` says that a word stands between two parts of a text as a whole word: the piece of
the text there has its characters, the same ones or the same letters, and each end of it is a place
where a word begins or ends. The pattern of a keyword is read as its characters between word
boundaries, whatever they are (`compile_eq`), so it is found exactly where the keyword stands as a
whole word (`search_node_iff`), and some keyword of a list occurs in a text if and only if one that
is not empty stands in it as a whole word (`occurIn_iff_exists`).
-/

namespace ActionItems.Keywords

open ActionItems.Pattern ActionItems.Text

variable {caseSensitive : Bool} {word : String} {before piece after text s t : List Char}
  {a b : Char}

/-! ### Whole words -/

/-- Two characters are the same, or the same letter where case does not count. -/
def Same (caseSensitive : Bool) (a b : Char) : Prop :=
  if caseSensitive then a = b else sameLetter a b = true

theorem Same.mono {caseSensitive' : Bool} (h : Same caseSensitive a b)
    (le : caseSensitive' = true → caseSensitive = true) : Same caseSensitive' a b := by
  cases caseSensitive' with
  | true =>
    rw [le rfl] at h
    exact h
  | false =>
    cases caseSensitive with
    | true =>
      obtain rfl : a = b := h
      exact sameLetter_refl a
    | false => exact h

/-- There is a character, and it is a letter, a numeric character or the underscore. -/
def IsWordChar (c? : Option Char) : Prop := ∃ c ∈ c?, isWord c = true

theorem beginsInWord_iff : beginsInWord s = true ↔ IsWordChar s.head? := by
  cases s with
  | nil => simp [beginsInWord, IsWordChar]
  | cons c s => simp [beginsInWord, IsWordChar]

theorem isBoundary_reverse_iff :
    isBoundary s.reverse t = true ↔ Xor (IsWordChar s.getLast?) (IsWordChar t.head?) := by
  have left : beginsInWord s.reverse = true ↔ IsWordChar s.getLast? := by
    rw [beginsInWord_iff, List.head?_reverse]
  have right : beginsInWord t = true ↔ IsWordChar t.head? := beginsInWord_iff
  rw [isBoundary, ← left, ← right]
  cases beginsInWord s.reverse <;> cases beginsInWord t <;> simp [Xor]

/-- A word stands as a piece of a text between what comes before and after it there. -/
structure StandsBetween (caseSensitive : Bool) (word before piece after : List Char) : Prop where
  same : List.Forall₂ (Same caseSensitive) word piece
  starts : Xor (IsWordChar before.getLast?) (IsWordChar piece.head?)
  ends : Xor (IsWordChar piece.getLast?) (IsWordChar after.head?)

/-- A word stands somewhere in a text. -/
def StandsIn (caseSensitive : Bool) (word text : List Char) : Prop :=
  ∃ before piece after, text = before ++ piece ++ after ∧
    StandsBetween caseSensitive word before piece after

theorem StandsIn.mono {caseSensitive' : Bool} {word : List Char}
    (h : StandsIn caseSensitive word text) (le : caseSensitive' = true → caseSensitive = true) :
    StandsIn caseSensitive' word text := by
  obtain ⟨before, piece, after, rfl, same, starts, ends⟩ := h
  exact ⟨before, piece, after, rfl, same.imp fun _ _ h => h.mono le, starts, ends⟩

/-! ### The pattern of a keyword -/

/-- The characters that are taken for a character of a keyword. -/
def charSet (caseSensitive : Bool) (c : Char) : CharSet :=
  if caseSensitive then .single c.toNat else (CharSet.single c.toNat).ignoringCase

theorem test_charSet : (charSet caseSensitive a).test b = true ↔ Same caseSensitive a b := by
  cases caseSensitive with
  | true =>
    have same : (charSet true a).test b = true ↔ b = a := by
      simp [charSet, CharSet.test, CharSet.single, SetItem.test, Char.toNat_inj]
    rw [same, eq_comm]
    rfl
  | false =>
    simp [charSet, CharSet.test, CharSet.single, CharSet.ignoringCase, SetItem.ignoringCase,
      SetItem.test, Same]

/-- The pattern that a keyword is read as. -/
def node (caseSensitive : Bool) (word : String) : Node :=
  sequence (between (word.toList.map (charSet caseSensitive))).reverse

/-- The pattern of a keyword asks for no character by its name: whatever names there are, it is read
alike. -/
theorem read_asPattern [CharNames] (word : String) :
    Pattern.read (asPattern word) = .ok (sequence (between (singles word.toList)).reverse) :=
  read_between word.toList

/-- **Every keyword has a pattern**: its characters between word boundaries. -/
theorem compile_eq (caseSensitive : Bool) (word : String) :
    compile caseSensitive word = .ok (node caseSensitive word) := by
  rw [compile, @read_asPattern CharNames.none word]
  cases caseSensitive with
  | true => rfl
  | false =>
    show Except.ok (sequence (between (singles word.toList)).reverse).ignoringCase = _
    rw [ignoringCase_between, singles, List.map_map]
    rfl

theorem patterns_eq (k : Keywords) : k.patterns = .ok (k.words.map (node k.caseSensitive)) := by
  have each : compile k.caseSensitive = fun w => pure (node k.caseSensitive w) :=
    funext (compile_eq k.caseSensitive)
  rw [patterns, each, List.mapM_pure]
  rfl

theorem piece_ne_nil (h : word ≠ "") (same : List.Forall₂ (Same caseSensitive) word.toList piece) :
    piece ≠ [] := by
  rintro rfl
  have length : word.toList.length = 0 := same.length_eq
  exact h (String.toList_eq_nil_iff.1 (List.eq_nil_of_length_eq_zero length))

/-- **The pattern of a keyword is found where the keyword stands as a whole word.** -/
theorem search_node_iff (h : word ≠ "") :
    search (node caseSensitive word) text = true ↔ StandsIn caseSensitive word.toList text := by
  have spelled (piece : List Char) :
      List.Forall₂ (fun set c => set.test c = true) (word.toList.map (charSet caseSensitive))
        piece ↔
        List.Forall₂ (Same caseSensitive) word.toList piece := by
    rw [List.forall₂_map_left_iff]
    simp only [test_charSet]
  rw [node, search_between]
  refine exists_congr fun before => exists_congr fun piece => exists_congr fun after =>
    and_congr_right fun _ => ?_
  rw [spelled, ← List.reverse_append, isBoundary_reverse_iff, isBoundary_reverse_iff]
  constructor
  · rintro ⟨same, starts, ends⟩
    have nonempty := piece_ne_nil h same
    rw [List.head?_append_of_ne_nil _ nonempty] at starts
    rw [List.getLast?_append_of_ne_nil _ nonempty] at ends
    exact ⟨same, starts, ends⟩
  · rintro ⟨same, starts, ends⟩
    have nonempty := piece_ne_nil h same
    rw [List.head?_append_of_ne_nil _ nonempty, List.getLast?_append_of_ne_nil _ nonempty]
    exact ⟨same, starts, ends⟩

/-- Some keyword of a list occurs in a text if one that is not empty stands in it, without the
blanks at its ends. -/
theorem occurIn_iff_exists {words : List String} :
    (ofList words caseSensitive).occurIn text = true ↔
    ∃ w ∈ words, w ≠ "" ∧ StandsIn caseSensitive w.toList (strip text) := by
  rw [occurIn, patterns_eq]
  simp only [ofList, List.any_map, List.any_eq_true, Function.comp_apply, List.mem_filter,
    Bool.not_eq_true', String.isEmpty_eq_false_iff, and_assoc]
  exact exists_congr fun w => and_congr_right fun _ => and_congr_right fun nonempty =>
    search_node_iff nonempty

theorem occurIn_mono {words words' : List String} (more : words ⊆ words') {caseSensitive' : Bool}
    (case : caseSensitive' = true → caseSensitive = true)
    (h : (ofList words caseSensitive).occurIn text = true) :
    (ofList words' caseSensitive').occurIn text = true := by
  rw [occurIn_iff_exists] at h ⊢
  obtain ⟨w, mem, nonempty, stands⟩ := h
  exact ⟨w, more mem, nonempty, stands.mono case⟩

/-- **Keywords are found as whole words.** The pattern of each keyword is its characters between
word boundaries, and some keyword of a list occurs in a text if and only if one that is not empty
stands in it as a whole word. -/
theorem whole_words (words : List String) (caseSensitive : Bool) (text : String) :
    (ofList words caseSensitive).patterns =
      .ok ((ofList words caseSensitive).words.map (node caseSensitive)) ∧
    ((ofList words caseSensitive).occurIn text.toList = true ↔
      ∃ w ∈ words, w ≠ "" ∧ ∃ before piece after, strip text.toList = before ++ piece ++ after ∧
        StandsBetween caseSensitive w.toList before piece after) :=
  ⟨patterns_eq _, occurIn_iff_exists⟩

/-- A point stands for itself, and the Kelvin sign is a letter K. -/
example : (ofList ["to.o"] false).occurIn "# TO.O later".toList = true ∧
    (ofList ["to.o"] false).occurIn "# toxo later".toList = false ∧
    (ofList ["task"] false).occurIn "// Tas\u212a:".toList = true := by decide +kernel

end ActionItems.Keywords
