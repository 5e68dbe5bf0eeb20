import ActionItems.Proofs.Keyword.Occurrence
import ActionItems.Proofs.Options.Acceptance

/-!
# Keywords that stand alone

A word without blanks stands alone in a text where only blanks, or the ends of the text, are next to
it (`StandsAlone`). It does so still when the blanks at the ends of the text are dropped
(`StandsAlone.strip`), and no blank is a word character, so its ends are boundaries if its first and
its last character are word characters. If they are not, the word is not even found in a text that
is nothing but the word (`found_alone_iff`).
-/

namespace ActionItems.Keywords

open ActionItems.Text

variable {caseSensitive : Bool} {before after text : List Char}

/-! ### Blanks next to a word -/

theorem isWord_of_isBlank {c : Char} (h : isBlank c = true) : isWord c = false := by
  have none : ∀ range ∈ blankRanges, ∀ n ∈ List.range' range.1 (range.2 + 1 - range.1),
      isWord (Char.ofNat n) = false := by
    decide +kernel
  obtain ⟨range, mem, inside⟩ := List.any_eq_true.1 h
  simp only [Bool.and_eq_true, decide_eq_true_eq] at inside
  have among : c.toNat ∈ List.range' range.1 (range.2 + 1 - range.1) := by
    rw [List.mem_range'_1]
    omega
  have := none range mem c.toNat among
  rwa [Char.ofNat_toNat] at this

theorem not_isWordChar_of_blank {c? : Option Char} (h : ∀ c ∈ c?, isBlank c = true) :
    ¬ IsWordChar c? := by
  rintro ⟨c, mem, word⟩
  rw [isWord_of_isBlank (h c mem)] at word
  cases word

theorem stripStart_append_word {word : List Char} (nonempty : word ≠ [])
    (solid : ∀ c ∈ word, isBlank c = false) (before after : List Char) :
    stripStart (before ++ word ++ after) = stripStart before ++ word ++ after := by
  obtain ⟨c, word, rfl⟩ := List.exists_cons_of_ne_nil nonempty
  have first : stripStart (c :: word ++ after) = c :: word ++ after :=
    List.dropWhile_cons_of_neg (by rw [solid c List.mem_cons_self]; exact Bool.false_ne_true)
  unfold stripStart at first ⊢
  rw [List.append_assoc, List.dropWhile_append, first]
  cases List.dropWhile isBlank before with
  | nil => rfl
  | cons d rest => simp

theorem stripEnd_append_word {word : List Char} (nonempty : word ≠ [])
    (solid : ∀ c ∈ word, isBlank c = false) (before after : List Char) :
    stripEnd (before ++ word ++ after) = before ++ word ++ stripEnd after := by
  have turned : stripStart (after.reverse ++ word.reverse ++ before.reverse) =
      stripStart after.reverse ++ word.reverse ++ before.reverse := by
    refine stripStart_append_word (List.reverse_ne_nil_iff.2 nonempty) (fun c hc => ?_) _ _
    exact solid c (List.mem_reverse.1 hc)
  show (stripStart (before ++ word ++ after).reverse).reverse = _
  rw [List.reverse_append, List.reverse_append, ← List.append_assoc, turned]
  simp [stripEnd, stripEndWhile, stripStart]

/-- A word stands in a text with nothing but blanks, or the ends of the text, next to it. -/
structure StandsAlone (word before after : List Char) (text : List Char) : Prop where
  eq : text = before ++ word ++ after
  left : ∀ c ∈ before.getLast?, isBlank c = true
  right : ∀ c ∈ after.head?, isBlank c = true

/-- **A word without blanks that stands alone** does so without the blanks at the ends of the
text. -/
theorem StandsAlone.strip {word : List Char} (h : StandsAlone word before after text)
    (nonempty : word ≠ []) (solid : ∀ c ∈ word, isBlank c = false) :
    StandsAlone word (stripStart before) (stripEnd after) (strip text) where
  eq := by
    rw [h.eq, Text.strip, stripStart_append_word nonempty solid,
      stripEnd_append_word nonempty solid]
  left := by
    intro c hc
    obtain ⟨dropped, hdropped⟩ : stripStart before <:+ before := List.dropWhile_suffix isBlank
    refine h.left c ?_
    rw [← hdropped, List.getLast?_append, hc]
    rfl
  right := by
    intro c hc
    obtain ⟨dropped, hdropped⟩ : stripEnd after <+: after := by
      have kept : (after.reverse.dropWhile isBlank).reverse <+: after.reverse.reverse :=
        List.reverse_prefix.2 (List.dropWhile_suffix isBlank)
      rwa [List.reverse_reverse] at kept
    refine h.right c ?_
    rw [← hdropped, List.head?_append, hc]
    rfl

/-! ### Keywords that are found alone -/

theorem read_word_iff {word : String} :
    Setting.read? "action_items" (.list [.text word]) = .ok (some (.words [word])) ↔ word ≠ "" := by
  have read : Setting.read? "action_items" (.list [.text word]) =
      .ok ((Options.readWords? (.list [.text word])).map .words) := rfl
  have one : Options.readWords? (.list [.text word]) = some [word] ↔ word ≠ "" := by
    rw [Options.readWords?_eq_some_iff]
    constructor
    · rintro ⟨words, holds, -, given, -⟩
      generalize items : words.map Value.text = values at holds
      cases holds
      obtain ⟨w, rfl, hw⟩ := List.map_eq_singleton_iff.1 items
      cases hw
      exact given word (List.mem_singleton_self word)
    · intro given
      refine ⟨[word], .list _, by simp, by simpa using given, ?_⟩
      exact Options.firstOccurrences_eraseDups [word]
  rw [read, ← one]
  cases Options.readWords? (.list [.text word]) <;> simp

/-- A word whose ends are word characters is found where it stands alone. -/
theorem occurIn_of_standsAlone {word : String} (solid : ∀ c ∈ word.toList, isBlank c = false)
    (first : IsWordChar word.toList.head?) (last : IsWordChar word.toList.getLast?)
    (alone : StandsAlone word.toList before after text) :
    (ofList [word] caseSensitive).occurIn text = true := by
  have given : word ≠ "" := by
    rintro rfl
    obtain ⟨c, mem, -⟩ := first
    cases mem
  have nonempty : word.toList ≠ [] := fun h => given (String.toList_eq_nil_iff.1 h)
  obtain ⟨eq, left, right⟩ := alone.strip nonempty solid
  have same : List.Forall₂ (Same caseSensitive) word.toList word.toList := by
    refine List.forall₂_same.2 fun c _ => ?_
    have exactly : Same true c c := rfl
    exact exactly.mono fun _ => rfl
  rw [occurIn_iff_exists]
  refine ⟨word, List.mem_singleton_self word, given, _, _, _, eq, same, ?_, ?_⟩
  · exact .inr ⟨first, not_isWordChar_of_blank left⟩
  · exact .inl ⟨last, not_isWordChar_of_blank right⟩

theorem isWordChar_of_occurIn {word : String} (solid : ∀ c ∈ word.toList, isBlank c = false)
    (found : (ofList [word] caseSensitive).occurIn word.toList = true) :
    IsWordChar word.toList.head? ∧ IsWordChar word.toList.getLast? := by
  obtain ⟨w, mem, given, before, piece, after, eq, same, starts, ends⟩ := occurIn_iff_exists.1 found
  obtain rfl : w = word := List.mem_singleton.1 mem
  have nonempty : w.toList ≠ [] := fun h => given (String.toList_eq_nil_iff.1 h)
  have whole : strip w.toList = w.toList := by
    have alone : StandsAlone w.toList [] [] w.toList := ⟨by simp, by simp, by simp⟩
    have stripped := (alone.strip nonempty solid).eq
    rw [stripped]
    simp [stripStart, stripEnd, stripEndWhile]
  rw [whole] at eq
  have length := congrArg List.length eq
  rw [List.length_append, List.length_append, same.length_eq] at length
  obtain rfl : before = [] := List.eq_nil_of_length_eq_zero (by omega)
  obtain rfl : after = [] := List.eq_nil_of_length_eq_zero (by omega)
  obtain rfl : piece = w.toList := by rw [eq]; simp
  have outside : ¬ IsWordChar none := not_isWordChar_of_blank (by simp)
  constructor
  · exact (starts.resolve_left fun h => outside h.1).1
  · exact (ends.resolve_right fun h => outside h.1).1

/-- **A keyword without blanks is found wherever it stands alone if and only if it begins and ends
with a word character.** -/
theorem found_alone_iff {word : String}
    (accepted : Setting.read? "action_items" (.list [.text word]) = .ok (some (.words [word])))
    (solid : ∀ c ∈ word.toList, isBlank c = false) (caseSensitive : Bool) :
    (∀ (text : String) (before after : List Char),
      StandsAlone word.toList before after text.toList →
      (ofList [word] caseSensitive).occurIn text.toList = true) ↔
        IsWordChar word.toList.head? ∧ IsWordChar word.toList.getLast? := by
  have given := read_word_iff.1 accepted
  constructor
  · intro found
    exact isWordChar_of_occurIn solid (found word [] [] ⟨by simp, by simp, by simp⟩)
  · rintro ⟨first, last⟩ text before after alone
    exact occurIn_of_standsAlone solid first last alone

/-- A keyword with letters of any script and an underscore. -/
theorem found_alone_word :
    let word := "büg_1"
    Setting.read? "action_items" (.list [.text word]) = .ok (some (.words [word])) ∧
      (∀ c ∈ word.toList, isBlank c = false) ∧
      StandsAlone word.toList "# ".toList "\tlater".toList "# büg_1\tlater".toList ∧
      (IsWordChar word.toList.head? ∧ IsWordChar word.toList.getLast?) ∧
      (ofList [word] true).occurIn "# büg_1\tlater".toList = true := by
  intro word
  have accepted : Setting.read? "action_items" (.list [.text word]) = .ok (some (.words [word])) :=
    read_word_iff.2 (by decide)
  have solid : ∀ c ∈ word.toList, isBlank c = false := List.forall_iff_forall_mem.1 (by decide)
  have alone : StandsAlone word.toList "# ".toList "\tlater".toList "# büg_1\tlater".toList :=
    ⟨by decide, by rintro _ ⟨⟩; decide, by rintro _ ⟨⟩; decide⟩
  have ends : IsWordChar word.toList.head? ∧ IsWordChar word.toList.getLast? :=
    ⟨⟨'b', by decide, by decide⟩, ⟨'1', by decide, by decide⟩⟩
  have found := (found_alone_iff accepted solid true).2 ends
  exact ⟨accepted, solid, alone, ends, found "# büg_1\tlater" _ _ alone⟩

/-- A keyword that begins with a mark is not found where it stands alone. -/
theorem mention_not_found : ¬ ∀ word : String,
    Setting.read? "action_items" (.list [.text word]) = .ok (some (.words [word])) →
    (∀ c ∈ word.toList, isBlank c = false) →
    ∀ (text : String) (before after : List Char), StandsAlone word.toList before after text.toList →
      (ofList [word] false).occurIn text.toList = true := by
  intro always
  have missed : (ofList ["@todo"] false).occurIn "# @todo later".toList = false := by decide +kernel
  have alone : StandsAlone "@todo".toList "# ".toList " later".toList "# @todo later".toList :=
    ⟨by decide, by rintro _ ⟨⟩; decide, by rintro _ ⟨⟩; decide⟩
  have solid : ∀ c ∈ "@todo".toList, isBlank c = false := List.forall_iff_forall_mem.1 (by decide)
  have found := always "@todo" (read_word_iff.2 (by decide)) solid "# @todo later" _ _ alone
  rw [missed] at found
  cases found

end ActionItems.Keywords
