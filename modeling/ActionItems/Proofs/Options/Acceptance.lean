import ActionItems.Options
import ActionItems.Proofs.Except
import Mathlib.Data.List.Perm.Subperm

/-!
# Which values an option accepts

`Accepts name v s` says that the value `v` is valid for the option `name` and stands there for `s`.
Each option is read as its values are accepted, all readers at once in `read_eq_some_iff`: a list
may be given as any kind of list (`Holds`), and a list of keywords stands for their first
occurrences (`FirstOccurrences`).
-/

namespace ActionItems.Options

open ActionItems.Comment ActionItems.Text

/-! ### First occurrences -/

/-- Words without repetitions, in the order in which they first come. -/
structure FirstOccurrences (words kept : List String) : Prop where
  mem_iff : ∀ w, w ∈ kept ↔ w ∈ words
  ordered : kept.Pairwise fun a b => words.idxOf a < words.idxOf b

theorem FirstOccurrences.nodup {words kept : List String} (h : FirstOccurrences words kept) :
    kept.Nodup :=
  h.ordered.imp fun hab he => Nat.ne_of_lt hab (congrArg words.idxOf he)

theorem FirstOccurrences.length_le {words kept : List String} (h : FirstOccurrences words kept) :
    kept.length ≤ words.length :=
  (h.nodup.subperm fun w hw => (h.mem_iff w).1 hw).length_le

theorem idxOf_lt_of_filter {p : String → Bool} {words : List String} {a b : String}
    (ha : p a = true) (hb : p b = true) (h : (words.filter p).idxOf a < (words.filter p).idxOf b) :
    words.idxOf a < words.idxOf b := by
  induction words with
  | nil => exact h
  | cons w words ih =>
    by_cases hw : p w = true
    · rw [List.filter_cons_of_pos hw] at h
      by_cases hwb : w = b
      · subst hwb
        rw [List.idxOf_cons_self] at h
        cases h
      · by_cases hwa : w = a
        · subst hwa
          rw [List.idxOf_cons_self, List.idxOf_cons_ne _ hwb]
          exact Nat.succ_pos _
        · rw [List.idxOf_cons_ne _ hwa, List.idxOf_cons_ne _ hwb] at h ⊢
          exact Nat.succ_lt_succ (ih (Nat.lt_of_succ_lt_succ h))
    · have hwa : w ≠ a := fun he => hw (he ▸ ha)
      have hwb : w ≠ b := fun he => hw (he ▸ hb)
      rw [List.filter_cons_of_neg hw] at h
      rw [List.idxOf_cons_ne _ hwa, List.idxOf_cons_ne _ hwb]
      exact Nat.succ_lt_succ (ih h)

theorem firstOccurrences_eraseDups (words : List String) :
    FirstOccurrences words words.eraseDups := by
  cases words with
  | nil => exact ⟨fun w => Iff.rfl, .nil⟩
  | cons w words =>
    let others := words.filter fun b => !b == w
    have first : FirstOccurrences others others.eraseDups := firstOccurrences_eraseDups others
    have kept {a : String} (ha : a ∈ others.eraseDups) : (!a == w) = true :=
      (List.mem_filter.1 ((first.mem_iff a).1 ha)).2
    have other {a : String} (ha : a ∈ others.eraseDups) : w ≠ a := by
      have := kept ha
      rintro rfl
      rw [beq_self_eq_true] at this
      cases this
    refine ⟨fun a => List.mem_eraseDups, ?_⟩
    rw [List.eraseDups_cons, List.pairwise_cons]
    constructor
    · intro a ha
      rw [List.idxOf_cons_self, List.idxOf_cons_ne _ (other ha)]
      exact Nat.succ_pos _
    · refine first.ordered.imp_of_mem fun {a b} ha hb hab => ?_
      rw [List.idxOf_cons_ne _ (other ha), List.idxOf_cons_ne _ (other hb)]
      exact Nat.succ_lt_succ (idxOf_lt_of_filter (kept ha) (kept hb) hab)
termination_by words.length
decreasing_by exact Nat.lt_succ_of_le (List.length_filter_le _ _)

/-- The first occurrences of words are determined by the words. -/
theorem FirstOccurrences.eq {words kept : List String} (h : FirstOccurrences words kept) :
    kept = words.eraseDups := by
  have first := firstOccurrences_eraseDups words
  refine List.Perm.eq_of_pairwise (fun a b _ _ hab hba => absurd hab (Nat.lt_asymm hba)) h.ordered
    first.ordered ?_
  exact (List.perm_ext_iff_of_nodup h.nodup first.nodup).2 fun w =>
    (h.mem_iff w).trans (first.mem_iff w).symm

/-! ### Accepted values -/

/-- A value that is a list of some kind, with its items. -/
inductive Holds : Value → List Value → Prop
  | list (items : List Value) : Holds (.list items) items
  | tuple (items : List Value) : Holds (.tuple items) items
  | set (items : List Value) : Holds (.set items) items

/-- The value that an optional text is written as. -/
def optional : Option String → Value
  | none => .null
  | some s => .text s

/-- A value that is a text or nothing. -/
inductive Tells : Value → Option String → Prop
  | nothing : Tells .null none
  | text (s : String) : Tells (.text s) (some s)
  | loose (points : List Nat) : Tells (.loose points) (some (Value.loose points).display)

/-- A value with the items of an added language. -/
structure IsLanguage (v : Value) (entry : List (Option String)) : Prop where
  items : ∃ items, Holds v items ∧ List.Forall₂ Tells items entry
  least : 2 ≤ entry.length
  greatest : entry.length ≤ 4

/-- A text that may be a glob. -/
def IsGlob (s : List Char) : Prop :=
  ∃ body, (s = body ∨ s = body ++ ['\n']) ∧ body ≠ [] ∧
    ∀ c ∈ body, isWord c = true ∨ c ∈ "*[]\x7b\x7d?./-".toList

/-- The options that are truth values. -/
def flagNames : List String := ["multiline_comments", "case_sensitive", "always_split_snippets"]

/-- Whether a value is valid for the option of a name and stands for a setting there. -/
def Accepts (name : String) (v : Value) : Setting → Prop
  | .choice c => name = "post_comment" ∧ v = .text c.word
  | .flag b => name ∈ flagNames ∧ v = .bool b
  | .words kept => name = "action_items" ∧ ∃ words : List String, Holds v (words.map .text) ∧
      words.length ≤ 15 ∧ (∀ w ∈ words, w ≠ "") ∧ FirstOccurrences words kept
  | .languages overrides => name = "add_languages" ∧ ∃ items entries, Holds v items ∧
      1 ≤ items.length ∧ items.length ≤ 10 ∧ List.Forall₂ IsLanguage items entries ∧
      overrides = overridesOf entries
  | .globs globs => name = "ignore_files" ∧ Holds v (globs.map .text) ∧
      1 ≤ globs.length ∧ globs.length ≤ 7 ∧ ∀ g ∈ globs, IsGlob g.toList
  | .lines n => name = "additional_lines" ∧ v = .int n ∧ n ≤ 10

/-! ### Reading -/

theorem items?_eq_some_iff {v : Value} {items : List Value} :
    items? v = some items ↔ Holds v items := by
  constructor
  · intro h
    cases v with
    | list _ => cases h; exact .list items
    | tuple _ => cases h; exact .tuple items
    | set _ => cases h; exact .set items
    | _ => cases h
  · rintro (_ | _ | _) <;> rfl

theorem readList?_eq_some_iff {α : Type} {read : Value → Option α} {least greatest : Nat}
    {v : Value} {out : List α} :
    readList? read least greatest v = some out ↔ ∃ items, Holds v items ∧
      least ≤ items.length ∧ items.length ≤ greatest ∧
      List.Forall₂ (fun item a => read item = some a) items out := by
  unfold readList?
  constructor
  · intro h
    split at h
    · cases h
    · next items hitems =>
      split at h
      · next hlength =>
        exact ⟨items, items?_eq_some_iff.1 hitems, hlength.1, hlength.2,
          Option.mapM_eq_some_iff.1 h⟩
      · cases h
  · rintro ⟨items, holds, hleast, hgreatest, each⟩
    rw [items?_eq_some_iff.2 holds]
    exact (if_pos ⟨hleast, hgreatest⟩).trans (Option.mapM_eq_some_iff.2 each)

theorem forall₂_read_iff {α : Type} {read : Value → Option α} {write : α → Value} {valid : α → Prop}
    (h : ∀ v a, read v = some a ↔ v = write a ∧ valid a) {items : List Value} {out : List α} :
    List.Forall₂ (fun item a => read item = some a) items out ↔
      items = out.map write ∧ ∀ a ∈ out, valid a := by
  simp only [h]
  constructor
  · intro each
    induction each with
    | nil => exact ⟨rfl, by simp⟩
    | cons hread _ ih => exact ⟨congrArg₂ _ hread.1 ih.1, List.forall_mem_cons.2 ⟨hread.2, ih.2⟩⟩
  · rintro ⟨rfl, hvalid⟩
    exact List.forall₂_map_left_iff.2 (List.forall₂_same.2 fun a ha => ⟨rfl, hvalid a ha⟩)

theorem text?_eq_some_iff {v : Value} {s : String} : text? v = some s ↔ v = .text s := by
  cases v <;> simp [text?]

theorem optionalText?_eq_some_iff {v : Value} {o : Option String} :
    optionalText? v = some o ↔ Tells v o := by
  constructor
  · intro h
    cases v with
    | null => cases h; exact .nothing
    | text s => cases h; exact .text s
    | loose points => cases h; exact .loose points
    | _ => cases h
  · rintro (_ | _ | _) <;> rfl

theorem readPostComment?_eq_some_iff {v : Value} {c : PostComment} :
    readPostComment? v = some c ↔ v = .text c.word := by
  constructor
  · intro h
    unfold readPostComment? at h
    split at h
    · have same := List.find?_some h
      rw [beq_iff_eq] at same
      rw [same]
    · cases h
  · rintro rfl
    cases c <;> rfl

theorem readFlag?_eq_some_iff {v : Value} {b : Bool} : readFlag? v = some b ↔ v = .bool b := by
  cases v <;> simp [readFlag?]

theorem readWord?_eq_some_iff (v : Value) (w : String) :
    readWord? v = some w ↔ v = .text w ∧ w ≠ "" := by
  simp [readWord?, Option.filter_eq_some_iff, text?_eq_some_iff]

theorem readWords?_eq_some_iff {v : Value} {kept : List String} : readWords? v = some kept ↔
    ∃ words : List String, Holds v (words.map .text) ∧ words.length ≤ 15 ∧ (∀ w ∈ words, w ≠ "") ∧
      FirstOccurrences words kept := by
  simp only [readWords?, Option.map_eq_some_iff, readList?_eq_some_iff,
    forall₂_read_iff readWord?_eq_some_iff]
  constructor
  · rintro ⟨words, ⟨items, holds, -, hfew, rfl, hgiven⟩, rfl⟩
    rw [List.length_map] at hfew
    exact ⟨words, holds, hfew, hgiven, firstOccurrences_eraseDups words⟩
  · rintro ⟨words, holds, hfew, hgiven, first⟩
    exact ⟨words, ⟨_, holds, Nat.zero_le _, by rwa [List.length_map], rfl, hgiven⟩, first.eq.symm⟩

theorem readLanguage?_eq_some_iff {v : Value} {entry : List (Option String)} :
    readLanguage? v = some entry ↔ IsLanguage v entry := by
  simp only [readLanguage?, readList?_eq_some_iff, optionalText?_eq_some_iff]
  constructor
  · rintro ⟨items, holds, hleast, hgreatest, each⟩
    exact ⟨⟨items, holds, each⟩, each.length_eq ▸ hleast, each.length_eq ▸ hgreatest⟩
  · rintro ⟨⟨items, holds, each⟩, hleast, hgreatest⟩
    exact ⟨items, holds, each.length_eq ▸ hleast, each.length_eq ▸ hgreatest, each⟩

theorem readLanguages?_eq_some_iff {v : Value} {overrides : List (Override String)} :
    readLanguages? v = some overrides ↔ ∃ items entries, Holds v items ∧ 1 ≤ items.length ∧
      items.length ≤ 10 ∧ List.Forall₂ IsLanguage items entries ∧
      overrides = overridesOf entries := by
  simp only [readLanguages?, Option.map_eq_some_iff, readList?_eq_some_iff,
    readLanguage?_eq_some_iff]
  constructor
  · rintro ⟨entries, ⟨items, holds, hleast, hgreatest, each⟩, rfl⟩
    exact ⟨items, entries, holds, hleast, hgreatest, each, rfl⟩
  · rintro ⟨items, entries, holds, hleast, hgreatest, each, rfl⟩
    exact ⟨entries, ⟨items, holds, hleast, hgreatest, each⟩, rfl⟩

theorem isGlobChar_iff {c : Char} :
    isGlobChar c = true ↔ isWord c = true ∨ c ∈ "*[]\x7b\x7d?./-".toList := by
  rw [isGlobChar, Bool.or_eq_true, List.contains_iff_mem]
  rfl

theorem isGlob_iff {s : List Char} : isGlob s = true ↔ IsGlob s := by
  have newline : isGlobChar '\n' = false := by decide
  simp only [isGlob, all_dropFinalNewline_iff newline, isGlobChar_iff]
  rfl

theorem readGlob?_eq_some_iff (v : Value) (g : String) :
    readGlob? v = some g ↔ v = .text g ∧ IsGlob g.toList := by
  simp only [readGlob?, Option.filter_eq_some_iff, text?_eq_some_iff, isGlob_iff]

theorem readGlobs?_eq_some_iff {v : Value} {globs : List String} : readGlobs? v = some globs ↔
    Holds v (globs.map .text) ∧ 1 ≤ globs.length ∧ globs.length ≤ 7 ∧
    ∀ g ∈ globs, IsGlob g.toList := by
  simp only [readGlobs?, readList?_eq_some_iff, forall₂_read_iff readGlob?_eq_some_iff]
  constructor
  · rintro ⟨items, holds, hleast, hgreatest, rfl, hglobs⟩
    rw [List.length_map] at hleast hgreatest
    exact ⟨holds, hleast, hgreatest, hglobs⟩
  · rintro ⟨holds, hleast, hgreatest, hglobs⟩
    exact ⟨_, holds, by rwa [List.length_map], by rwa [List.length_map], rfl, hglobs⟩

theorem readLines?_eq_some_iff {v : Value} {n : Nat} :
    readLines? v = some n ↔ v = .int n ∧ n ≤ 10 := by
  constructor
  · intro h
    unfold readLines? at h
    split at h
    · next i =>
      split at h
      · next hi =>
        cases h
        have hi10 : i ≤ 10 := hi.2
        exact ⟨congrArg Value.int (Int.toNat_of_nonneg hi.1).symm, by omega⟩
      · cases h
    · cases h
  · rintro ⟨rfl, hn⟩
    have bounds : (0 : Int) ≤ n ∧ (n : Int) ≤ linesLimit :=
      ⟨Int.natCast_nonneg n, Int.ofNat_le.2 hn⟩
    exact (if_pos bounds).trans (congrArg some (Int.toNat_natCast n))

/-- **Every option is read as its values are accepted.** -/
theorem read_eq_some_iff {name : String} {read : Value → Option Setting}
    (h : (name, read) ∈ Setting.readers) {v : Value} {s : Setting} :
    read v = some s ↔ Accepts name v s := by
  simp only [Setting.readers, List.mem_cons, List.not_mem_nil, or_false, Prod.mk.injEq] at h
  rcases h with ⟨rfl, rfl⟩ | ⟨rfl, rfl⟩ | ⟨rfl, rfl⟩ | ⟨rfl, rfl⟩ | ⟨rfl, rfl⟩ | ⟨rfl, rfl⟩ |
    ⟨rfl, rfl⟩ | ⟨rfl, rfl⟩ <;>
    cases s <;> simp [Accepts, flagNames, readPostComment?_eq_some_iff, readFlag?_eq_some_iff,
      readWords?_eq_some_iff, readLanguages?_eq_some_iff, readGlobs?_eq_some_iff,
      readLines?_eq_some_iff]

end ActionItems.Options
