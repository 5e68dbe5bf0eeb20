import ActionItems.Options.File
import ActionItems.Proofs.Options.Usability
import ActionItems.Proofs.Yaml.Building
import ActionItems.Proofs.Yaml.Scanning

/-!
# Options files that are not read

A text that is no YAML document leaves every option as it stands. Not so a text of the right form
with a value in it that cannot be: a date that the calendar does not have, or a number of too many
digits, breaks the reading wherever it stands in the document, in the section of the options or in
that of another program (`load_outcome`). `Spoils` lists all that can break it.
-/

namespace ActionItems.Options

open Yaml

/-- What breaks the reading of a text as an options file. -/
inductive Spoils (text : String) : LoadError → Prop
  /-- The tokens end in the escape of a character that there is not, or in a version of too many
  digits. -/
  | token {e : Error} : (TokenStream.ofText text.toList).fault? = some e → e.IsScanned → Spoils text
    (.document e)
  /-- A scalar anywhere in the document is not a value of its tag. -/
  | scalar {root p : Nat} {g : Graph} {e : Error} :
      Graph.ofTokens? (.ofText text.toList) = .ok (some (root, g)) → g.Holds root p →
        g.Unreadable p e →
      Spoils text (.document e)
  /-- A key in the section of the options cannot be written down. -/
  | key {document k v : Value} {entries : List (Value × Value)} :
      Yaml.read text = .ok document → section? document = some (.map entries) → (k, v) ∈ entries →
        IsUnwritable k →
      Spoils text (.options .unwritable)

variable {text : String}

theorem load_of_malformed {f : Fault} (h : Yaml.read text = .error (.malformed f)) :
    load (some text) = .ok {} := by
  simp only [load, h]
  split <;> rfl

theorem load_of_error {e : Error} (hne : text ≠ "") (h : Yaml.read text = .error e)
    (hform : ¬ e.IsMalformed) : load (some text) = .error (.document e) := by
  have hempty : text.isEmpty = false := by simpa using hne
  simp only [load, hempty, h]
  cases e with
  | malformed f => exact absurd ⟨f, rfl⟩ hform
  | _ => rfl

theorem load_of_ok {document : Value} (hne : text ≠ "") (h : Yaml.read text = .ok document) :
    load (some text) = ofDocument document := by
  have hempty : text.isEmpty = false := by simpa using hne
  simp only [load, hempty, h]
  rfl

theorem read_empty : Graph.ofTokens? (.ofText "".toList) = .ok none := rfl

theorem ofDocument_ok_iff {document : Value} : (∃ o, ofDocument document = .ok o) ↔
    ∀ entries, section? document = some (.map entries) → ∀ e ∈ entries, ¬ IsUnwritable e.1 := by
  have read : (∃ o, ofDocument document = .ok o) ↔ ∃ o, ofValue ((section? document).getD .null) =
      .ok o := by
    unfold ofDocument
    cases ofValue ((section? document).getD .null) with
    | error e => exact ⟨by rintro ⟨o, ⟨⟩⟩, by rintro ⟨o, ⟨⟩⟩⟩
    | ok o => exact ⟨fun _ => ⟨o, rfl⟩, fun _ => ⟨o, rfl⟩⟩
  rw [read, ofValue_ok_iff]
  cases hsection : section? document with
  | none => simp
  | some raw => simp

theorem error_of_ofDocument {document : Value} {e : LoadError}
    (h : ofDocument document = .error e) : e = .options .unwritable := by
  unfold ofDocument ofValue at h
  split at h
  · split at h
    · cases h
    · cases h
      rfl
  · cases h

/-- A text without a value ends in a fault of its tokens, or a scalar in it is not a value of its
tag. -/
theorem spoils_of_read {e : Error} (h : Yaml.read text = .error e) :
    e.IsMalformed ∨ Spoils text (.document e) := by
  unfold Yaml.read at h
  cases hnodes : Graph.ofTokens? (.ofText text.toList) with
  | error e' =>
    rw [hnodes] at h
    cases h
    exact (fault_of_ofTokens? hnodes).imp id fun hfault => .token hfault (isScanned_of_fault hfault)
  | ok found =>
    rw [hnodes] at h
    cases found with
    | none => cases h
    | some found =>
      refine (fails_of_value h).imp id ?_
      rintro ⟨p, hp, hunreadable⟩
      exact .scalar hnodes hp hunreadable

theorem spoils_of_load {e : LoadError} (h : load (some text) = .error e) : Spoils text e := by
  by_cases hempty : text = ""
  · subst hempty
    cases h
  · cases hread : Yaml.read text with
    | error e' =>
      rcases spoils_of_read hread with ⟨f, rfl⟩ | hspoils
      · rw [load_of_malformed hread] at h
        cases h
      · by_cases hform : e'.IsMalformed
        · obtain ⟨f, rfl⟩ := hform
          rw [load_of_malformed hread] at h
          cases h
        · rw [load_of_error hempty hread hform] at h
          cases h
          exact hspoils
    | ok document =>
      rw [load_of_ok hempty hread] at h
      have hnot : ¬ ∃ o, ofDocument document = .ok o := by
        rintro ⟨o, ho⟩
        rw [ho] at h
        cases h
      rw [ofDocument_ok_iff] at hnot
      push Not at hnot
      obtain ⟨entries, hsection, ⟨k, v⟩, hentry, hk⟩ := hnot
      obtain rfl := error_of_ofDocument h
      exact .key hread hsection hentry hk

/-- A broken scalar of a document keeps the text from being read. -/
theorem load_of_broken {root p : Nat} {g : Graph} {e : Error}
    (hnodes : Graph.ofTokens? (.ofText text.toList) = .ok (some (root, g))) (hp : g.Holds root p)
    (he : g.Broken p e) :
    (∃ f, Yaml.read text = .error (.malformed f)) ∨
      ∃ e', load (some text) = .error (.document e') := by
  have hne : text ≠ "" := by
    rintro rfl
    rw [read_empty] at hnodes
    cases hnodes
  have hread : Yaml.read text = g.value root := by
    unfold Yaml.read
    rw [hnodes]
    rfl
  cases hvalue : g.value root with
  | ok v => exact absurd he (not_broken_of_value hvalue hp e)
  | error e' =>
    rw [hvalue] at hread
    by_cases hform : e'.IsMalformed
    · obtain ⟨f, rfl⟩ := hform
      exact .inl ⟨f, hread⟩
    · exact .inr ⟨e', load_of_error hne hread hform⟩

theorem load_ok_iff {document : Value} (hread : Yaml.read text = .ok document) :
    (∃ o, load (some text) = .ok o) ↔
    ∀ entries, section? document = some (.map entries) → ∀ e ∈ entries, ¬ IsUnwritable e.1 := by
  rw [← ofDocument_ok_iff]
  by_cases hempty : text = ""
  · subst hempty
    cases hread
    exact iff_of_true ⟨_, rfl⟩ ⟨_, rfl⟩
  · rw [load_of_ok hempty hread]

/-- The date is in the section of another program. -/
example : (match load (some "other: 2024-02-30\n") with
    | .ok _ => none
    | .error e => some e) = some (.document (.calendar .day)) := by decide +kernel

end ActionItems.Options
