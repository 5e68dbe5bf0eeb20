import ActionItems.Proofs.Pattern.Whole
import ActionItems.Proofs.Webhook.Event

/-!
# Names of repositories

The name of a repository is a text that a pattern for whole texts matches: letters, digits and three
marks of ASCII (`nameNotation`). As a line feed at the end of a text does not count for such a
pattern, it does not count here: the names of the repositories in events are the texts of these
characters, and the same with a line feed behind them (`named_iff`). All else that is asked of an
event holds as it is said (`events_wellFormed`).
-/

namespace ActionItems.Webhook

open ActionItems.Pattern

variable {c : Char} {s : List Char} {v : Value} {event : Event}

/-- The pattern of the names of repositories. -/
def nameNotation : String := "^[0-9A-Za-z\\-_.]+$"

/-- The characters of names as a set. -/
def nameSet : CharSet :=
  ⟨false, [.range '0'.toNat '9'.toNat, .range 'A'.toNat 'Z'.toNat, .range 'a'.toNat 'z'.toNat,
    .point '-'.toNat, .point '_'.toNat, .point '.'.toNat]⟩

/-- The pattern of names between its anchors. -/
def nameBody : Node := .loop 1 none false (.char nameSet)

/-- A letter or digit of ASCII, or one of the three marks. -/
def IsNameChar (c : Char) : Prop :=
  ('0' ≤ c ∧ c ≤ '9') ∨ ('A' ≤ c ∧ c ≤ 'Z') ∨ ('a' ≤ c ∧ c ≤ 'z') ∨ c ∈ ['-', '_', '.']

/-- A text of such characters that is not empty, or one with a line feed behind it. -/
def IsName (name : String) : Prop :=
  ∃ stem, (name.toList = stem ∨ name.toList = stem ++ ['\n']) ∧ stem ≠ [] ∧ ∀ c ∈ stem, IsNameChar c

theorem read_nameNotation [CharNames] : Pattern.read nameNotation.toList = .ok (whole nameBody) :=
  rfl

theorem isAlphanum_iff :
    c.isAlphanum = true ↔ ('0' ≤ c ∧ c ≤ '9') ∨ ('A' ≤ c ∧ c ≤ 'Z') ∨ ('a' ≤ c ∧ c ≤ 'z') := by
  have digit : c.isDigit = true ↔ '0' ≤ c ∧ c ≤ '9' :=
    Bool.and_eq_true_iff.trans (and_congr decide_eq_true_iff decide_eq_true_iff)
  have upper : c.isUpper = true ↔ 'A' ≤ c ∧ c ≤ 'Z' := decide_eq_true_iff
  have lower : c.isLower = true ↔ 'a' ≤ c ∧ c ≤ 'z' :=
    Bool.and_eq_true_iff.trans (and_congr decide_eq_true_iff decide_eq_true_iff)
  have alphanum : c.isAlphanum = (c.isUpper || c.isLower || c.isDigit) := rfl
  rw [alphanum, Bool.or_eq_true, Bool.or_eq_true, digit, upper, lower, or_comm]

theorem isNameChar_iff : isNameChar c = true ↔ IsNameChar c := by
  simp only [isNameChar, IsNameChar, Bool.or_eq_true, isAlphanum_iff, decide_eq_true_eq,
    List.mem_cons, List.not_mem_nil, or_false, or_assoc]

theorem test_nameSet : nameSet.test c = true ↔ IsNameChar c := by
  simp [nameSet, IsNameChar, CharSet.test, SetItem.test, Char.le_def, UInt32.le_iff_toNat_le]
  simp only [← Char.toNat_inj]
  exact Iff.rfl

/-- **A text is a name if and only if the pattern of names matches it.** -/
theorem matches_name_iff {name : String} :
    matchesAt (whole nameBody) ⟨[], name.toList, []⟩ = true ↔ IsName name := by
  have regular : IsRegular nameBody := .many 1 nameSet
  rw [matches_whole_iff regular, IsName]
  simp only [nameBody, spells_many, test_nameSet, ← List.length_pos_iff, Nat.lt_iff_add_one_le,
    Nat.zero_add]

theorem isRepositoryName_iff {name : String} : isRepositoryName name = true ↔ IsName name := by
  have newline : isNameChar '\n' = false := by decide
  rw [isRepositoryName, Text.all_dropFinalNewline_iff newline]
  simp only [isNameChar_iff, IsName]

/-! ### Names in events -/

theorem Repository.ofValue?_eq_some_iff {r : Repository} : Repository.ofValue? v = some r ↔
    required? v "name" Value.text? = some r.name ∧ isRepositoryName r.name = true ∧
      required? v "full_name" Value.text? = some r.fullName ∧ '/' ∈ r.fullName.toList := by
  simp only [Repository.ofValue?, Option.bind_eq_bind, Option.bind_eq_some_iff,
    Option.filter_eq_some_iff, List.contains_iff_mem, Option.pure_def, Option.some.injEq]
  constructor
  · rintro ⟨name, ⟨hname, valid⟩, fullName, ⟨hfullName, owned⟩, rfl⟩
    exact ⟨hname, valid, hfullName, owned⟩
  · rintro ⟨hname, valid, hfullName, owned⟩
    exact ⟨_, ⟨hname, valid⟩, _, ⟨hfullName, owned⟩, rfl⟩

theorem Repository.isRepositoryName_of_ofValue? {r : Repository}
    (h : Repository.ofValue? v = some r) : isRepositoryName r.name = true :=
  (ofValue?_eq_some_iff.1 h).2.1

theorem Event.repository_of_ofValue? (h : Event.ofValue? v = some event) :
    required? v "repository" Repository.ofValue? = some event.repository := by
  obtain ⟨entries, -, h⟩ := Option.bind_eq_some_iff.1 h
  obtain ⟨action?, -, h⟩ := Option.bind_eq_some_iff.1 h
  obtain ⟨repository, hrepository, h⟩ := Option.bind_eq_some_iff.1 h
  obtain ⟨installation?, -, h⟩ := Option.bind_eq_some_iff.1 h
  obtain ⟨checkRun?, -, h⟩ := Option.bind_eq_some_iff.1 h
  obtain ⟨checkSuite?, -, h⟩ := Option.bind_eq_some_iff.1 h
  obtain ⟨pullRequest?, -, hevent⟩ := Option.bind_eq_some_iff.1 h
  cases hevent
  exact hrepository

/-- The document of an event that is only said to be in a repository. -/
def document (r : Repository) : Value :=
  .object [("repository", .object [("name", .text r.name), ("full_name", .text r.fullName)])]

theorem ofValue?_document {r : Repository} (hname : isRepositoryName r.name = true)
    (howner : '/' ∈ r.fullName.toList) :
    Event.ofValue? (document r) = some ⟨none, r, none, none, none, none⟩ := by
  have read : required? (document r) "repository" Repository.ofValue? = some r :=
    Repository.ofValue?_eq_some_iff.2 ⟨rfl, hname, rfl, howner⟩
  unfold Event.ofValue?
  rw [read]
  rfl

/-- **The names of repositories in events** are those of the pattern. -/
theorem named_iff {name : String} :
    (∃ v event, Event.ofValue? v = some event ∧ event.repository.name = name) ↔ IsName name := by
  rw [← isRepositoryName_iff]
  constructor
  · rintro ⟨v, event, h, rfl⟩
    exact of_required? Repository.isRepositoryName_of_ofValue? (Event.repository_of_ofValue? h)
  · exact fun hname => ⟨_, _, ofValue?_document (r := ⟨name, "/"⟩) hname (by simp), rfl⟩

/-- A name has no characters but those of names if and only if it has no line feed. -/
theorem IsName.forall_iff {name : String} (h : IsName name) :
    (∀ c ∈ name.toList, IsNameChar c) ↔ '\n' ∉ name.toList := by
  have newline : ¬ IsNameChar '\n' := by
    rw [← isNameChar_iff]
    decide
  obtain ⟨stem, text, -, valid⟩ := h
  constructor
  · exact fun all mem => newline (all _ mem)
  · intro absent
    obtain text | text := text
    · rwa [text]
    · exact absurd (by simp [text]) absent

/-- **Every event that is read is well formed.** Its repository has a name that the pattern of names
matches: letters, digits and marks of ASCII, where a line feed at the end does not count; all names
of this form are met, and those without a line feed are the ones of these characters alone. The full
name has an owner, and the pull requests of the checks have positive numbers. -/
theorem events_wellFormed [CharNames] (name : String) (body : List UInt8) :
    (∃ pattern, Pattern.read nameNotation.toList = .ok pattern ∧
      (matchesAt pattern ⟨[], name.toList, []⟩ = true ↔ IsName name)) ∧
    ((∃ v event, Event.ofValue? v = some event ∧ event.repository.name = name) ↔ IsName name) ∧
    ∀ event, Event.ofBytes body = .ok event →
      IsName event.repository.name ∧
      ((∀ c ∈ event.repository.name.toList, IsNameChar c) ↔ '\n' ∉ event.repository.name.toList) ∧
      '/' ∈ event.repository.fullName.toList ∧
      ∀ check, event.checkRun? = some check ∨ event.checkSuite? = some check →
        ∀ p ∈ check.pullRequests, 0 < p.number := by
  refine ⟨⟨whole nameBody, read_nameNotation, matches_name_iff⟩, named_iff, fun event h => ?_⟩
  obtain ⟨v, hread⟩ := Event.exists_ofValue?_of_ofBytes h
  have valid := Event.isValid_of_ofBytes h
  have named := named_iff.1 ⟨v, event, hread, rfl⟩
  refine ⟨named, named.forall_iff, valid.owner, ?_⟩
  rintro check (hrun | hsuite)
  · exact valid.checkRun check hrun
  · exact valid.checkSuite check hsuite

/-- An event in a repository whose name has a line feed at its end is read, and is well formed. -/
theorem events_wellFormed_newline :
    let body :=
      Bytes.encode
        ("\x7b\"repository\": \x7b\"name\": \"a-b.c_D\\n\", \"full_name\": \"o/r\"\x7d, " ++
        "\"check_suite\": \x7b\"id\": 9, \"head_sha\": \"abc\", \"pull_requests\": [\x7b\"number\": 5\x7d]\x7d\x7d")
    ∃ event check, Event.ofBytes body = .ok event ∧ event.repository.name = "a-b.c_D\n" ∧
      IsName event.repository.name ∧ event.checkSuite? = some check ∧
      check.pullRequests = [⟨5, none⟩] ∧ ∀ p ∈ check.pullRequests, 0 < p.number := by
  intro body
  let check : Check := ⟨9, "abc", [⟨5, none⟩], none⟩
  let event : Event := ⟨none, ⟨"a-b.c_D\n", "o/r"⟩, none, none, some check, none⟩
  have read : Event.ofBytes body = .ok event := Except.eq_ok_of_toOption (by decide +kernel)
  let _ := CharNames.none
  obtain ⟨-, -, wellFormed⟩ := events_wellFormed "a-b.c_D\n" body
  obtain ⟨named, -, -, numbered⟩ := wellFormed event read
  exact ⟨event, check, read, rfl, named, rfl, rfl, numbered check (.inr rfl)⟩

end ActionItems.Webhook
