import ActionItems.Proofs.Keyed
import ActionItems.Proofs.Options.Usability
import ActionItems.Proofs.Text.Case

/-!
# Comment grammars that a repository adds

An entry of added languages is a list of texts and nulls. It comes as a value, of which nothing is
known (`Override.ofValue`), or as what is left of it after the option is read (`Override.ofItems`).
Either way it is the same override, but for the kind of its markers (`ofValue_written`), and it is
refused by what it lacks (`isRefusal_of_ofItems`). So a table is built of any entries, and it is the
one of the option if that is read.

Overrides are put into the table of common languages one after the other, and the last one for an
extension is there in the end (`settles_of_foldlM`). The extension of a path is in small letters and
has no point, and looking it up leaves it so (`normalizeExtension_lower`): in the end a file has the
grammar that the last entry for its extension gives (`inEffect_of_builds`).
-/

namespace ActionItems.Comment

open ActionItems.Text

/-! ### Markers of texts -/

theorem make_ofTexts (line : String) (opening? closing? : Option String) :
    Grammar.make (Value.text line) (opening?.map .text) (closing?.map .text) =
      (Grammar.make line opening? closing?).map Grammar.ofTexts := by
  have given : Marker.isGiven (Value.text line) = Marker.isGiven line := rfl
  have empty (s : String) : isEmptyText (Value.text s) = isEmptyText s := rfl
  unfold Grammar.make
  rw [given]
  split
  · cases opening? <;> cases closing? <;> try rfl
    next opening closing =>
      show (if isEmptyText (Value.text opening) || isEmptyText (Value.text closing) then _
        else _) = _
      rw [empty, empty]
      dsimp only
      split <;> rfl
  · rfl

namespace Override

/-- The override `o` of texts, with the texts for markers. -/
def ofTexts : Override String → Override Value
  | .lineOnly e l => .lineOnly e (.text l)
  | .symmetric e l c => .symmetric e (.text l) (.text c)
  | .explicit e l o c => .explicit e (.text l) (.text o) (.text c)

@[simp] theorem extension_ofTexts (o : Override String) : o.ofTexts.extension = o.extension := by
  cases o <;> rfl

theorem grammar_ofTexts (o : Override String) :
    o.ofTexts.grammar = o.grammar.map Grammar.ofTexts := by
  cases o with
  | lineOnly e l => exact make_ofTexts l none none
  | symmetric e l c => exact make_ofTexts l (some l) (some c)
  | explicit e l o c => exact make_ofTexts l (some o) (some c)

/-! ### Entries -/

theorem readValue_optional (item : Option String) :
    readValue (Options.optional item) = (readText item).map Value.text := by
  cases item with
  | none => rfl
  | some s =>
    show (if !s.isEmpty then some (Value.text s) else none) = _
    cases h : s.isEmpty <;> simp [readText, Option.filter, h]

theorem ofRest_optional (extension line : String) (rest : List (Option String)) :
    ofRest readValue extension (Value.text line) (rest.map Options.optional) =
      (ofRest readText extension line rest).map ofTexts := by
  match rest with
  | [] => rfl
  | [closing] =>
    simp only [ofRest, List.map_cons, List.map_nil, readValue_optional]
    cases readText closing <;> rfl
  | opening :: closing :: _ =>
    simp only [ofRest, List.map_cons, readValue_optional]
    cases readText opening <;> cases readText closing <;> rfl

/-- An entry of added languages as a value. -/
def written (entry : List (Option String)) : Value := .list (entry.map Options.optional)

/-- **An entry gives the same override as a value and as what is read of it.** -/
theorem ofValue_written (entry : List (Option String)) :
    ofValue (written entry) = (ofItems readText entry).map ofTexts := by
  show ofItems readValue (entry.map Options.optional) = _
  match entry with
  | [] | [_] => rfl
  | first :: second :: rest =>
    simp only [ofItems, List.map_cons, List.length_map, readValue_optional]
    split
    · rfl
    · cases readText first with
      | none => rfl
      | some name =>
        cases readText second with
        | none => rfl
        | some line =>
          show (if (normalizeExtension name).isEmpty then .error .emptyExtension
            else ofRest readValue (normalizeExtension name) (.text line)
              (rest.map Options.optional)) = _
          rw [ofRest_optional]
          dsimp only [Marker.text?]
          split <;> rfl

theorem extension_of_ofRest {extension line : String} {rest : List (Option String)}
    {o : Override String} (h : ofRest readText extension line rest = .ok o) :
    o.extension = extension := by
  unfold ofRest at h
  split at h
  · cases h
    rfl
  · split at h <;> cases h <;> rfl
  · split at h <;> cases h <;> rfl

theorem extension_of_ofItems {entry : List (Option String)} {o : Override String}
    (h : ofItems readText entry = .ok o) :
    ∃ raw more, entry = some raw :: more ∧ normalizeExtension raw = o.extension := by
  unfold ofItems at h
  split at h
  · next first second rest =>
    split at h
    · cases h
    · split at h
      · next raw line hraw hline =>
        dsimp only [Marker.text?] at h
        split at h
        · cases h
        · obtain ⟨given, -⟩ := Option.filter_eq_some_iff.1 hraw
          exact ⟨raw, second :: rest, by rw [given], (extension_of_ofRest h).symm⟩
      · cases h
  · cases h

theorem ofValue_written_ok_iff {entry : List (Option String)} {o : Override Value} :
    ofValue (written entry) = .ok o ↔ ∃ o', ofItems readText entry = .ok o' ∧ o = o'.ofTexts := by
  rw [ofValue_written]
  cases ofItems readText entry with
  | error fault => simp [Except.map]
  | ok o' => simp [Except.map, eq_comm]

/-- An entry is refused for what is missing in it, and for no other reason. -/
theorem isRefusal_of_ofItems (entry : List (Option String)) :
    Except.FailsWith (·.isRefusal = true) (ofItems readText entry) := by
  unfold ofItems
  split
  · next first second rest =>
    rw [Except.failsWith_ite_iff]
    refine ⟨fun _ => Except.failsWith_error.2 rfl, fun _ => ?_⟩
    split
    · dsimp only [Marker.text?]
      rw [Except.failsWith_ite_iff]
      refine ⟨fun _ => Except.failsWith_error.2 rfl, fun _ => ?_⟩
      unfold ofRest
      split
      · exact Except.failsWith_ok
      · split <;> exact Except.failsWith_ok
      · split
        · exact Except.failsWith_ok
        · exact Except.failsWith_ok
        · exact Except.failsWith_error.2 rfl
    · exact Except.failsWith_error.2 rfl
  · exact Except.failsWith_error.2 rfl

end Override

/-- Entries that are refused for what is missing in them are passed over. -/
theorem Table.acceptedOverrides_eq_filterMap {α μ : Type}
    {read : α → Except Override.Fault (Override μ)} {entries : List α}
    (h : ∀ entry ∈ entries, Except.FailsWith (·.isRefusal = true) (read entry)) :
    Table.acceptedOverrides read entries =
      .ok (entries.filterMap fun entry => (read entry).toOption) := by
  induction entries with
  | nil => rfl
  | cons entry entries ih =>
    obtain ⟨here, rest⟩ := List.forall_mem_cons.1 h
    rw [Table.acceptedOverrides, List.filterMap_cons, ih rest]
    cases hentry : read entry with
    | ok o => rfl
    | error fault =>
      dsimp only
      rw [here fault hentry]
      rfl

/-! ### The last override for an extension -/

namespace Table

variable {μ : Type} [Marker μ]

/-- The grammar of an extension after some overrides, where `standing` is the one before: the last
override for the extension settles it. -/
inductive Settles (name : String) (standing : Option (Grammar μ)) :
    List (Override μ) → Option (Grammar μ) → Prop
  | last {before after : List (Override μ)} {o : Override μ} {g : Grammar μ}
    (named : o.extension = name) (grammar : o.grammar = .ok g)
    (latest : ∀ later ∈ after, later.extension ≠ name) :
    Settles name standing (before ++ o :: after) (some g)
  | stands {overrides : List (Override μ)} (unnamed : ∀ o ∈ overrides, o.extension ≠ name) :
    Settles name standing overrides standing

theorem override_ok_iff {table table' : Table μ} {o : Override μ} :
    table.override o = .ok table' ↔ ∃ g, o.grammar = .ok g ∧ table' = table.put o.extension g := by
  unfold override
  cases o.grammar with
  | error e => simp
  | ok g =>
    constructor
    · intro h
      exact ⟨g, rfl, (Except.ok.inj h).symm⟩
    · rintro ⟨_, ⟨⟩, rfl⟩
      rfl

/-- **The last override for an extension is in effect after a run of them.** -/
theorem settles_of_foldlM {overrides : List (Override μ)} {table table' : Table μ}
    (h : overrides.foldlM override table = .ok table') (name : String) :
    Settles name (table.find? name) overrides (table'.find? name) := by
  induction overrides generalizing table with
  | nil =>
    cases h
    exact .stands (by simp)
  | cons o overrides ih =>
    rw [List.foldlM_cons] at h
    obtain ⟨next, step, run⟩ := Except.of_bind_ok h
    obtain ⟨g, grammar, rfl⟩ := override_ok_iff.1 step
    have later := ih run
    generalize table'.find? name = final at later ⊢
    cases later with
    | @last before after o' g' named grammar latest =>
      show Settles name _ (o :: before ++ o' :: after) (some g')
      exact .last named grammar latest
    | stands unnamed =>
      by_cases named : o.extension = name
      · rw [← named, Keyed.find?_put_self]
        show Settles o.extension _ ([] ++ o :: overrides) (some g)
        exact .last rfl grammar (named ▸ unnamed)
      · rw [Keyed.find?_put_of_ne named]
        exact .stands (List.forall_mem_cons.2 ⟨named, unnamed⟩)

/-! ### Tables of texts and of values -/

theorem standard_ofTexts :
    (standard : Table Value) = (standard : Table String).mapValues Grammar.ofTexts := by
  have twice (g : Grammar String) :
      (Grammar.ofTexts (Grammar.ofTexts g : Grammar String) : Grammar Value) =
        Grammar.ofTexts g := by
    obtain ⟨line, block?⟩ := g
    cases block? <;> rfl
  simp only [standard, Keyed.mapValues, List.map_map, Function.comp_def, twice]

/-- **The markers of overrides may be made values before or after a table is built.** -/
theorem ofOverrides_ofTexts {overrides : List (Override String)} {table : Table String}
    (h : ofOverrides overrides = .ok table) :
    ofOverrides (overrides.map Override.ofTexts) = .ok (table.mapValues Grammar.ofTexts) := by
  unfold ofOverrides at h ⊢
  rw [standard_ofTexts]
  generalize (standard : Table String) = start at h ⊢
  induction overrides generalizing start with
  | nil =>
    cases h
    rfl
  | cons o overrides ih =>
    rw [List.foldlM_cons] at h
    obtain ⟨next, step, run⟩ := Except.of_bind_ok h
    obtain ⟨g, grammar, rfl⟩ := override_ok_iff.1 step
    have step' : override (start.mapValues Grammar.ofTexts) o.ofTexts =
        .ok (Keyed.mapValues Grammar.ofTexts (start.put o.extension g)) := by
      refine override_ok_iff.2 ⟨Grammar.ofTexts g, ?_, ?_⟩
      · rw [Override.grammar_ofTexts, grammar]
        rfl
      · rw [Override.extension_ofTexts, Keyed.put_mapValues]
    rw [List.map_cons, List.foldlM_cons, step']
    exact ih _ run

end Table

/-! ### Extensions of paths -/

theorem fileExtension_append_point {front suffix : List Char} (point : '.' ∉ suffix)
    (slash : '/' ∉ suffix) :
    fileExtension (String.ofList (front ++ '.' :: suffix)) = String.ofList (lower suffix) := by
  have passes {p : Char} (h : p ∉ suffix) : ∀ c ∈ suffix.reverse, decide (c ≠ p) = true :=
    fun c hc => decide_eq_true fun he => h (he ▸ List.mem_reverse.1 hc)
  have base : (front ++ '.' :: suffix).reverse.takeWhile (· ≠ '/') =
      suffix.reverse ++ '.' :: front.reverse.takeWhile (· ≠ '/') := by
    rw [List.reverse_append, List.reverse_cons, List.append_assoc,
      List.takeWhile_append_of_pos (passes slash)]
    rfl
  have last : (suffix.reverse ++ '.' :: front.reverse.takeWhile (· ≠ '/')).takeWhile (· ≠ '.') =
      suffix.reverse := by
    rw [List.takeWhile_append_of_pos (passes point)]
    simp
  unfold fileExtension
  rw [String.toList_ofList, base, if_pos (by simp), List.reverse_reverse, last,
    List.reverse_reverse]

theorem normalizeExtension_lower {suffix : List Char} (point : '.' ∉ suffix) :
    normalizeExtension (String.ofList (lower suffix)) = String.ofList (lower suffix) := by
  have head : (lower suffix).head? ≠ some '.' :=
    fun h => point (point_mem_lower (List.mem_of_mem_head? h))
  unfold normalizeExtension
  rw [String.toList_ofList]
  dsimp only
  rw [if_neg head, lower_lower]

/-! ### Entries in effect -/

section Entries

open Override
open Options (overridesOf)

/-- An entry gives an override for the extension `name`. -/
structure Gives (entry : List (Option String)) (name : String) (o : Override Value) : Prop where
  accepted : ofValue (written entry) = .ok o
  named : ∃ raw more, entry = some raw :: more ∧ normalizeExtension raw = name

/-- The grammar that is in effect for the extension `name`: that of the last entry for it, or the
one that common languages have. -/
inductive InEffect (entries : List (List (Option String))) (name : String) :
    Option (Grammar Value) → Prop
  | last {before after : List (List (Option String))} {entry : List (Option String)}
    {o : Override Value} {g : Grammar Value} (split : entries = before ++ entry :: after)
    (gives : Gives entry name o) (grammar : o.grammar = .ok g)
    (latest : ∀ later ∈ after, ∀ o, ¬ Gives later name o) :
    InEffect entries name (some g)
  | standard (unnamed : ∀ entry ∈ entries, ∀ o, ¬ Gives entry name o) :
    InEffect entries name (Table.standard.find? name)

/-- The table that is built of entries as they come. -/
def Builds (entries : List (List (Option String))) (table : Table Value) : Prop :=
  ∃ overrides, Table.acceptedOverrides ofValue (entries.map written) = .ok overrides ∧
    Table.ofOverrides overrides = .ok table

variable {entries : List (List (Option String))} {name : String}

theorem gives_iff {entry : List (Option String)} {o : Override Value} :
    Gives entry name o ↔ ofValue (written entry) = .ok o ∧ o.extension = name := by
  constructor
  · rintro ⟨accepted, raw, more, rfl, rfl⟩
    refine ⟨accepted, ?_⟩
    obtain ⟨o', read, rfl⟩ := ofValue_written_ok_iff.1 accepted
    obtain ⟨_, _, ⟨⟩, named⟩ := extension_of_ofItems read
    rw [extension_ofTexts, named]
  · rintro ⟨accepted, rfl⟩
    obtain ⟨o', read, rfl⟩ := ofValue_written_ok_iff.1 accepted
    rw [extension_ofTexts]
    exact ⟨accepted, extension_of_ofItems read⟩

/-- The overrides of entries as they come. -/
def rawOverrides (entries : List (List (Option String))) : List (Override Value) :=
  entries.filterMap fun entry => (ofValue (written entry)).toOption

theorem rawOverrides_eq (entries : List (List (Option String))) :
    rawOverrides entries = (overridesOf entries).map ofTexts := by
  have each (entry : List (Option String)) :
      (ofValue (written entry)).toOption = (ofItems readText entry).toOption.map ofTexts := by
    rw [ofValue_written]
    cases ofItems readText entry <;> rfl
  rw [overridesOf, List.map_filterMap]
  exact List.filterMap_congr fun entry _ => each entry

theorem acceptedOverrides_written (entries : List (List (Option String))) :
    Table.acceptedOverrides ofValue (entries.map written) = .ok (rawOverrides entries) := by
  have refusals : ∀ v ∈ entries.map written, Except.FailsWith (·.isRefusal = true) (ofValue v) := by
    intro v hv
    obtain ⟨entry, -, rfl⟩ := List.mem_map.1 hv
    rw [ofValue_written]
    exact Except.failsWith_map_iff.2 (isRefusal_of_ofItems entry)
  rw [Table.acceptedOverrides_eq_filterMap refusals, List.filterMap_map]
  rfl

theorem builds_iff {table : Table Value} :
    Builds entries table ↔ Table.ofOverrides (rawOverrides entries) = .ok table := by
  unfold Builds
  rw [acceptedOverrides_written]
  constructor
  · rintro ⟨_, ⟨⟩, h⟩
    exact h
  · exact fun h => ⟨_, rfl, h⟩

/-- **A table is built of any entries**, and its grammars are those of the table for what is read of
the entries. -/
theorem exists_builds (entries : List (List (Option String))) :
    ∃ table, Table.ofOverrides (overridesOf entries) = .ok table ∧
      Builds entries (table.mapValues Grammar.ofTexts) := by
  obtain ⟨table, built⟩ := exists_ofOverrides fun o (h : o ∈ overridesOf entries) =>
    Options.grammar_of_mem_overridesOf h
  refine ⟨table, built, builds_iff.2 ?_⟩
  rw [rawOverrides_eq]
  exact Table.ofOverrides_ofTexts built

theorem not_gives_of_rawOverrides (h : ∀ o ∈ rawOverrides entries, o.extension ≠ name) :
    ∀ entry ∈ entries, ∀ o, ¬ Gives entry name o := by
  intro entry mem o gives
  obtain ⟨accepted, named⟩ := gives_iff.1 gives
  exact h o (List.mem_filterMap.2 ⟨entry, mem, by rw [accepted]; rfl⟩) named

/-- **The last entry for an extension is in effect.** -/
theorem inEffect_of_builds {table : Table Value} (h : Builds entries table) (name : String) :
    InEffect entries name (table.find? name) := by
  have settles := Table.settles_of_foldlM (builds_iff.1 h) name
  generalize ho : rawOverrides entries = overrides at settles
  generalize table.find? name = final at settles ⊢
  cases settles with
  | stands unnamed => exact .standard (not_gives_of_rawOverrides (ho ▸ unnamed))
  | @last before after o g named grammar latest =>
    -- The override comes from one entry, and those after it from the entries after that one.
    obtain ⟨front, back, rfl, -, hback⟩ := List.filterMap_eq_append_iff.1 ho
    obtain ⟨passed, entry, later, rfl, -, read, hlater⟩ := List.filterMap_eq_cons_iff.1 hback
    refine .last (List.append_assoc front passed (entry :: later)).symm ?_ grammar ?_
    · exact gives_iff.2 ⟨Except.eq_ok_of_toOption read, named⟩
    · have rest : rawOverrides later = after := hlater
      exact not_gives_of_rawOverrides (rest.symm ▸ latest)

/-! ### Entries that an option accepts -/

theorem eq_of_tells {item read : Option String} (h : Options.Tells (Options.optional item) read) :
    read = item := by
  cases item <;> cases h <;> rfl

theorem eq_of_isLanguage {entry read : List (Option String)}
    (h : Options.IsLanguage (written entry) read) : read = entry := by
  obtain ⟨items, holds, each⟩ := h.items
  obtain rfl : entry.map Options.optional = items :=
    Option.some.inj (Options.items?_eq_some_iff.2 holds)
  have same : List.Forall₂ (· = ·) read entry :=
    ((List.forall₂_map_left_iff.1 each).imp fun _ _ => eq_of_tells).flip
  rwa [List.forall₂_eq_eq_eq] at same

theorem eq_of_read {s : Setting}
    (h : Setting.read? "add_languages" (.list (entries.map written)) = .ok (some s)) :
    s = .languages (overridesOf entries) := by
  have reads : Setting.read? "add_languages" (.list (entries.map written)) =
      .ok ((Options.readLanguages? (.list (entries.map written))).map .languages) := rfl
  rw [reads] at h
  obtain ⟨overrides, languages, rfl⟩ := Option.map_eq_some_iff.1 (Except.ok.inj h)
  obtain ⟨items, read, holds, -, -, each, rfl⟩ := Options.readLanguages?_eq_some_iff.1 languages
  cases holds
  rw [List.forall₂_map_left_iff] at each
  have same : List.Forall₂ (· = ·) entries read :=
    each.imp fun _ _ language => (eq_of_isLanguage language).symm
  rw [List.forall₂_eq_eq_eq] at same
  rw [same]

/-- **The grammar of a file is that of the last entry for its extension**, whatever the case of both
and with or without a point in front, and that of common languages if there is none. A table is
built of any entries, and it is the same as the one of the option if the entries are valid there. -/
theorem resolve_last_entry (entries : List (List (Option String))) : ∃ table, Builds entries table ∧
    (∀ front suffix : List Char, '.' ∉ suffix → '/' ∉ suffix →
      InEffect entries (String.ofList (lower suffix))
        (table.resolve (fileExtension (String.ofList (front ++ '.' :: suffix))))) ∧
    ∀ s, Setting.read? "add_languages" (.list (entries.map written)) = .ok (some s) →
      ∃ overrides table', s = .languages overrides ∧ Table.ofOverrides overrides = .ok table' ∧
        ∀ extension, table.resolve extension = (table'.resolve extension).map Grammar.ofTexts := by
  obtain ⟨table', built, builds⟩ := exists_builds entries
  refine ⟨_, builds, fun front suffix point slash => ?_, fun s read => ?_⟩
  · rw [fileExtension_append_point point slash, Table.resolve, normalizeExtension_lower point]
    exact inEffect_of_builds builds _
  · exact ⟨overridesOf entries, table', eq_of_read read, built, fun extension =>
      Keyed.find?_mapValues Grammar.ofTexts (normalizeExtension extension) table'⟩

/-- The entry before the last two is in effect here, as those give no override; there is one for
another case of the extension before it. -/
theorem resolve_last_entry_py :
    let entries := [[some "PY", some "--"], [some ".pY", some "//", some "*/"],
      [some "py", some ";", none, some "x"], [some "", some "#"]]
    let overrides := [Override.lineOnly "py" "--", .symmetric "py" "//" "*/"]
    '.' ∉ "Py".toList ∧ '/' ∉ "Py".toList ∧
      Setting.read? "add_languages" (.list (entries.map written)) =
        .ok (some (.languages overrides)) ∧
      ∃ table, Builds entries table ∧
        InEffect entries "py" (table.resolve (fileExtension "src/a.Py")) ∧
        table.resolve (fileExtension "src/a.Py") = some (withBlocks "//" "//" "*/").ofTexts := by
  intro entries overrides
  have point : '.' ∉ "Py".toList := by decide
  have slash : '/' ∉ "Py".toList := by decide
  have read : Setting.read? "add_languages" (.list (entries.map written)) =
      .ok (some (.languages overrides)) := by
    rfl
  have path : String.ofList ("src/a".toList ++ '.' :: "Py".toList) = "src/a.Py" := by decide
  have name : String.ofList (lower "Py".toList) = "py" := by decide +kernel
  obtain ⟨table, builds, inEffect, valid⟩ := resolve_last_entry entries
  have here := inEffect "src/a".toList "Py".toList point slash
  obtain ⟨_, table', ⟨⟩, built, same⟩ := valid _ read
  have there : (Table.ofOverrides overrides).toOption.bind (·.resolve (fileExtension "src/a.Py")) =
      some (withBlocks "//" "//" "*/") := by decide +kernel
  rw [built] at there
  rw [path, name] at here
  refine ⟨point, slash, read, table, builds, here, ?_⟩
  rw [same]
  exact congrArg (Option.map Grammar.ofTexts) there

end Entries

end ActionItems.Comment
