import ActionItems.Analysis
import ActionItems.Proofs.Except
import ActionItems.Proofs.Keyword.Occurrence
import ActionItems.Proofs.Options.Acceptance

/-!
# Options that are read can be used

Each option is read from the value under its own name and from nothing else (`settings_of_ofValue`):
it is what that value stands for, or as it stands where the value is absent or not accepted
(`Settled`). So options that are read are within their bounds, their overrides are grammars, and a
table is built of them (`Usable`).

A value is refused for one reason alone: it has an entry whose name cannot be written down
(`IsUnwritable`).
-/

namespace ActionItems

open ActionItems.Comment

namespace Comment

/-! ### Grammars of overrides -/

theorem ne_of_readText {item : Option String} {m : String} (h : Override.readText item = some m) :
    m ≠ "" := by
  rintro rfl
  cases (Option.filter_eq_some_iff.1 h).2

theorem make_line {line : String} (h : line ≠ "") :
    Grammar.make line none none = .ok ⟨line, none⟩ := by
  have given : Marker.isGiven line = true := by simpa [Marker.isGiven] using h
  exact if_pos given

theorem make_block {line opening closing : String} (h : line ≠ "") (ho : opening ≠ "")
    (hc : closing ≠ "") :
    Grammar.make line (some opening) (some closing) = .ok ⟨line, some ⟨opening, closing⟩⟩ := by
  have given : Marker.isGiven line = true := by simpa [Marker.isGiven] using h
  have texts : ¬ (isEmptyText opening || isEmptyText closing) = true := by
    simp [isEmptyText, Marker.text?, ho, hc]
  exact (if_pos given).trans (if_neg texts)

theorem grammar_of_ofRest {extension line : String} {rest : List (Option String)}
    {o : Override String} (hline : line ≠ "")
    (h : Override.ofRest Override.readText extension line rest = .ok o) :
    ∃ g, o.grammar = .ok g := by
  unfold Override.ofRest at h
  split at h
  · cases h
    exact ⟨_, make_line hline⟩
  · split at h
    · cases h
      exact ⟨_, make_line hline⟩
    · next hclosing =>
      cases h
      exact ⟨_, make_block hline hline (ne_of_readText hclosing)⟩
  · split at h
    · cases h
      exact ⟨_, make_line hline⟩
    · next hopening hclosing =>
      cases h
      exact ⟨_, make_block hline (ne_of_readText hopening) (ne_of_readText hclosing)⟩
    · cases h

/-- **An override that a list gives is a grammar.** -/
theorem grammar_of_ofItems {items : List (Option String)} {o : Override String}
    (h : Override.ofItems Override.readText items = .ok o) : ∃ g, o.grammar = .ok g := by
  unfold Override.ofItems at h
  split at h
  · split at h
    · cases h
    · split at h
      · next hline =>
        split at h
        · cases h
        · dsimp only at h
          split at h
          · cases h
          · exact grammar_of_ofRest (ne_of_readText hline) h
      · cases h
  · cases h

/-- A table is built of overrides that are grammars. -/
theorem exists_ofOverrides {overrides : List (Override String)}
    (h : ∀ o ∈ overrides, ∃ g, o.grammar = .ok g) :
    ∃ table, Table.ofOverrides overrides = .ok table := by
  unfold Table.ofOverrides
  generalize (Table.standard : Table String) = table
  induction overrides generalizing table with
  | nil => exact ⟨table, rfl⟩
  | cons o overrides ih =>
    obtain ⟨⟨g, hg⟩, hrest⟩ := List.forall_mem_cons.1 h
    have step : Table.override table o = .ok (table.put o.extension g) := by
      unfold Table.override
      rw [hg]
      rfl
    rw [List.foldlM_cons, step]
    exact ih hrest (table.put o.extension g)

end Comment

namespace Options

/-! ### Names that cannot be written down -/

/-- A value with a number in it that has more digits than are written. -/
inductive IsUnwritable : Value → Prop
  | number {i : Int} (digits : Nat.pow 10 Number.digitLimit ≤ i.natAbs) : IsUnwritable (.int i)
  | item {v : Value} {items : List Value} (mem : v ∈ items) (inside : IsUnwritable v) :
    IsUnwritable (.tuple items)

theorem isUnwritable_tuple_iff {items : List Value} :
    IsUnwritable (.tuple items) ↔ ∃ v ∈ items, IsUnwritable v := by
  constructor
  · rintro (_ | ⟨mem, inside⟩)
    exact ⟨_, mem, inside⟩
  · rintro ⟨v, mem, inside⟩
    exact .item mem inside

mutual

theorem isWritable_eq_false_iff : (v : Value) → (isWritable v = false ↔ IsUnwritable v)
  | .int i => by
    have digits : isWritable (.int i) = false ↔ Nat.pow 10 Number.digitLimit ≤ i.natAbs := by
      rw [isWritable, Number.isWritable, decide_eq_false_iff_not, Nat.not_lt]
    rw [digits]
    exact ⟨.number, fun h => by cases h; assumption⟩
  | .tuple items => by
    rw [isWritable, isUnwritable_tuple_iff]
    exact areWritable_eq_false_iff items
  | .null | .bool _ | .float _ | .text _ | .loose _ | .bytes _ | .date _ | .moment
    _ | .list _ | .set _
  | .map _ | .cycle => ⟨fun h => by simp [isWritable] at h, fun h => by cases h⟩

theorem areWritable_eq_false_iff : (items : List Value) →
    (areWritable items = false ↔ ∃ v ∈ items, IsUnwritable v)
  | [] => by simp [areWritable]
  | v :: items => by
    rw [areWritable, Bool.and_eq_false_iff, isWritable_eq_false_iff v,
      areWritable_eq_false_iff items, List.exists_mem_cons_iff]

end

/-- **Options are read of every value but a mapping with such a name.** -/
theorem ofValue_ok_iff (raw : Value) : (∃ o, ofValue raw = .ok o) ↔
    ∀ entries, raw = .map entries → ∀ e ∈ entries, ¬ IsUnwritable e.1 := by
  cases raw with
  | map entries =>
    have named : (entries.all fun e => isWritable e.1) = true ↔
        ∀ e ∈ entries, ¬ IsUnwritable e.1 := by
      simp only [List.all_eq_true, ← isWritable_eq_false_iff, Bool.not_eq_false]
    have reads : ofValue (.map entries) =
        if entries.all fun e => isWritable e.1 then .ok (ofEntries entries)
        else .error .unwritable := rfl
    rw [reads]
    constructor
    · rintro ⟨o, ho⟩ _ ⟨⟩
      split at ho
      · next all => exact named.1 all
      · cases ho
    · intro h
      rw [if_pos (named.2 (h entries rfl))]
      exact ⟨_, rfl⟩
  | _ => exact ⟨fun _ entries h => (by cases h), fun _ => ⟨_, rfl⟩⟩

/-! ### Settings -/

/-- Options by their names. -/
def settings (o : Options) : List (String × Setting) := [
  ("post_comment", .choice o.postComment),
  ("multiline_comments", .flag o.multilineComments),
  ("action_items", .words o.actionItems),
  ("case_sensitive", .flag o.caseSensitive),
  ("add_languages", .languages o.addLanguages),
  ("ignore_files", .globs o.ignoreFiles),
  ("additional_lines", .lines o.additionalLines),
  ("always_split_snippets", .flag o.alwaysSplitSnippets)]

/-- Every option with its reader and its standing value. -/
def standing : List ((String × (Value → Option Setting)) × (String × Setting)) :=
  Setting.readers.zip ({} : Options).settings

theorem getD_bind_map {α : Type} (read : Value → Option α) (f : α → Setting)
    (v? : Option Value) (d : α) :
    f ((v?.bind read).getD d) = (v?.bind fun v => (read v).map f).getD (f d) := by
  cases v? with
  | none => rfl
  | some v =>
    cases h : read v <;> simp [h]

/-- **Each option is read from the value under its name.** -/
theorem settings_of_ofValue {raw : Value} {o : Options} (h : ofValue raw = .ok o) :
    o.settings = standing.map fun p => (p.1.1, ((raw.get? p.1.1).bind p.1.2).getD p.2.2) := by
  unfold ofValue at h
  split at h
  · next entries =>
    split at h
    · cases h
      have get (name : String) : (Value.map entries).get? name = Value.lookup? name entries := rfl
      simp only [standing, settings, Setting.readers, ofEntries, get, List.zip_cons_cons,
        List.zip_nil_left, List.map_cons, List.map_nil, getD_bind_map]
    · cases h
  · next other =>
    cases h
    have get (name : String) : raw.get? name = none := by
      cases raw with
      | map entries => exact absurd rfl (other entries)
      | _ => rfl
    simp only [get]
    rfl

/-- An option is what the value under its name stands for, or as it stands if that value is absent
or not accepted. -/
def Settled (raw : Value) (name : String) (s : Setting) : Prop :=
  (∃ v, raw.get? name = some v ∧ Accepts name v s) ∨
    (∀ v, raw.get? name = some v → ∀ t, ¬ Accepts name v t) ∧ (name, s) ∈ ({} : Options).settings

theorem name_of_mem_standing {p : (String × (Value → Option Setting)) × (String × Setting)}
    (h : p ∈ standing) : p.2.1 = p.1.1 := by
  have names : standing.map (fun p => p.2.1) = standing.map fun p => p.1.1 := rfl
  exact List.map_inj_left.1 names p h

theorem settled_of_ofValue {raw : Value} {o : Options} (h : ofValue raw = .ok o) :
    ∀ e ∈ o.settings, Settled raw e.1 e.2 := by
  intro e he
  rw [settings_of_ofValue h] at he
  obtain ⟨p, hp, rfl⟩ := List.mem_map.1 he
  obtain ⟨hread, hstands⟩ := List.of_mem_zip hp
  have standing : (p.1.1, p.2.2) ∈ ({} : Options).settings := by
    rw [← name_of_mem_standing hp]
    exact hstands
  show Settled raw p.1.1 (((raw.get? p.1.1).bind p.1.2).getD p.2.2)
  cases hget : raw.get? p.1.1 with
  | none => exact .inr ⟨by simp [hget], standing⟩
  | some v =>
    cases hv : p.1.2 v with
    | none =>
      refine .inr ⟨fun w hw t => ?_, by simpa [hv] using standing⟩
      rw [hget] at hw
      cases hw
      rw [← read_eq_some_iff hread, hv]
      exact Option.some_ne_none t ∘ Eq.symm
    | some s => exact .inl ⟨v, hget, by simpa [hv] using (read_eq_some_iff hread).1 hv⟩

theorem lookup_map_congr {α β : Type} {name : String} {key : α → String} {f g : α → β} {l : List α}
    (h : ∀ a ∈ l, key a = name → f a = g a) :
    (l.map fun a => (key a, f a)).lookup name = (l.map fun a => (key a, g a)).lookup name := by
  induction l with
  | nil => rfl
  | cons a l ih =>
    obtain ⟨ha, hl⟩ := List.forall_mem_cons.1 h
    rw [List.map_cons, List.map_cons, List.lookup_cons, List.lookup_cons, ih hl]
    by_cases hname : key a = name
    · rw [ha hname]
    · rw [beq_eq_false_iff_ne.2 (Ne.symm hname)]

theorem lookup_settings_congr {raw raw' : Value} {o o' : Options} (h : ofValue raw = .ok o)
    (h' : ofValue raw' = .ok o') {name : String} (same : raw'.get? name = raw.get? name) :
    o'.settings.lookup name = o.settings.lookup name := by
  rw [settings_of_ofValue h, settings_of_ofValue h']
  refine lookup_map_congr fun p _ hname => ?_
  rw [hname, same]

/-! ### Usable options -/

/-- Options that can be used for every analysis. -/
structure Usable (o : Options) : Prop where
  wordsLimit : o.actionItems.length ≤ 15
  wordsNodup : o.actionItems.Nodup
  wordsGiven : ∀ w ∈ o.actionItems, w ≠ ""
  languagesLimit : o.addLanguages.length ≤ 10
  grammars : ∀ override ∈ o.addLanguages, ∃ g, override.grammar = .ok g
  globsLimit : o.ignoreFiles.length ≤ 7
  linesLimit : o.additionalLines ≤ 10
  /-- A table of grammars is built. -/
  table : ∃ table, Comment.Table.ofOverrides o.addLanguages = .ok table
  /-- Every keyword is looked for. -/
  keywords : o.keywords.words = o.actionItems
  /-- The keywords have patterns. -/
  patterns : ∃ patterns, o.keywords.patterns = .ok patterns

theorem bounds_of_words {raw : Value} {words : List String}
    (h : Settled raw "action_items" (.words words)) :
    words.length ≤ 15 ∧ words.Nodup ∧ ∀ w ∈ words, w ≠ "" := by
  rcases h with ⟨v, -, -, all, -, few, given, first⟩ | ⟨-, stands⟩
  · exact ⟨Nat.le_trans first.length_le few, first.nodup,
      fun w hw => given w ((first.mem_iff w).1 hw)⟩
  · obtain rfl : words = ({} : Options).actionItems := by simpa [settings] using stands
    decide

/-- The overrides among entries are grammars. -/
theorem grammar_of_mem_overridesOf {entries : List (List (Option String))}
    {override : Override String} (h : override ∈ overridesOf entries) :
    ∃ g, override.grammar = .ok g := by
  obtain ⟨entry, -, read⟩ := List.mem_filterMap.1 h
  exact grammar_of_ofItems (Except.eq_ok_of_toOption read)

theorem bounds_of_languages {raw : Value} {overrides : List (Override String)}
    (h : Settled raw "add_languages" (.languages overrides)) :
    overrides.length ≤ 10 ∧ ∀ override ∈ overrides, ∃ g, override.grammar = .ok g := by
  rcases h with ⟨v, -, -, items, entries, -, -, few, each, rfl⟩ | ⟨-, stands⟩
  · refine ⟨?_, fun override => grammar_of_mem_overridesOf⟩
    calc (overridesOf entries).length ≤ entries.length := List.length_filterMap_le _ _
      _ = items.length := each.length_eq.symm
      _ ≤ 10 := few
  · obtain rfl : overrides = [] := by simpa [settings] using stands
    simp

theorem bounds_of_globs {raw : Value} {globs : List String}
    (h : Settled raw "ignore_files" (.globs globs)) : globs.length ≤ 7 := by
  rcases h with ⟨v, -, -, -, -, few, -⟩ | ⟨-, stands⟩
  · exact few
  · obtain rfl : globs = [] := by simpa [settings] using stands
    simp

theorem bounds_of_lines {raw : Value} {n : Nat} (h : Settled raw "additional_lines" (.lines n)) :
    n ≤ 10 := by
  rcases h with ⟨v, -, -, -, few⟩ | ⟨-, stands⟩
  · exact few
  · obtain rfl : n = 0 := by simpa [settings] using stands
    simp

theorem usable_of_ofValue {raw : Value} {o : Options} (h : ofValue raw = .ok o) : Usable o := by
  have settled := settled_of_ofValue h
  obtain ⟨wordsFew, nodup, given⟩ :=
    bounds_of_words (settled ("action_items", .words o.actionItems) (by simp [settings]))
  obtain ⟨few, grammars⟩ :=
    bounds_of_languages (settled ("add_languages", .languages o.addLanguages) (by simp [settings]))
  refine ⟨wordsFew, nodup, given, few, grammars, ?_, ?_, exists_ofOverrides grammars, ?_,
    ⟨_, o.keywords.patterns_eq⟩⟩
  · exact bounds_of_globs (settled ("ignore_files", .globs o.ignoreFiles) (by simp [settings]))
  · exact bounds_of_lines (settled ("additional_lines", .lines o.additionalLines)
      (by simp [settings]))
  · refine List.filter_eq_self.2 fun w hw => ?_
    simpa using given w hw

/-- **Options that are read are usable, and each depends on the value under its own name alone.**
They are read of every value whose entries have names that can be written down. -/
theorem usable_ofValue (raw : Value) :
    ((∃ o, ofValue raw = .ok o) ↔
      ∀ entries, raw = .map entries → ∀ e ∈ entries, ¬ IsUnwritable e.1) ∧
    ∀ o, ofValue raw = .ok o → Usable o ∧ (∀ e ∈ o.settings, Settled raw e.1 e.2) ∧
      ∀ raw' o', ofValue raw' = .ok o' → ∀ name, raw'.get? name = raw.get? name →
        o'.settings.lookup name = o.settings.lookup name :=
  ⟨ofValue_ok_iff raw, fun _ h =>
    ⟨usable_of_ofValue h, settled_of_ofValue h, fun _ _ h' _ => lookup_settings_congr h h'⟩⟩

end Options

end ActionItems
