import ActionItems.Proofs.Diff.Files
import ActionItems.Proofs.Settings.Fields
import ActionItems.Settings.Update
import Mathlib.Data.List.Nodup

/-!
# What changes of settings do

The settings consist of three sections and the choice of debugging, and every step of an update
treats them alike. So a `Part` of the settings says where it stands in settings and in drafts, how
its fields are set and which changes put something in its place, and `Part.Lawful` says what the
steps do to it: a step that sets fields touches the part that it names, and a change that puts
something in place of a part is passed over if fields of that part are set.

From these laws a whole update follows for any part, by induction on the changes. The fields are
collected by part (`collects_ofChanges`) and set (`Part.Lawful.setAll_of_changed`); then a part
stays unless a change takes its place (`Part.Lawful.kept`), and what is put there last stands there
(`Part.Lawful.given`). `Part.Changed` puts the three outcomes together; `Part.Lawful.of_change`
derives them for changes with different keys, as names that are different have
(`key_ofName_injective`).
-/

namespace ActionItems.Settings

variable {s t : Settings} {d d' : Draft} {c : Change} {changes before : List Change}
  {fields fields' : SectionFields} {part field : String} {value : Value} {σ : Type}

/-! ### Keys -/

/-- What a change is about: the name of a part of the settings, and the name of a field of it if it
is about one. -/
def Change.key : Change → String × Option String
  | .own name _ => (name, none)
  | .inSection part field _ => (part, some field)
  | .service _ => ("github", none)
  | .server _ => ("server", none)
  | .log _ => ("logging", none)

/-- The name that a key is written as. -/
def writtenKey : String × Option String → List Char
  | (name, none) => name.toList
  | (part, some field) => part.toList ++ '.' :: field.toList

theorem writtenKey_ofName (name : String) (value : Value) :
    writtenKey (Change.ofName name value).key = name.toList := by
  have whole := List.takeWhile_append_dropWhile (p := (· ≠ '.')) (l := name.toList)
  rw [Change.ofName, List.span_eq_takeWhile_dropWhile]
  cases hdrop : name.toList.dropWhile (· ≠ '.') with
  | nil => rfl
  | cons mark field =>
    have first := List.head?_dropWhile_not (fun c => decide (c ≠ '.')) name.toList
    rw [hdrop] at first
    obtain rfl : mark = '.' := by simpa using first
    rw [hdrop] at whole
    simpa only [Change.key, writtenKey, String.toList_ofList] using whole

/-- **Changes under different names have different keys.** -/
theorem key_ofName_injective {first second : String} {value' : Value}
    (h : (Change.ofName first value).key = (Change.ofName second value').key) : first = second := by
  rw [← String.toList_inj, ← writtenKey_ofName first value, h, writtenKey_ofName]

/-- The field of a part that a change gives a value, with the value. -/
def Change.fieldIn? (part : String) : Change → Option (String × Value)
  | .inSection p field value => if p = part then some (field, value) else none
  | _ => none

/-- The fields of a part that changes give a value, in order. -/
def fieldsIn (part : String) (changes : List Change) : List (String × Value) :=
  changes.filterMap (Change.fieldIn? part)

theorem fieldIn?_eq_some_iff :
    c.fieldIn? part = some (field, value) ↔ c = .inSection part field value := by
  cases c with
  | inSection p f v =>
    simp only [Change.fieldIn?, Option.ite_none_right_eq_some, Option.some.injEq, Prod.mk.injEq,
      Change.inSection.injEq]
  | _ => simp [Change.fieldIn?]

theorem mem_fieldsIn :
    (field, value) ∈ fieldsIn part changes ↔ .inSection part field value ∈ changes := by
  simp only [fieldsIn, List.mem_filterMap, fieldIn?_eq_some_iff, exists_eq_right]

theorem fieldsIn_concat (part : String) (before : List Change) (c : Change) :
    fieldsIn part (before ++ [c]) = fieldsIn part before ++ (c.fieldIn? part).toList := by
  rw [fieldsIn, List.filterMap_append]
  cases h : c.fieldIn? part <;> simp [fieldsIn, h]

theorem keys_fieldsIn_sublist (part : String) (changes : List Change) :
    ((fieldsIn part changes).map fun f => (part, some f.1)).Sublist (changes.map Change.key) := by
  induction changes with
  | nil => exact .slnil
  | cons c changes ih =>
    rw [fieldsIn, List.filterMap_cons, List.map_cons]
    cases h : c.fieldIn? part with
    | none => exact ih.cons _
    | some f =>
      rw [fieldIn?_eq_some_iff.1 h]
      exact ih.cons_cons _

theorem nodup_fieldsIn (h : (changes.map Change.key).Nodup) (part : String) :
    ((fieldsIn part changes).map Prod.fst).Nodup := by
  have pairs := h.sublist (keys_fieldsIn_sublist part changes)
  have names : ((fieldsIn part changes).map fun f => (part, some f.1)) =
      ((fieldsIn part changes).map Prod.fst).map fun name => (part, some name) := by
    rw [List.map_map]
    rfl
  rw [names] at pairs
  exact List.Nodup.of_map _ pairs

/-! ### Fields by part -/

/-- Whether fields are those that changes give a value, by part. -/
structure Collects (fields : SectionFields) (changes : List Change) : Prop where
  nodup : fields.keys.Nodup
  find? : ∀ part, fields.find? part = if fieldsIn part changes =
    [] then none else some (fieldsIn part changes)

theorem Collects.getD (h : Collects fields changes) (part : String) :
    (fields.find? part).getD [] = fieldsIn part changes := by
  rw [h.find? part]
  split
  · next he => rw [he, Option.getD_none]
  · rfl

theorem Collects.add (h : Collects fields before) (hc : fields.add c = .ok fields') :
    Collects fields' (before ++ [c]) := by
  have same (none : ∀ part, c.fieldIn? part = none) : Collects fields (before ++ [c]) := by
    refine ⟨h.nodup, fun part => ?_⟩
    rw [fieldsIn_concat, none part, Option.toList_none, List.append_nil]
    exact h.find? part
  cases c with
  | inSection p f v =>
    simp only [SectionFields.add] at hc
    split at hc
    · cases hc
      refine ⟨Keyed.nodup_keys_put h.nodup _ _, fun part => ?_⟩
      rw [fieldsIn_concat]
      by_cases hp : p = part
      · subst hp
        rw [Keyed.find?_put_self, h.getD, Change.fieldIn?, if_pos rfl, if_neg (by simp)]
        rfl
      · rw [Keyed.find?_put_of_ne hp, Change.fieldIn?, if_neg hp, Option.toList_none,
          List.append_nil]
        exact h.find? part
    · cases hc
  | _ =>
    cases hc
    exact same fun _ => rfl

/-- **The fields are collected from the changes**, those of each part in order. -/
theorem collects_ofChanges (h : SectionFields.ofChanges changes = .ok fields) :
    Collects fields changes := by
  have run (before after : List Change) (start : SectionFields) (hstart : Collects start before)
      (hrun : after.foldlM SectionFields.add start = .ok fields) :
        Collects fields (before ++ after) := by
    induction after generalizing before start with
    | nil =>
      cases hrun
      rwa [List.append_nil]
    | cons c after ih =>
      rw [List.foldlM_cons] at hrun
      obtain ⟨next, hnext, hrest⟩ := Except.of_bind_ok hrun
      rw [List.append_cons]
      exact ih _ _ (hstart.add hnext) hrest
  exact run [] changes [] ⟨.nil, fun _ => rfl⟩ h

/-! ### Parts of settings -/

/-- A part of the settings under a name: where it stands in them and in drafts, how its fields are
set, and what a change puts in place of the whole of it, which may be no such part at all. -/
structure Part (σ : Type) where
  name : String
  ofSettings : Settings → σ
  ofDraft? : Draft → Option σ
  set? : String → Value → σ → Option σ
  given? : Change → Option (Option σ)

/-- The settings of the service. -/
def servicePart : Part ServiceSettings where
  name := "github"
  ofSettings := Settings.service
  ofDraft? := Draft.service?
  set? := ServiceSettings.set?
  given? c := match c with
    | .service s => some (some s)
    | .own "github" _ => some none
    | _ => none

/-- The settings of the server. -/
def serverPart : Part ServerSettings where
  name := "server"
  ofSettings := Settings.server
  ofDraft? := Draft.server?
  set? := ServerSettings.set?
  given? c := match c with
    | .server s => some (some s)
    | .own "server" _ => some none
    | _ => none

/-- The settings of the log. -/
def logPart : Part LogSettings where
  name := "logging"
  ofSettings := Settings.log
  ofDraft? := Draft.log?
  set? := LogSettings.set?
  given? c := match c with
    | .log s => some (some s)
    | .own "logging" _ => some none
    | _ => none

/-- Whether the app runs for debugging, which has no fields. -/
def debugPart : Part Value where
  name := "debug"
  ofSettings := Settings.debug
  ofDraft? d := some d.debug
  set? _ _ _ := none
  given? c := match c with
    | .own "debug" value => some (some value)
    | _ => none

theorem changeSection_cases {name : String} {values : List (String × Value)}
    (h : changeSection s name values = .ok t) :
    (name = "github" ∧ ∃ g, setAll ServiceSettings.set? values s.service = .ok g ∧
      t = { s with service := g }) ∨
      (name = "server" ∧ ∃ g, setAll ServerSettings.set? values s.server = .ok g ∧
        t = { s with server := g }) ∨
      (name = "logging" ∧ ∃ g, setAll LogSettings.set? values s.log = .ok g ∧
        t = { s with log := g }) := by
  unfold changeSection at h
  split at h
  · obtain ⟨g, hg, ht⟩ := Except.of_bind_ok h
    cases ht
    exact .inl ⟨rfl, g, Except.of_mapError_ok hg, rfl⟩
  · obtain ⟨g, hg, ht⟩ := Except.of_bind_ok h
    cases ht
    exact .inr (.inl ⟨rfl, g, Except.of_mapError_ok hg, rfl⟩)
  · obtain ⟨g, hg, ht⟩ := Except.of_bind_ok h
    cases ht
    exact .inr (.inr ⟨rfl, g, Except.of_mapError_ok hg, rfl⟩)
  · cases h

theorem apply_cases (h : Draft.apply fields d c = .ok d') :
    d'.service? =
      (if (fields.find? "github").isSome then d.service? else (servicePart.given? c).getD
        d.service?) ∧
      d'.server? =
        (if (fields.find? "server").isSome then d.server? else (serverPart.given? c).getD
          d.server?) ∧
      d'.log? =
        (if (fields.find? "logging").isSome then d.log? else (logPart.given? c).getD d.log?) ∧
      some d'.debug = (debugPart.given? c).getD (some d.debug) := by
  unfold Draft.apply at h
  split at h <;> cases h <;> simp only [Draft.put, servicePart, serverPart, logPart, debugPart] <;>
    split <;> simp_all

/-- What the steps of an update do to a part. -/
structure Part.Lawful (P : Part σ) : Prop where
  ofDraft?_draft : ∀ s, P.ofDraft? s.draft = some (P.ofSettings s)
  /-- A step that sets fields sets those of this part if it names it. -/
  changed : ∀ {s t name values}, changeSection s name values = .ok t →
    setAll P.set? (if name = P.name then values else []) (P.ofSettings s) = .ok (P.ofSettings t)
  /-- A part of which fields are set stays in its place, any other is what a change puts there. -/
  applied : ∀ {fields : SectionFields} {d d' c}, Draft.apply fields d c = .ok d' → P.ofDraft? d' =
    if P.name ∈ sectionNames ∧ (fields.find? P.name).isSome then P.ofDraft? d
    else (P.given? c).getD (P.ofDraft? d)
  key : ∀ {c : Change}, (P.given? c).isSome = true → c.key = (P.name, none)

theorem lawful_service : servicePart.Lawful where
  ofDraft?_draft _ := rfl
  changed h := by
    obtain ⟨rfl, g, hg, rfl⟩ | ⟨rfl, g, hg, rfl⟩ | ⟨rfl, g, hg, rfl⟩ := changeSection_cases h
    · exact hg
    · rfl
    · rfl
  applied h := (apply_cases h).1.trans (by simp [servicePart, sectionNames])
  key {c} h := by
    simp only [servicePart] at h ⊢
    split at h <;> first | rfl | cases h

theorem lawful_server : serverPart.Lawful where
  ofDraft?_draft _ := rfl
  changed h := by
    obtain ⟨rfl, g, hg, rfl⟩ | ⟨rfl, g, hg, rfl⟩ | ⟨rfl, g, hg, rfl⟩ := changeSection_cases h
    · rfl
    · exact hg
    · rfl
  applied h := (apply_cases h).2.1.trans (by simp [serverPart, sectionNames])
  key {c} h := by
    simp only [serverPart] at h ⊢
    split at h <;> first | rfl | cases h

theorem lawful_log : logPart.Lawful where
  ofDraft?_draft _ := rfl
  changed h := by
    obtain ⟨rfl, g, hg, rfl⟩ | ⟨rfl, g, hg, rfl⟩ | ⟨rfl, g, hg, rfl⟩ := changeSection_cases h
    · rfl
    · rfl
    · exact hg
  applied h := (apply_cases h).2.2.1.trans (by simp [logPart, sectionNames])
  key {c} h := by
    simp only [logPart] at h ⊢
    split at h <;> first | rfl | cases h

theorem lawful_debug : debugPart.Lawful where
  ofDraft?_draft _ := rfl
  changed h := by
    obtain ⟨rfl, g, -, rfl⟩ | ⟨rfl, g, -, rfl⟩ | ⟨rfl, g, -, rfl⟩ := changeSection_cases h
    · rfl
    · rfl
    · rfl
  applied h := (apply_cases h).2.2.2.trans (by simp [debugPart, sectionNames])
  key {c} h := by
    simp only [debugPart] at h ⊢
    split at h <;> first | rfl | cases h

/-! ### Whole updates -/

section Part

variable {P : Part σ} {x : Option σ}

theorem mem_sectionNames_of_changed
    (h : fields.foldlM (fun s (name, values) => changeSection s name values) s = .ok t) :
    ∀ name ∈ fields.keys, name ∈ sectionNames := by
  induction fields generalizing s with
  | nil => exact fun name hname => nomatch hname
  | cons f fields ih =>
    rw [List.foldlM_cons] at h
    obtain ⟨r, hr, hrest⟩ := Except.of_bind_ok h
    refine List.forall_mem_cons.2 ⟨?_, ih hrest⟩
    obtain ⟨hname, -⟩ | ⟨hname, -⟩ | ⟨hname, -⟩ := changeSection_cases hr <;> rw [hname] <;> decide

/-- **The fields of a part are set**, and nothing else of it. -/
theorem Part.Lawful.setAll_of_changed (hP : P.Lawful) (nodup : fields.keys.Nodup)
    (h : fields.foldlM (fun s (name, values) => changeSection s name values) s = .ok t) :
    setAll P.set? ((fields.find? P.name).getD []) (P.ofSettings s) = .ok (P.ofSettings t) := by
  induction fields generalizing s with
  | nil =>
    cases h
    rfl
  | cons f fields ih =>
    obtain ⟨name, values⟩ := f
    rw [Keyed.keys, List.map_cons, List.nodup_cons] at nodup
    rw [List.foldlM_cons] at h
    obtain ⟨r, hr, hrest⟩ := Except.of_bind_ok h
    have first := hP.changed hr
    have rest := ih nodup.2 hrest
    rw [Keyed.find?]
    by_cases hname : name = P.name
    · have absent : Keyed.find? P.name fields = none := by
        rw [← Option.not_isSome_iff_eq_none, Keyed.find?_isSome_iff, ← hname]
        exact nodup.1
      rw [absent, Option.getD_none, setAll, Except.ok.injEq] at rest
      rw [if_pos hname] at first ⊢
      rw [Option.getD_some, first, rest]
    · rw [if_neg hname, setAll, Except.ok.injEq] at first
      rw [if_neg hname, first]
      exact rest

/-- No change whose key is not that of the whole part puts anything in its place. -/
theorem Part.Lawful.given?_eq_none (hP : P.Lawful) (h : (P.name, none) ∉ changes.map Change.key) :
    ∀ c ∈ changes, P.given? c = none := by
  intro c hc
  by_contra given
  rw [← ne_eq, ← Option.isSome_iff_ne_none] at given
  exact h (hP.key given ▸ List.mem_map_of_mem hc)

/-- A part that no change takes the place of stays in a draft. -/
theorem Part.Lawful.kept (hP : P.Lawful)
    (hkept : ∀ c ∈ changes, (P.name ∈ sectionNames ∧ (fields.find? P.name).isSome) ∨
      P.given? c = none)
    (h : changes.foldlM (Draft.apply fields) d = .ok d') : P.ofDraft? d' = P.ofDraft? d := by
  induction changes generalizing d with
  | nil =>
    cases h
    rfl
  | cons c changes ih =>
    obtain ⟨hc, hkept⟩ := List.forall_mem_cons.1 hkept
    rw [List.foldlM_cons] at h
    obtain ⟨e, he, hrest⟩ := Except.of_bind_ok h
    rw [ih hkept hrest, hP.applied he]
    split
    · rfl
    · next free => rw [hc.resolve_left free, Option.getD_none]

/-- **What a change puts in place of a part stands there**, if no field of the part is set and no
other change does. -/
theorem Part.Lawful.given (hP : P.Lawful) (distinct : (changes.map Change.key).Nodup)
    (hfields : fields.find? P.name = none) (hc : c ∈ changes) (hgiven : P.given? c = some x)
    (h : changes.foldlM (Draft.apply fields) d = .ok d') : P.ofDraft? d' = x := by
  obtain ⟨before, after, rfl⟩ := List.append_of_mem hc
  rw [List.foldlM_append] at h
  obtain ⟨d₁, -, h⟩ := Except.of_bind_ok h
  rw [List.foldlM_cons] at h
  obtain ⟨d₂, happly, hafter⟩ := Except.of_bind_ok h
  rw [List.map_append, List.map_cons] at distinct
  have fresh := (List.nodup_cons.1 (List.nodup_append.1 distinct).2.1).1
  rw [hP.key (by rw [hgiven]; rfl)] at fresh
  have others := hP.given?_eq_none fresh
  rw [hP.kept (fun c' hc' => .inr (others c' hc')) hafter, hP.applied happly, hgiven, hfields]
  simp

end Part

theorem present_eq_ok_iff {x? : Option σ} {x : σ} : present x? = .ok x ↔ x? = some x := by
  cases x? <;> simp [present]

/-- A draft that can be used is that of the settings that it gives. -/
theorem eq_draft_of_validate (h : d.validate = .ok t) : d = t.draft := by
  unfold Draft.validate at h
  obtain ⟨service, hservice, h⟩ := Except.of_bind_ok h
  obtain ⟨_, -, h⟩ := Except.of_bind_ok h
  obtain ⟨server, hserver, h⟩ := Except.of_bind_ok h
  obtain ⟨_, -, h⟩ := Except.of_bind_ok h
  obtain ⟨log, hlog, h⟩ := Except.of_bind_ok h
  obtain ⟨_, -, h⟩ := Except.of_bind_ok h
  rw [present_eq_ok_iff] at hservice hserver hlog
  split at h
  · cases h
    cases d
    simp only at hservice hserver hlog
    rw [hservice, hserver, hlog]
    rfl
  · cases h

/-- What has been done when an update succeeds: the fields were set by part, then the rest of the
changes was made. -/
theorem steps_of_change (h : change s changes = .ok t) :
    ∃ fields r, SectionFields.ofChanges changes = .ok fields ∧
    fields.foldlM (fun s (name, values) => changeSection s name values) s = .ok r ∧
    changes.foldlM (Draft.apply fields) r.draft = .ok t.draft ∧ t.validate = .ok t := by
  obtain ⟨d, hd, hvalid⟩ := Except.of_bind_ok h
  obtain ⟨fields, hfields, hd⟩ := Except.of_bind_ok hd
  obtain ⟨r, hr, happly⟩ := Except.of_bind_ok hd
  have valid := Except.of_mapError_ok hvalid
  obtain rfl := eq_draft_of_validate valid
  exact ⟨fields, r, hfields, hr, happly, valid⟩

/-- **What an update leaves behind is valid.** -/
theorem validate_of_change (h : change s changes = .ok t) : t.validate = .ok t := by
  obtain ⟨-, -, -, -, -, valid⟩ := steps_of_change h
  exact valid

theorem mem_sectionNames_of_change (h : change s changes = .ok t)
    (hpart : fieldsIn part changes ≠ []) : part ∈ sectionNames := by
  obtain ⟨fields, r, hfields, hr, -, -⟩ := steps_of_change h
  refine mem_sectionNames_of_changed hr _ (Keyed.find?_isSome_iff.1 ?_)
  rw [(collects_ofChanges hfields).find? part, if_neg hpart, Option.isSome_some]

theorem own_of_change (h : change s changes = .ok t) {name : String}
    (hown : .own name value ∈ changes) : name = "debug" ∨ name ∈ sectionNames := by
  obtain ⟨fields, r, -, -, happly, -⟩ := steps_of_change h
  obtain ⟨before, after, rfl⟩ := List.append_of_mem hown
  rw [List.foldlM_append] at happly
  obtain ⟨d, -, hrest⟩ := Except.of_bind_ok happly
  rw [List.foldlM_cons] at hrest
  obtain ⟨d', hd, -⟩ := Except.of_bind_ok hrest
  unfold Draft.apply at hd
  split at hd <;> cases hd <;> simp_all [sectionNames]

/-- What an update makes of a part: the fields of it that are given values are set, or else what is
put in its place stands there, or else it stays. -/
structure Part.Changed (P : Part σ) (changes : List Change) (s t : Settings) : Prop where
  fields : fieldsIn P.name changes ≠ [] →
    setAll P.set? (fieldsIn P.name changes) (P.ofSettings s) = .ok (P.ofSettings t)
  given : fieldsIn P.name changes = [] → ∀ c ∈ changes, ∀ x, P.given? c = some x →
    x = some (P.ofSettings t)
  kept : fieldsIn P.name changes = [] → (∀ c ∈ changes, P.given? c = none) →
    P.ofSettings t = P.ofSettings s

section Changed

variable {P : Part σ} {get? : String → σ → Option Value}

theorem Part.Lawful.of_change (hP : P.Lawful) (distinct : (changes.map Change.key).Nodup)
    (h : change s changes = .ok t) : P.Changed changes s t := by
  obtain ⟨fields, r, hfields, hr, happly, -⟩ := steps_of_change h
  have collects := collects_ofChanges hfields
  have values := hP.setAll_of_changed collects.nodup hr
  rw [collects.getD] at values
  have none : fieldsIn P.name changes = [] → fields.find? P.name = none := fun he => by
    rw [collects.find? P.name, if_pos he]
  have same : fieldsIn P.name changes = [] → P.ofSettings r = P.ofSettings s := fun he => by
    rw [he, setAll] at values
    exact (Except.ok.inj values).symm
  refine ⟨fun he => ?_, fun he c hc x hx => ?_, fun he hnone => ?_⟩
  · have known := mem_sectionNames_of_change h he
    have some : (fields.find? P.name).isSome = true := by
      rw [collects.find? P.name, if_neg he, Option.isSome_some]
    have stays := hP.kept (fun c _ => .inl ⟨known, some⟩) happly
    rw [hP.ofDraft?_draft, hP.ofDraft?_draft, Option.some.injEq] at stays
    rw [values, stays]
  · rw [← hP.ofDraft?_draft, hP.given distinct (none he) hc hx happly]
  · have stays := hP.kept (fun c hc => .inr (hnone c hc)) happly
    rw [hP.ofDraft?_draft, hP.ofDraft?_draft, Option.some.injEq] at stays
    rw [stays, same he]

theorem Part.Changed.get?_of_mem (hP : P.Changed changes s t) (reads : ReadsWhatIsSet P.set? get?)
    (distinct : (changes.map Change.key).Nodup) (hc : .inSection P.name field value ∈ changes) :
    get? field (P.ofSettings t) = some value := by
  have given := mem_fieldsIn.2 hc
  exact get?_setAll_of_mem reads (nodup_fieldsIn distinct P.name) given
    (hP.fields (List.ne_nil_of_mem given))

/-- A field of a part stays if no change names it, and none names the part or some name other fields
of it. -/
theorem Part.Changed.get?_kept (hP : P.Changed changes s t) (reads : ReadsWhatIsSet P.set? get?)
    (lawful : P.Lawful) (hfield : (P.name, some field) ∉ changes.map Change.key)
    (hpart : (P.name, none) ∉ changes.map Change.key ∨ fieldsIn P.name changes ≠ []) :
    get? field (P.ofSettings t) = get? field (P.ofSettings s) := by
  by_cases he : fieldsIn P.name changes = []
  · have free := hpart.resolve_right (not_not_intro he)
    rw [hP.kept he (lawful.given?_eq_none free)]
  · refine get?_setAll_of_not_mem reads (fun hmem => hfield ?_) (hP.fields he)
    obtain ⟨f, hf, rfl⟩ := List.mem_map.1 hmem
    exact List.mem_map.2 ⟨_, mem_fieldsIn.1 hf, rfl⟩

end Changed

end ActionItems.Settings
