import ActionItems.Proofs.Except
import ActionItems.Settings.Basic

/-!
# Fields of settings

The fields of a section are read by the names that they are set by (`ServiceSettings.get?` and so
on): the field that is set has its value, and the others keep theirs (`ReadsWhatIsSet`). So of
several fields that are set one after the other each has the value given to it, and a field that is
not among them stays as it is (`get?_setAll_of_mem`, `get?_setAll_of_not_mem`).
-/

namespace ActionItems

/-- The value of the field of a name, if the section has one. -/
def ServiceSettings.get? (name : String) (s : ServiceSettings) : Option Value :=
  match name with
  | "token" => some s.token
  | "api_base_url" => some s.base
  | "timeout_seconds" => some s.timeout
  | "app_identifier" => some s.app
  | "webhook_secret" => some s.secret
  | "app_name" => some s.name
  | _ => none

/-- The value of the field of a name, if the section has one. -/
def ServerSettings.get? (name : String) (s : ServerSettings) : Option Value :=
  match name with
  | "host" => some s.host
  | "port" => some s.port
  | _ => none

/-- The value of the field of a name, if the section has one. -/
def LogSettings.get? (name : String) (s : LogSettings) : Option Value :=
  match name with
  | "level" => some s.level
  | "format" => some s.format
  | "file_path" => some s.file
  | "max_file_size" => some s.maxSize
  | "backup_count" => some s.backups
  | _ => none

namespace Settings

/-- Whether a field that is set has its value, and every other field keeps its own. -/
def ReadsWhatIsSet {σ : Type} (set? : String → Value → σ → Option σ)
    (get? : String → σ → Option Value) : Prop :=
  ∀ name value s t, set? name value s = some t →
    ∀ other, get? other t = if other = name then some value else get? other s

theorem readsWhatIsSet_service : ReadsWhatIsSet ServiceSettings.set? ServiceSettings.get? := by
  intro name value s t h other
  unfold ServiceSettings.set? at h
  split at h <;> cases h <;> (unfold ServiceSettings.get?; split <;> simp_all)

theorem readsWhatIsSet_server : ReadsWhatIsSet ServerSettings.set? ServerSettings.get? := by
  intro name value s t h other
  unfold ServerSettings.set? at h
  split at h <;> cases h <;> (unfold ServerSettings.get?; split <;> simp_all)

theorem readsWhatIsSet_log : ReadsWhatIsSet LogSettings.set? LogSettings.get? := by
  intro name value s t h other
  unfold LogSettings.set? at h
  split at h <;> cases h <;> (unfold LogSettings.get?; split <;> simp_all)

variable {σ : Type} {set? : String → Value → σ → Option σ} {get? : String → σ → Option Value}
  {fields : List (String × Value)} {name : String} {value : Value} {s t : σ}

theorem setAll_cons_eq_ok_iff : setAll set? ((name, value) :: fields) s = .ok t ↔
    ∃ r, set? name value s = some r ∧ setAll set? fields r = .ok t := by
  rw [setAll]
  cases set? name value s with
  | none => simp
  | some r => simp

variable (reads : ReadsWhatIsSet set? get?)
include reads

/-- **A field that is not set stays as it is.** -/
theorem get?_setAll_of_not_mem (hname : name ∉ fields.map Prod.fst)
    (h : setAll set? fields s = .ok t) : get? name t = get? name s := by
  induction fields generalizing s with
  | nil =>
    cases h
    rfl
  | cons f fields ih =>
    obtain ⟨r, hset, hrest⟩ := setAll_cons_eq_ok_iff.1 h
    rw [List.map_cons, List.mem_cons, not_or] at hname
    rw [ih hname.2 hrest, reads _ _ _ _ hset, if_neg hname.1]

/-- **A field that is set has its value**, if it is set once. -/
theorem get?_setAll_of_mem (nodup : (fields.map Prod.fst).Nodup) (hmem : (name, value) ∈ fields)
    (h : setAll set? fields s = .ok t) : get? name t = some value := by
  induction fields generalizing s with
  | nil => cases hmem
  | cons f fields ih =>
    obtain ⟨r, hset, hrest⟩ := setAll_cons_eq_ok_iff.1 h
    rw [List.map_cons, List.nodup_cons] at nodup
    rcases List.mem_cons.1 hmem with rfl | hmem
    · rw [get?_setAll_of_not_mem reads nodup.1 hrest, reads _ _ _ _ hset, if_pos rfl]
    · exact ih nodup.2 hmem hrest

end Settings

end ActionItems
