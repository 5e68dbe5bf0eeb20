import ActionItems.Proofs.Settings.Change

/-!
# Updates of settings

An update fails and leaves its manager as it was, or puts the settings in use that the changes make
of those in use before; then only opening the log file can still fail (`update_cases`). So as long
as there is no log file, each of any number of updates does all of what it is asked or nothing, and
the settings in use stay valid (`updates_all_or_nothing`).

An update that succeeds gives every named field its value, puts the named sections in place and
leaves all else as it was (`Applied`, `update_applied`). A section that is put in place is lost if a
field of it is given a value by the same update: its other fields are then those of the section in
use before.
-/

namespace ActionItems.Settings

variable {s t : Settings} {m m' : Manager} {changes : List Change} {c : Change}
  {part field : String} {value : Value}

/-! ### One update -/

theorem add_of_no_file {l : LogSettings} (h : l.file.isTruthy = false) (logs : Logs) :
    logs.add l = (logs, .ok ()) := by
  rw [Logs.add, h]
  rfl

theorem use_of_no_file (h : s.log.file.isTruthy = false) (m : Manager) :
    m.use s = (⟨s, m.logs⟩, .ok s) := by
  rw [Manager.use, add_of_no_file h]

/-- **What an update does**: it fails and changes nothing, or its settings are in use afterwards,
and only the log file can make it fail. -/
theorem update_cases (m : Manager) (changes : List Change) :
    (∃ e, change m.settings changes = .error e ∧ m.update changes = (m, .error e)) ∨
      ∃ s, change m.settings changes = .ok s ∧ (m.update changes).1.settings = s ∧
        ((m.update changes).2 = .ok s ∨ s.log.file.isTruthy = true ∧ ∃ e,
          (m.update changes).2 = .error (.log e)) := by
  unfold Manager.update
  cases hchange : change m.settings changes with
  | error e => exact .inl ⟨e, rfl, rfl⟩
  | ok s =>
    refine .inr ⟨s, rfl, ?_⟩
    show (m.use s).1.settings = s ∧ ((m.use s).2 = .ok s ∨ _ ∧ ∃ e, (m.use s).2 = .error (.log e))
    unfold Manager.use
    cases hadd : m.logs.add s.log with
    | mk logs opened =>
      cases opened with
      | ok => exact ⟨rfl, .inl rfl⟩
      | error e =>
        refine ⟨rfl, .inr ⟨?_, e, rfl⟩⟩
        by_contra absent
        rw [add_of_no_file (Bool.eq_false_iff.2 absent)] at hadd
        cases hadd

/-! ### Sequences of updates -/

/-- A call of an update, with the manager before it and after it. -/
structure Call where
  before : Manager
  changes : List Change
  after : Manager
  result : Except UpdateError Settings

/-- Updates of a manager, one after the other. -/
def Manager.calls (m : Manager) : List (List Change) → List Call
  | [] => []
  | changes :: rest =>
    ⟨m, changes, (m.update changes).1, (m.update changes).2⟩ :: (m.update changes).1.calls rest

/-- Whether a call does all of what it is asked, or nothing. -/
structure Call.IsWhole (c : Call) : Prop where
  /-- It fails only if the changes cannot be made. -/
  result_eq : c.result = change c.before.settings c.changes
  kept : ∀ e, c.result = .error e → c.after = c.before
  held : ∀ t, c.result = .ok t → c.after.settings = t

/-- A call keeps the settings valid, and it is whole if it leaves no log file behind. -/
theorem isWhole_update (hvalid : m.settings.validate = .ok m.settings) (changes : List Change) :
    let call : Call := ⟨m, changes, (m.update changes).1, (m.update changes).2⟩
    call.after.settings.validate = .ok call.after.settings ∧
      (call.after.settings.log.file.isTruthy = false → call.IsWhole) := by
  obtain ⟨e, hchange, hupdate⟩ | ⟨s, hchange, hsettings, result⟩ := update_cases m changes
  · rw [hupdate]
    exact ⟨hvalid, fun _ => ⟨hchange.symm, fun _ _ => rfl, fun t ht => nomatch ht⟩⟩
  · intro call
    refine ⟨hsettings ▸ validate_of_change hchange, fun hfile => ?_⟩
    obtain ok | ⟨file, -⟩ := result
    · refine ⟨ok.trans hchange.symm, fun e he => ?_, fun t ht => ?_⟩
      · cases ok.symm.trans he
      · cases ok.symm.trans ht
        exact hsettings
    · rw [← hsettings, hfile] at file
      cases file

theorem isWhole_calls (hvalid : m.settings.validate = .ok m.settings)
    (updates : List (List Change)) :
    ∀ call ∈ m.calls updates, call.after.settings.validate = .ok call.after.settings ∧
      (call.after.settings.log.file.isTruthy = false → call.IsWhole) := by
  induction updates generalizing m with
  | nil => exact fun call hcall => nomatch hcall
  | cons changes rest ih =>
    have first := isWhole_update hvalid changes
    exact List.forall_mem_cons.2 ⟨first, ih first.1⟩

/-- **Updates do all or nothing** as long as there is no log file. A manager of valid settings
without a log file is made, and after every one of any number of updates the settings in use are
valid; if they have no log file, an update that failed left them as they were, and one that
succeeded gave the settings in use. -/
theorem updates_all_or_nothing (hvalid : s.validate = .ok s) (hfile : s.log.file.isTruthy = false) :
    ∃ m, Manager.start s = .ok m ∧ m.settings = s ∧
      ∀ updates : List (List Change), ∀ call ∈ m.calls updates,
      call.after.settings.validate = .ok call.after.settings ∧
        (call.after.settings.log.file.isTruthy = false → call.IsWhole) := by
  refine ⟨⟨s, {}⟩, ?_, rfl, isWhole_calls hvalid⟩
  rw [Manager.start, hvalid]
  simp only [Except.mapError, bind, Except.bind, use_of_no_file hfile]
  rfl

/-- Settings that can be used. -/
def ready : Settings where
  service := { token := .text "t", app := .int 42, secret := .text "s" }

theorem validate_ready : ready.validate = .ok ready := rfl

/-- Of an update that fails at its second change the first one is not made. -/
theorem updates_all_or_nothing_unknown_section :
    let updates : List (List Change) := [[.ofName "server.port" (.int 8000)],
      [.ofName "debug" (.bool true), .ofName "smtp.port" (.int 25)]]
    ∃ m, Manager.start ready = .ok m ∧
      (m.calls updates).map (fun call => call.after.settings.debug) =
      [.bool false, .bool false] ∧ ∀ call ∈ m.calls updates, call.IsWhole := by
  intro updates
  obtain ⟨m, hstart, -, whole⟩ := updates_all_or_nothing validate_ready rfl
  obtain rfl : m = ⟨ready, {}⟩ := Except.ok.inj hstart.symm
  refine ⟨_, hstart, rfl, fun call hcall => (whole updates call hcall).2 ?_⟩
  have files : ∀ call ∈ (Manager.mk ready {}).calls updates,
      call.after.settings.log.file.isTruthy = false :=
    List.forall_mem_cons.2 ⟨rfl, List.forall_mem_cons.2 ⟨rfl, fun call hcall => nomatch hcall⟩⟩
  exact files call hcall

/-! ### What an update gives and what it keeps -/

/-- The value of a field of a section, by the names of both. -/
def field? (s : Settings) (part field : String) : Option Value :=
  match part with
  | "github" => s.service.get? field
  | "server" => s.server.get? field
  | "logging" => s.log.get? field
  | _ => none

/-- Whether changes are made of settings, and nothing else. -/
structure Applied (changes : List Change) (s t : Settings) : Prop where
  /-- A field that is given a value has it. -/
  field : ∀ part field value, .inSection part field value ∈ changes →
    t.field? part field = some value
  /-- A section that is put in place stands there, if no field of it is given a value as well. -/
  service : ∀ g, .service g ∈ changes → fieldsIn "github" changes = [] → t.service = g
  server : ∀ g, .server g ∈ changes → fieldsIn "server" changes = [] → t.server = g
  log : ∀ g, .log g ∈ changes → fieldsIn "logging" changes = [] → t.log = g
  debug : ∀ value, .own "debug" value ∈ changes → t.debug = value
  /-- Nothing else is given a value of its own, unless it is the name of a section of which fields
  are given values: then it has no effect. -/
  own : ∀ name value, .own name value ∈ changes →
    name = "debug" ∨ (name ∈ sectionNames ∧ fieldsIn name changes ≠ [])
  /-- A field that no change names stays as it was, even if a section is put in place, as long as
  other fields of that section are given values. -/
  field_kept : ∀ part field, (part, some field) ∉ changes.map Change.key →
    ((part, none) ∉ changes.map Change.key ∨ fieldsIn part changes ≠ []) →
    t.field? part field = s.field? part field
  debug_kept : ("debug", none) ∉ changes.map Change.key → t.debug = s.debug

theorem fieldsIn_debug (h : change s changes = .ok t) : fieldsIn "debug" changes = [] := by
  by_contra given
  exact absurd (mem_sectionNames_of_change h given) (by decide)

theorem applied_of_change (distinct : (changes.map Change.key).Nodup)
    (h : change s changes = .ok t) : Applied changes s t := by
  have service := lawful_service.of_change distinct h
  have server := lawful_server.of_change distinct h
  have log := lawful_log.of_change distinct h
  have debug := lawful_debug.of_change distinct h
  refine ⟨fun part field value hc => ?_, fun g hc he => ?_, fun g hc he => ?_, fun g hc he => ?_,
    fun value hc => ?_, fun name value hc => ?_,
      fun part field hfield hpart => ?_, fun hdebug => ?_⟩
  · have known := mem_sectionNames_of_change h (List.ne_nil_of_mem (mem_fieldsIn.2 hc))
    simp only [sectionNames, List.mem_cons, List.not_mem_nil, or_false] at known
    obtain rfl | rfl | rfl := known
    · exact service.get?_of_mem readsWhatIsSet_service distinct hc
    · exact server.get?_of_mem readsWhatIsSet_server distinct hc
    · exact log.get?_of_mem readsWhatIsSet_log distinct hc
  · exact (Option.some.inj (service.given he _ hc _ rfl)).symm
  · exact (Option.some.inj (server.given he _ hc _ rfl)).symm
  · exact (Option.some.inj (log.given he _ hc _ rfl)).symm
  · exact (Option.some.inj (debug.given (fieldsIn_debug h) _ hc _ rfl)).symm
  · refine (own_of_change h hc).imp_right fun known => ⟨known, fun he => ?_⟩
    -- What is put in place of the section is none, but the settings have all sections.
    simp only [sectionNames, List.mem_cons, List.not_mem_nil, or_false] at known
    obtain rfl | rfl | rfl := known
    · cases service.given he _ hc _ rfl
    · cases server.given he _ hc _ rfl
    · cases log.given he _ hc _ rfl
  · unfold field?
    split
    · exact service.get?_kept readsWhatIsSet_service lawful_service hfield hpart
    · exact server.get?_kept readsWhatIsSet_server lawful_server hfield hpart
    · exact log.get?_kept readsWhatIsSet_log lawful_log hfield hpart
    · rfl
  · exact debug.kept (fieldsIn_debug h) (lawful_debug.given?_eq_none hdebug)

/-- **An update that succeeds makes its changes and no others**, if they have different keys. -/
theorem update_applied (distinct : (changes.map Change.key).Nodup)
    (h : m.update changes = (m', .ok t)) : m'.settings = t ∧ Applied changes m.settings t := by
  obtain ⟨e, -, hupdate⟩ | ⟨s, hchange, hsettings, result⟩ := update_cases m changes
  · cases h.symm.trans hupdate
  · rw [h] at hsettings result
    obtain ok | ⟨-, e, he⟩ := result
    · cases ok
      exact ⟨hsettings, applied_of_change distinct hchange⟩
    · cases he

/-- A section that is put in place is lost to a field of it. -/
theorem update_applied_server_lost :
    let m : Manager := ⟨ready, {}⟩
    let changes : List Change := [.server { host := .text "h" }, .ofName "server.port" (.int 8000),
      .ofName "debug" (.bool true)]
    (changes.map Change.key).Nodup ∧ ∃ m' t, m.update changes = (m', .ok t) ∧ m'.settings = t ∧
      Applied changes ready t ∧ t.server = { port := .int 8000 } := by
  intro m changes
  have distinct : (changes.map Change.key).Nodup := by decide
  obtain ⟨m', t, h, hserver⟩ : ∃ m' t, m.update changes = (m', .ok t) ∧
      t.server = { port := .int 8000 } :=
    ⟨_, _, rfl, rfl⟩
  obtain ⟨settings, applied⟩ := update_applied distinct h
  exact ⟨distinct, m', t, h, settings, applied, hserver⟩

end ActionItems.Settings
