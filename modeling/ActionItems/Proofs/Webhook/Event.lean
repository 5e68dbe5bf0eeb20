import ActionItems.Proofs.Except
import ActionItems.Webhook.Event

/-!
# Events that are read

An event is read from a document part by part, and a part that is there has been read from a value.
What is true of all that a reader reads is therefore true of the parts and of the items of the lists
that it reads (`of_part?`, `of_required?`, `of_readList?`). So it is known of an event from the body
of a delivery that its repository has an owner and that the pull requests of its checks have
positive numbers (`Event.isValid_of_ofBytes`).
-/

namespace ActionItems.Webhook

variable {α : Type} {v : Value} {name : String} {read : Value → Option α} {P : α → Prop}

/-! ### Parts -/

theorem of_part? (hread : ∀ {v a}, read v = some a → P a) {a? : Option α}
    (h : part? v name read = some a?) : ∀ a ∈ a?, P a := by
  unfold part? at h
  split at h
  · cases h
    rintro a ⟨⟩
  · cases h
    rintro a ⟨⟩
  · obtain ⟨a, ha, rfl⟩ := Option.map_eq_some_iff.1 h
    rintro _ ⟨⟩
    exact hread ha

theorem of_required? (hread : ∀ {v a}, read v = some a → P a) {a : α}
    (h : required? v name read = some a) : P a := by
  obtain ⟨x, -, hx⟩ := Option.bind_eq_some_iff.1 h
  exact hread hx

theorem of_readList? (hread : ∀ {v a}, read v = some a → P a) {as : List α}
    (h : readList? read v = some as) : ∀ a ∈ as, P a := by
  unfold readList? at h
  split at h
  · next items =>
    have each : List.Forall₂ (fun a x => P a ∧ read x = some a) as items :=
      (Option.mapM_eq_some_iff.1 h).flip.imp fun a x hx => ⟨hread hx, hx⟩
    exact ((List.forall₂_and_left as items).1 each).1
  · cases h

/-! ### Events -/

/-- The pull requests of a check have positive numbers. -/
def Check.IsValid (c : Check) : Prop := ∀ p ∈ c.pullRequests, 0 < p.number

/-- The repository of an event has an owner, and the checks of the event are valid. -/
structure Event.IsValid (event : Event) : Prop where
  owner : '/' ∈ event.repository.fullName.toList
  checkRun : ∀ check ∈ event.checkRun?, check.IsValid
  checkSuite : ∀ check ∈ event.checkSuite?, check.IsValid

theorem PullRequest.number_pos {p : PullRequest} (h : PullRequest.ofValue? v = some p) :
    0 < p.number := by
  obtain ⟨number, hnumber, h⟩ := Option.bind_eq_some_iff.1 h
  obtain ⟨head?, -, hp⟩ := Option.bind_eq_some_iff.1 h
  cases hp
  exact of_decide_eq_true (Option.filter_eq_some_iff.1 hnumber).2

theorem Check.isValid_of_ofValue? {c : Check} (h : Check.ofValue? v = some c) : c.IsValid := by
  obtain ⟨id, -, h⟩ := Option.bind_eq_some_iff.1 h
  obtain ⟨headSha, -, h⟩ := Option.bind_eq_some_iff.1 h
  dsimp only at h
  split at h
  · obtain ⟨pullRequests, hnone, h⟩ := Option.bind_eq_some_iff.1 h
    obtain ⟨app?, -, hc⟩ := Option.bind_eq_some_iff.1 h
    cases hc
    cases hnone
    exact List.forall_mem_nil _
  · obtain ⟨pullRequests, hlist, h⟩ := Option.bind_eq_some_iff.1 h
    obtain ⟨app?, -, hc⟩ := Option.bind_eq_some_iff.1 h
    cases hc
    exact of_readList? PullRequest.number_pos hlist

theorem Repository.owner_of_ofValue? {r : Repository} (h : Repository.ofValue? v = some r) :
    '/' ∈ r.fullName.toList := by
  obtain ⟨name, -, h⟩ := Option.bind_eq_some_iff.1 h
  obtain ⟨fullName, hfullName, hr⟩ := Option.bind_eq_some_iff.1 h
  cases hr
  exact List.contains_iff_mem.1 (Option.filter_eq_some_iff.1 hfullName).2

theorem Event.isValid_of_ofValue? {event : Event} (h : Event.ofValue? v = some event) :
    event.IsValid := by
  obtain ⟨entries, -, h⟩ := Option.bind_eq_some_iff.1 h
  obtain ⟨action?, -, h⟩ := Option.bind_eq_some_iff.1 h
  obtain ⟨repository, hrepository, h⟩ := Option.bind_eq_some_iff.1 h
  obtain ⟨installation?, -, h⟩ := Option.bind_eq_some_iff.1 h
  obtain ⟨checkRun?, hcheckRun, h⟩ := Option.bind_eq_some_iff.1 h
  obtain ⟨checkSuite?, hcheckSuite, h⟩ := Option.bind_eq_some_iff.1 h
  obtain ⟨pullRequest?, -, hevent⟩ := Option.bind_eq_some_iff.1 h
  cases hevent
  exact ⟨of_required? Repository.owner_of_ofValue? hrepository,
    of_part? Check.isValid_of_ofValue? hcheckRun, of_part? Check.isValid_of_ofValue? hcheckSuite⟩

theorem Event.exists_ofValue?_of_ofBytes {body : List UInt8} {event : Event}
    (h : Event.ofBytes body = .ok event) : ∃ v, Event.ofValue? v = some event := by
  unfold Event.ofBytes at h
  split at h
  · cases h
  · cases h
  · split at h
    · next hread =>
      cases h
      exact ⟨_, hread⟩
    · cases h

/-- **An event that is read is valid.** -/
theorem Event.isValid_of_ofBytes {body : List UInt8} {event : Event}
    (h : Event.ofBytes body = .ok event) : event.IsValid := by
  obtain ⟨v, hread⟩ := exists_ofValue?_of_ofBytes h
  exact isValid_of_ofValue? hread

end ActionItems.Webhook
