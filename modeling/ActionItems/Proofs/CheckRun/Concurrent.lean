import ActionItems.Proofs.CheckRun.Interleaving
import ActionItems.Proofs.CheckRun.Repeated
import Mathlib.Data.List.Basic

/-!
# Check runs at the same time

A check run looks for the comment of its app and then creates it, in two calls, and nothing keeps
another run for the same pull request from doing so in between. So two runs can leave two comments
(`two_comments`).

They do so only if both have read everything, the whole listing of the comments included, when the
first of them creates its comment (`Overlaps`): a run creates a comment right after it has read all
comments and found none of the app (`creation_cases`), and had it called for one more page after the
other's comment was there, it would have found it. There are never more than two, since a run
creates one at most (`countP_isCreation_le`).

`concurrent_runs` is the main result.
-/

namespace ActionItems.CheckRun

open ActionItems.GitHub
open ActionItems.Webhook (CheckRequest)

variable {t : Thread} {comments later : List Value} {request : CheckRequest} {app : App}
  {pages : Nat} {xs : List Exchange}

/-! ### The call that creates a comment -/

/-- **A check run creates a comment once**, right after it has read all that it needs and has found
no comment of the app. -/
theorem creation_cases [CharNames] {outcome : Outcome}
    (h : (run app pages request).Trace xs outcome) : (∀ x ∈ xs, isCreation x.call = false) ∨
      ∃ before w after text options analysis, xs = before ++ w :: after ∧
        w.call = ⟨request.repository, .createComment (.int request.pullRequest) (.text text)⟩ ∧
        (∀ x ∈ before ++ after, isCreation x.call = false) ∧
        Task.Trace (gather app pages request) before (.ok (options, analysis, none)) := by
  obtain ⟨ys, zs, c, rfl, hcarry, hend⟩ := run_cases h
  have report : ∀ z ∈ zs, isCreation z.call = false :=
    fun z hz => not_isCreation (not_writes_of_report hend z hz)
  rw [carryOut_eq] at hcarry
  obtain ⟨e, -, hg⟩ | ⟨before, rest, ⟨options, analysis, own?⟩, rfl, hg, hrest⟩ :=
    Task.of_bind hcarry
  · have quiet := asks_gather.of_trace hg
    exact .inl (List.forall_mem_append.2 ⟨fun x hx => not_isCreation (quiet x hx).1, report⟩)
  have reading : ∀ x ∈ before, isCreation x.call = false :=
    fun x hx => not_isCreation (asks_gather.of_trace hg x hx).1
  obtain ⟨e, -, rfl⟩ | ⟨plan, r, -, hwrite, -⟩ := conclude_cases hrest
  · rw [List.append_nil]
    exact .inl (List.forall_mem_append.2 ⟨reading, report⟩)
  obtain ⟨ws, us, rfl, hws, hus, -⟩ := write_cases hwrite
  have verdict : ∀ x ∈ us ++ zs, isCreation x.call = false := by
    rw [List.forall_mem_append]
    refine ⟨?_, report⟩
    obtain rfl | ⟨u, rfl, hu⟩ := hus
    · simp
    · rw [List.forall_mem_singleton, hu]
      rfl
  cases hws with
  | nothing =>
    rw [List.append_assoc, List.nil_append]
    exact .inl (List.forall_mem_append.2 ⟨reading, verdict⟩)
  | @made text w htext hcall =>
    rw [List.append_assoc, List.append_assoc, List.singleton_append]
    cases own? with
    | none =>
      exact .inr ⟨before, w, us ++ zs, text, options, analysis, rfl, (Option.some.inj hcall).symm,
        List.forall_mem_append.2 ⟨reading, verdict⟩, hg⟩
    | some own =>
      obtain ⟨id, -, hcall⟩ := Option.map_eq_some_iff.1 hcall
      refine .inl (List.forall_mem_append.2 ⟨reading, List.forall_mem_cons.2 ⟨?_, verdict⟩⟩)
      rw [← hcall]
      rfl

theorem countP_isCreation_le [CharNames] {outcome : Outcome}
    (h : (run app pages request).Trace xs outcome) : xs.countP (isCreation ·.call) ≤ 1 := by
  have none {l : List Exchange} (hl : ∀ x ∈ l, isCreation x.call = false) :
      l.countP (isCreation ·.call) = 0 :=
    List.countP_eq_zero.2 fun x hx => by simp [hl x hx]
  obtain hnone | ⟨before, w, after, text, options, analysis, rfl, hw, others, -⟩ := creation_cases h
  · rw [none hnone]
    exact Nat.zero_le 1
  · rw [List.forall_mem_append] at others
    rw [List.countP_append, List.countP_cons, none others.1, none others.2, hw]
    exact Nat.le_refl 1

theorem gather_of_isCreation [CharNames] {outcome : Outcome} {before after : List Exchange}
    {w : Exchange} (h : (run app pages request).Trace (before ++ w :: after) outcome)
    (hw : isCreation w.call = true) :
    (∃ text, w.call = ⟨request.repository, .createComment (.int request.pullRequest)
      (.text text)⟩) ∧
      ∃ options analysis, Task.Trace (gather app pages request) before
        (.ok (options, analysis, none)) := by
  obtain hnone | ⟨before', w', after', text, options, analysis, same, hw', others, hg⟩ :=
    creation_cases h
  · have := hnone w (by simp)
    rw [hw] at this
    cases this
  · rw [List.forall_mem_append] at others
    have notin {l : List Exchange} (hl : ∀ x ∈ l, isCreation x.call = false) : w ∉ l :=
      fun hmem => by
      rw [hl w hmem] at hw
      cases hw
    obtain ⟨rfl, rfl, -⟩ :=
      (List.append_cons_inj_of_notMem (notin others.1) (notin others.2)).1 same.symm
    exact ⟨⟨text, hw'⟩, options, analysis, hg⟩

/-- A run that creates a comment has read everything before, and has found no comment of the app. -/
theorem exists_gathers [CharNames] (happ : app.identifier = .int t.app) {options : Options}
    {analysis : Analysis}
    (h : Task.Trace (gather app pages request) xs (.ok (options, analysis, none)))
    (hcut : ¬ CutShort request pages xs) :
    ∃ f, Gathers request xs f ∧ ¬ HasComment (.int t.app) f.comments := by
  obtain ⟨diff, comments, found?, hgathers, -, hfound, hnone⟩ := gathers_of_trace h hcut
  rw [happ] at hfound
  rw [filter_of_firstOfApp hfound] at hnone
  subst hnone
  refine ⟨⟨options, diff, comments⟩, hgathers, ?_⟩
  rintro ⟨c, hc, hby⟩
  exact not_isBy_of_firstOfApp hfound c hc hby

/-! ### Two runs in turns -/

/-- Two runs have both read everything when one of them creates a comment, and the other one creates
another. -/
inductive Overlaps (t : Thread) (requests : Fin 2 → CheckRequest) : List (Fin 2 × Exchange) → Prop
  | intro {before between after : List (Fin 2 × Exchange)} {i j : Fin 2} {first second : Exchange}
    (hne : i ≠ j)
    (hread : ∀ k, ∃ f, Gathers (requests k) (madeBy k before) f ∧
      ¬ HasComment (.int t.app) f.comments)
    (hfirst : isCreation first.call = true) (hsecond : isCreation second.call = true) :
    Overlaps t requests (before ++ (i, first) :: (between ++ (j, second) :: after))

section

variable [CharNames] {requests : Fin 2 → CheckRequest} {xs : List (Fin 2 × Exchange)}
  (htraces : ∀ i, ∃ outcome, (run app pages (requests i)).Trace (madeBy i xs) outcome)
  (hrepository : ∀ i, (requests i).repository = t.repository)
  (hnumber : ∀ i, (requests i).pullRequest = t.number)
  (hs : ServesAll t comments (xs.map Prod.snd) later)

include htraces

theorem countP_isCreation_le_two : (xs.map Prod.snd).countP (isCreation ·.call) ≤ 2 := by
  refine countP_le_card fun i => ?_
  obtain ⟨outcome, htrace⟩ := htraces i
  exact countP_isCreation_le htrace

theorem ne_of_isCreation {i j : Fin 2} {before between after : List (Fin 2 × Exchange)}
    {first second : Exchange} (hxs : xs = before ++ (i, first) :: (between ++ (j, second) :: after))
    (hfirst : isCreation first.call = true) (hsecond : isCreation second.call = true) : i ≠ j := by
  rintro rfl
  obtain ⟨outcome, htrace⟩ := htraces i
  have once := countP_isCreation_le htrace
  rw [hxs, madeBy_append, madeBy_cons_self, madeBy_append, madeBy_cons_self] at once
  simp only [List.countP_append, List.countP_cons, hfirst, hsecond, if_true] at once
  omega

include hrepository hnumber hs

theorem exists_gathers_of_isCreation (happ : app.identifier = .int t.app)
    (hpages : later.length < pageSize * pages) {i : Fin 2} {before after : List Exchange}
    {w : Exchange} (hmade : madeBy i xs = before ++ w :: after) (hw : isCreation w.call = true) :
    ∃ f, Gathers (requests i) before f ∧ ¬ HasComment (.int t.app) f.comments := by
  obtain ⟨outcome, htrace⟩ := htraces i
  have uncut : ¬ CutShort (requests i) pages (madeBy i xs) :=
    not_cutShort_of_madeBy (hrepository i) (hnumber i) hs hpages
  rw [hmade] at htrace uncut
  obtain ⟨-, options, analysis, hgather⟩ := gather_of_isCreation htrace hw
  exact exists_gathers happ hgather fun hcut => uncut (hcut.append _)

/-- **There is a second comment of the app only if the runs overlap.** -/
theorem overlaps_of_ownCount (happ : app.identifier = .int t.app)
    (hpages : later.length < pageSize * pages) (hnone : ownCount t comments = 0)
    (more : 1 < ownCount t later) : Overlaps t requests xs := by
  -- the first comment of the app, and the second one
  obtain ⟨before, i, first, rest, mid, comment, hxs, hfirst, hbefore, hmid, hcomment, hrest⟩ :=
    hs.exists_created (by omega)
  have one : ownCount t (mid ++ [comment]) = 1 := by
    rw [ownCount_append, ownCount_singleton hcomment, hmid, hnone]
  obtain ⟨between, j, second, after, mid', comment', rfl, hsecond, hbetween, -⟩ :=
    hrest.exists_created (by omega)
  have hne : i ≠ j := ne_of_isCreation htraces hxs hfirst hsecond
  have byFirst : madeBy i xs = madeBy i before ++ first ::
      madeBy i (between ++ (j, second) :: after) := by
    rw [hxs, madeBy_append, madeBy_cons_self]
  have bySecond : madeBy j xs = (madeBy j before ++ madeBy j between) ++ second ::
      madeBy j after := by
    rw [hxs, madeBy_append, madeBy_cons_of_ne hne, madeBy_append, madeBy_cons_self,
      List.append_assoc]
  have readFirst :=
    exists_gathers_of_isCreation htraces hrepository hnumber hs happ hpages byFirst hfirst
  obtain ⟨f, hgathers, hnothing⟩ :=
    exists_gathers_of_isCreation htraces hrepository hnumber hs happ hpages bySecond hsecond
  -- The second run reads nothing after the first comment, or it would have found it.
  have nothing : madeBy j between = [] := by
    by_contra late
    exact hnothing (hgathers.hasComment late (hrepository j) (hnumber j) hbefore hcomment hbetween)
  rw [nothing, List.append_nil] at hgathers
  subst hxs
  refine .intro hne (fun k => ?_) hfirst hsecond
  obtain rfl | rfl : k = i ∨ k = j := by omega
  · exact readFirst
  · exact ⟨f, hgathers, hnothing⟩

/-- Runs that overlap leave two comments of the app, if none of the calls that create them fails. -/
theorem ownCount_of_overlaps (hnone : ownCount t comments = 0)
    (succeed : ∀ x ∈ xs, isCreation x.2.call = true → ¬ Fails x.2.reply)
    (h : Overlaps t requests xs) : ownCount t later = 2 := by
  have counted := hs.ownCount_eq fun x hx creates => by
    obtain ⟨⟨i, x⟩, hmem, rfl⟩ := List.mem_map.1 hx
    refine ⟨?_, succeed _ hmem creates⟩
    obtain ⟨ys, zs, rfl⟩ := List.append_of_mem hmem
    obtain ⟨outcome, htrace⟩ := htraces i
    rw [madeBy_append, madeBy_cons_self] at htrace
    obtain ⟨⟨text, hcall⟩, -⟩ := gather_of_isCreation htrace creates
    rw [hrepository, hnumber] at hcall
    exact ⟨_, hcall⟩
  have most : (xs.map Prod.snd).countP (isCreation ·.call) ≤ 2 := countP_isCreation_le_two htraces
  have least : 2 ≤ (xs.map Prod.snd).countP (isCreation ·.call) := by
    obtain ⟨-, -, hfirst, hsecond⟩ := h
    simp only [List.map_append, List.map_cons, List.countP_append, List.countP_cons, hfirst,
      hsecond, if_true]
    omega
  omega

end

/-- **Check runs at the same time leave two comments of the app at most**, and more than one only if
they overlap. If they do, there are two, unless a call that creates one fails. -/
theorem concurrent_runs [CharNames] {σ : Type} (host : Host σ t) {requests : Fin 2 → CheckRequest}
    {state : σ} (happ : app.identifier = .int t.app)
    (hrepository : ∀ i, (requests i).repository = t.repository)
    (hnumber : ∀ i, (requests i).pullRequest = t.number)
    (hpages : (host.comments state).length + 2 < pageSize * pages)
    (hothers : ∀ c ∈ host.comments state, ¬ IsBy (.int t.app) c) (turns : List (Turn (Fin 2)))
    {r : Turns (Fin 2) σ Outcome}
    (hr : r = Turns.run host.service ⟨fun i => run app pages (requests i), state, []⟩ turns) :
    ownCount t (host.comments r.service) ≤ 2 ∧
      (1 < ownCount t (host.comments r.service) → Overlaps t requests r.exchanges) ∧
      ((∀ x ∈ r.exchanges, isCreation x.2.call = true → ¬ Fails x.2.reply) →
        Overlaps t requests r.exchanges → ownCount t (host.comments r.service) = 2) := by
  subst hr
  have traces := Turns.trace_run host.service (fun i => run app pages (requests i)) state turns
  have serves := host.servesAll_turns (fun i => run app pages (requests i)) state turns
  have none : ownCount t (host.comments state) = 0 :=
    List.countP_eq_zero.2 fun c hc hby => hothers c hc (of_decide_eq_true hby)
  have creations := countP_isCreation_le_two traces
  obtain ⟨length, count⟩ := serves.count_le
  refine ⟨by omega, overlaps_of_ownCount traces hrepository hnumber serves happ (by omega) none, ?_⟩
  exact ownCount_of_overlaps traces hrepository hnumber serves none

/-! ### Two runs step by step -/

attribute [local instance] CharNames.ascii

/-- A pull request with an action item, by the comments that the app has made. -/
inductive Copies where
  | none
  | one
  | two
deriving DecidableEq

namespace Copies

/-- A comment of the app under an identifier. -/
def copy (id : Int) : Value :=
  .object [("id", .int id), ("performed_via_github_app", .object [("id", .int 7)]),
    ("body", .text Stage.text)]

/-- The comments of the app. -/
def kept : Copies → List Value
  | none => []
  | one => [copy 2]
  | two => [copy 2, copy 3]

/-- What the repository has: no option files, and a change with an action item. -/
def repository : Source := ⟨"+++ b/f.py\n@@ -0,0 +1 @@\n+# TODO x\n", fun _ => .ok .none⟩

/-- The replies about the pull request. Its comments are shown as long as there are none, and two of
the app are taken; other calls about comments are lost. -/
def replies : Service Copies := fun copies call =>
  match call.action with
  | .fetchDiff _ => (.answer 200 [] (Bytes.encode repository.diff), copies)
  | .fetchFile .. => (.answer 404 [] [], copies)
  | .listComments _ 1 =>
    if copies = none then (.answer 200 [] Stage.emptyPage, none) else (noReply, copies)
  | .createComment number (.text s) =>
    if call.repository = "o/r" ∧ number.display = "5" ∧ s = Stage.text then
      match copies with
      | none => (.answer 201 [] Round.empty, one)
      | one => (.answer 201 [] Round.empty, two)
      | two => (noReply, two)
    else (noReply, copies)
  | .createCheckRun .. => (.answer 200 [] Round.empty, copies)
  | .updateCheckRun .. => (.answer 200 [] Round.empty, copies)
  | _ => (noReply, copies)

theorem isBy_copy (id : Int) : IsBy (.int 7) (copy id) :=
  ⟨.int 7, commentApp_of_get? rfl rfl, by decide +kernel⟩

/-- The host with this pull request. -/
def pullRequest : Host Copies ⟨"o/r", 5, 7⟩ where
  service := replies
  comments := kept
  serves := by
    have lost : Fails noReply := fun now => ⟨_, rfl⟩
    rintro copies ⟨repository, action⟩
    unfold replies
    dsimp only
    split
    · exact .other (by simp [Concerns])
    · exact .other (by simp [Concerns])
    · next number =>
      split
      · next hnone =>
        subst hnone
        by_cases hhere : repository = "o/r" ∧ number.display = (Value.int 5).display
        · obtain ⟨rfl, hnumber⟩ := hhere
          exact .listed hnumber ⟨200, [], _, rfl, rfl, rfl, rfl, Stage.readDocument_emptyPage⟩
        · exact .other hhere
      · exact .failed lost
    · next number s =>
      split
      · next h =>
        obtain ⟨rfl, hnumber, rfl⟩ := h
        cases copies with
        | none => exact .created (copy 2) hnumber (isBy_copy 2) rfl (by simp [kept])
        | one =>
          exact .created (copy 3) hnumber (isBy_copy 3) rfl
            (List.forall_mem_singleton.2 (by decide +kernel))
        | two => exact .failed lost
      · exact .failed lost
    · exact .other (by simp [Concerns])
    · exact .other (by simp [Concerns])
    · exact .failed lost

/-- What is answered tells what the repository has. -/
theorem tells_of_isAnswer {copies : Copies} {x : Exchange}
    (hx : x.reply = (replies copies x.call).1) (h : x.reply.isAnswer = true) :
    repository.Tells x := by
  obtain ⟨⟨name, action⟩, token, reply, time⟩ := x
  obtain rfl : reply = (replies copies ⟨name, action⟩).1 := hx
  unfold replies at h ⊢
  dsimp only at h ⊢
  split at h
  · exact ⟨⟨rfl, rfl⟩, congrArg Except.ok (by decide +kernel)⟩
  · exact ⟨⟨rfl, rfl⟩, rfl⟩
  · split at h
    · next hnone =>
      rw [if_pos hnone]
      exact ⟨⟨rfl, rfl⟩, _, Stage.readDocument_emptyPage⟩
    · cases h
  · split at h
    · next hhere =>
      rw [if_pos hhere]
      cases copies with
      | none => exact ⟨⟨rfl, rfl⟩, _, Round.readDocument_empty⟩
      | one => exact ⟨⟨rfl, rfl⟩, _, Round.readDocument_empty⟩
      | two => cases h
    · cases h
  · exact ⟨⟨rfl, rfl⟩, _, Round.readDocument_empty⟩
  · exact ⟨⟨rfl, rfl⟩, _, Round.readDocument_empty⟩
  · cases h

/-- The requests of two check runs. -/
def requests (i : Fin 2) : CheckRequest := ⟨"o/r", 5, "abc", 98 + i⟩

/-- Two check runs that make their calls by turns. -/
def raced : Turns (Fin 2) Copies Outcome :=
  Turns.run replies ⟨fun i => run ⟨.int 7, .text "app"⟩ 1 (requests i), none, []⟩
    ((List.range 7).flatMap fun n => [⟨0, { tokens := .fixed "t" }, ⟨n⟩⟩,
      ⟨1, { tokens := .fixed "t" }, ⟨n⟩⟩])

theorem raced_eq : raced.service = two ∧ raced.exchanges.all (·.2.reply.isAnswer) = true := by
  decide +kernel

theorem ownCount_two : ownCount ⟨"o/r", 5, 7⟩ (kept two) = 2 := by
  decide +kernel

end Copies

/-- The two runs overlap. -/
theorem concurrent_runs_raced :
    ownCount ⟨"o/r", 5, 7⟩ (Copies.kept Copies.raced.service) = 2 ∧
      Overlaps ⟨"o/r", 5, 7⟩ Copies.requests Copies.raced.exchanges := by
  have two : ownCount ⟨"o/r", 5, 7⟩ (Copies.kept Copies.raced.service) = 2 := by
    rw [Copies.raced_eq.1]
    exact Copies.ownCount_two
  obtain ⟨-, overlaps, -⟩ :=
    @concurrent_runs ⟨"o/r", 5, 7⟩ ⟨.int 7, .text "app"⟩ 1 _ _ Copies.pullRequest
    Copies.requests .none rfl (fun _ => rfl) (fun _ => rfl) (show 0 + 2 < pageSize * 1 by decide)
    (show ∀ c ∈ [], ¬ IsBy (.int 7) c by simp) _ Copies.raced rfl
  exact ⟨two, overlaps (two.symm ▸ Nat.lt_succ_self 1)⟩

/-- **Two check runs at the same time can leave two comments of the app**, though every call is
answered. -/
theorem two_comments :
    (∀ c ∈ Copies.pullRequest.comments .none, ¬ IsBy (.int 7) c) ∧
      (∀ x ∈ Copies.raced.exchanges, Copies.repository.Tells x.2) ∧
      Copies.pullRequest.comments Copies.raced.service = [Copies.copy 2, Copies.copy 3] ∧
      IsBy (.int 7) (Copies.copy 2) ∧ IsBy (.int 7) (Copies.copy 3) := by
  obtain ⟨hservice, hanswers⟩ := Copies.raced_eq
  refine ⟨show ∀ c ∈ [], ¬ IsBy (.int 7) c by simp, fun x hx => ?_, congrArg Copies.kept hservice,
    Copies.isBy_copy 2, Copies.isBy_copy 3⟩
  obtain ⟨copies, hreply⟩ := Turns.exists_reply_of_mem _ _ _ x hx
  exact Copies.tells_of_isAnswer hreply (List.all_eq_true.1 hanswers x hx)

end ActionItems.CheckRun
