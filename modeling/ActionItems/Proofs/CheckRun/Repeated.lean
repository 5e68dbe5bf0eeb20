import ActionItems.Proofs.CheckRun.Answered
import ActionItems.Proofs.CheckRun.Protocol

/-!
# A check run that is repeated

A check run that is carried out again, with nothing else changed, finds the comment of the app that
the first run has left. It plans the same verdict and the same text, with which the comment stays as
it is (`Writes.alike`). There is one exception: a first run without action items may create the
comment, which says that there are none; the second run finds it and says that all of them are
resolved.

`repeated_run` is the main result.
-/

namespace ActionItems.CheckRun

open ActionItems.GitHub
open ActionItems.Webhook (CheckRequest)

variable {σ : Type} {t : Thread} {source : Source} {app : App} {request : CheckRequest}
  {comments later final : List Value}

/-! ### Comments that are alike -/

/-- Two versions of a comment that say the same. -/
structure Alike (before after : Value) : Prop where
  body : after.get? "body" = before.get? "body"
  id : after.get? "id" = before.get? "id"
  app : after.get? "performed_via_github_app" = before.get? "performed_via_github_app"

theorem Alike.refl (comment : Value) : Alike comment comment := ⟨rfl, rfl, rfl⟩

theorem Writes.alike {own : Value} {text : String}
    (h : Writes t (some own) (some text) comments later)
    (hbody : ∀ c ∈ comments, shownId? c = shownId? own → c.get? "body" = some (.text text)) :
    List.Forall₂ Alike comments later := by
  cases h with
  | @updated _ _ id _ hid edit hedit =>
    have shown : shownId? own = some id.display := by rw [shownId?, hid]; rfl
    rw [List.forall₂_map_right_iff, List.forall₂_same]
    intro c hc
    split
    · next hshown =>
      have edits := hedit c hc hshown
      exact ⟨by rw [edits.body, hbody c hc (hshown.trans shown.symm)], edits.id, edits.app⟩
    · exact .refl c

/-! ### The comment of the app -/

theorem commentApp_congr {c d : Value} (hc : ∃ entries, c = .map entries)
    (hd : ∃ entries, d = .map entries)
    (h : d.get? "performed_via_github_app" = c.get? "performed_via_github_app") :
    commentApp d = commentApp c := by
  obtain ⟨entries, rfl⟩ := hc
  obtain ⟨entries', rfl⟩ := hd
  have same : Value.lookup? "performed_via_github_app" entries' =
      Value.lookup? "performed_via_github_app" entries := h
  unfold commentApp
  simp only [fieldsOf, bind, Except.bind, same]

theorem commentApp_of_edits {body c d : Value} {id : String} (hid : shownId? c = some id)
    (h : Edits body c d) : commentApp d = commentApp c := by
  obtain ⟨id', hid', -⟩ := Option.map_eq_some_iff.1 hid
  obtain ⟨entries, hc, -⟩ := Value.get?_eq_some_iff.1 hid'
  obtain ⟨entries', hd, -⟩ := Value.get?_eq_some_iff.1 h.body
  exact commentApp_congr ⟨_, hc⟩ ⟨_, hd⟩ h.app

theorem firstOfApp_map {identifier : Value} {edit : Value → Value}
    (h : ∀ c ∈ comments, commentApp (edit c) = commentApp c) :
    firstOfApp identifier (comments.map edit) =
      (firstOfApp identifier comments).map (Option.map edit) := by
  induction comments with
  | nil => rfl
  | cons c rest ih =>
    rw [List.forall_mem_cons] at h
    rw [List.map_cons, firstOfApp, firstOfApp, h.1, ih h.2]
    cases commentApp c with
    | error f => rfl
    | ok made =>
      simp only [bind, Except.bind]
      split <;> rfl

theorem firstOfApp_append {identifier comment : Value}
    (h : firstOfApp identifier comments = .ok none) (hby : IsBy identifier comment) :
    firstOfApp identifier (comments ++ [comment]) = .ok (some comment) := by
  induction comments with
  | nil =>
    obtain ⟨made, hmade, hsame⟩ := hby
    simp only [List.nil_append, firstOfApp, hmade, bind, Except.bind, hsame, if_true]
    rfl
  | cons c rest ih =>
    rw [firstOfApp] at h
    obtain ⟨made, hmade, hrest⟩ := Except.of_bind_ok h
    rw [List.cons_append, firstOfApp, hmade]
    cases hs : made.same identifier with
    | true => rw [hs, if_pos rfl] at hrest; cases hrest
    | false =>
      rw [hs] at hrest
      simp only [bind, Except.bind, hs]
      exact ih hrest

theorem ownComment_eq_ok_iff {n : Int} (happ : app.identifier = .int n) {own? : Option Value} :
    ownComment app comments = .ok own? ↔ firstOfApp (.int n) comments = .ok own? := by
  unfold ownComment
  rw [happ]
  cases hf : firstOfApp (.int n) comments with
  | error f => exact iff_of_false (fun h => nomatch h) (fun h => nomatch h)
  | ok found? =>
    simp only [Except.mapError, bind, Except.bind, pure, Except.pure, filter_of_firstOfApp hf,
      Except.ok.injEq]

/-! ### What is meant the second time -/

/-- What a check run means to write, step by step. -/
theorem Source.intent?_eq_ok_iff [CharNames] {intent : Intent} :
    source.intent? app request comments = .ok intent ↔
    ∃ options analysis own? plan, source.options = .ok options ∧
      analyze options source.diff = .ok analysis ∧
      ownComment app comments = .ok own? ∧
      Plan.make request options analysis own?.isSome = .ok plan ∧
      plan.checkTarget own? = .ok () ∧ intent = ⟨analysis.total, plan, own?⟩ := by
  unfold Source.intent? Source.findings
  constructor
  · intro h
    obtain ⟨⟨options, analysis, own?⟩, hfindings, h⟩ := Except.of_bind_ok h
    obtain ⟨options', hoptions, hfindings⟩ := Except.of_bind_ok hfindings
    obtain ⟨analysis', hanalysis, hfindings⟩ := Except.of_bind_ok hfindings
    obtain ⟨own', hown, hfindings⟩ := Except.of_bind_ok hfindings
    cases hfindings
    obtain ⟨plan, hplan, h⟩ := Except.of_bind_ok h
    obtain ⟨⟨⟩, htarget, h⟩ := Except.of_bind_ok h
    cases h
    exact ⟨options, analysis, own?, plan, hoptions, Except.of_mapError_ok hanalysis, hown,
      Except.of_mapError_ok hplan, htarget, rfl⟩
  · rintro ⟨options, analysis, own?, plan, hoptions, hanalysis, hown, hplan, htarget, rfl⟩
    simp [hoptions, hanalysis, hown, hplan, htarget, Except.mapError, bind, Except.bind, pure,
      Except.pure]

/-- A plan for action items is the same whether the app has a comment or not. -/
theorem make_eq_of_pos {options : Options} {analysis : Analysis} (h : 0 < analysis.total)
    (b b' : Bool) :
    Plan.make request options analysis b = Plan.make request options analysis b' := by
  have items : analysis.hasItems = true := by
    unfold Analysis.hasItems
    exact decide_eq_true h
  unfold Plan.make
  rw [if_pos items, if_pos items]

theorem checkTarget_of_get? {plan : Plan} {own id : Value} (h : own.get? "id" = some id) :
    plan.checkTarget (some own) = .ok () := by
  unfold Plan.checkTarget
  split
  · rfl
  · simp only [checkId, commentId, h]
    rfl

/-- After an update of the comment of the app, the same is meant again. -/
theorem intent?_of_updated [CharNames] {intent : Intent} {own : Value} {text : String}
    (happ : app.identifier = .int t.app) (hi : source.intent? app request comments = .ok intent)
    (hown : intent.own? = some own) (h : Writes t (some own) (some text) comments later) :
    ∃ own', source.intent? app request later = .ok { intent with own? := some own' } ∧
      ∀ c ∈ later, shownId? c = shownId? own' → c.get? "body" = some (.text text) := by
  obtain ⟨options, analysis, own?, plan, hoptions, hanalysis, hfound, hplan, htarget, rfl⟩ :=
    Source.intent?_eq_ok_iff.1 hi
  obtain rfl : own? = some own := hown
  rw [ownComment_eq_ok_iff happ] at hfound
  cases h with
  | @updated _ _ id _ hid edit hedit =>
    have shown : shownId? own = some id.display := by rw [shownId?, hid]; rfl
    have edits : Edits (.text text) own (edit own) := hedit own (isBy_of_firstOfApp hfound).1 shown
    have found :
        ownComment app (comments.map fun c => if shownId? c = some id.display then edit c else c) =
        .ok (some (edit own)) := by
      rw [ownComment_eq_ok_iff happ, firstOfApp_map, hfound]
      · simp [Except.map, shown]
      · intro c hc
        split
        · next hshown => exact commentApp_of_edits hshown (hedit c hc hshown)
        · rfl
    refine ⟨edit own, Source.intent?_eq_ok_iff.2 ⟨options, analysis, some (edit own),
      plan, hoptions, hanalysis, found, hplan, checkTarget_of_get? (edits.id.trans hid), rfl⟩, ?_⟩
    have same : shownId? (edit own) = some id.display := by rw [shownId?, edits.id, hid]; rfl
    rw [List.forall_mem_map, same]
    intro c hc
    split
    · next hshown => exact fun _ => (hedit c hc hshown).body
    · next hshown => exact fun h => absurd h hshown

/-- After the comment of the app is created, it is meant to be updated. -/
theorem intent?_of_created [CharNames] {intent : Intent} {own id : Value}
    (happ : app.identifier = .int t.app) (hi : source.intent? app request comments = .ok intent)
    (hown : intent.own? = none) (hby : IsBy (.int t.app) own) (hid : own.get? "id" = some id) :
    0 < intent.total ∧ source.intent? app request (comments ++ [own]) =
      .ok { intent with own? := some own } ∨
    intent.total = 0 ∧ ∃ post, intent.plan = .ofNothing post false ∧
      source.intent? app request (comments ++ [own]) = .ok ⟨0, .ofNothing post true, some own⟩ := by
  obtain ⟨options, analysis, own?, plan, hoptions, hanalysis, hfound, hplan, htarget, rfl⟩ :=
    Source.intent?_eq_ok_iff.1 hi
  obtain rfl : own? = none := hown
  have found : ownComment app (comments ++ [own]) = .ok (some own) := by
    rw [ownComment_eq_ok_iff happ] at hfound ⊢
    exact firstOfApp_append hfound hby
  obtain ⟨hpos, -⟩ | ⟨hzero, rfl⟩ := make_cases hplan
  · rw [make_eq_of_pos hpos _ true] at hplan
    exact .inl ⟨hpos, Source.intent?_eq_ok_iff.2 ⟨options, analysis, some own, plan, hoptions,
      hanalysis, found, hplan, checkTarget_of_get? hid, rfl⟩⟩
  · have replanned : Plan.make request options analysis true =
        .ok (.ofNothing options.postComment true) := by
      unfold Plan.make Analysis.hasItems
      rw [if_neg (by simp [hzero])]
    exact .inr ⟨hzero, options.postComment, rfl,
      Source.intent?_eq_ok_iff.2 ⟨options, analysis, some own, _, hoptions, hanalysis, found,
        replanned, checkTarget_of_get? hid, by rw [hzero]⟩⟩

/-- After a second run, the verdict and what the comments say are as after the first one. -/
structure Unchanged (v w : Verdict) (later final : List Value) : Prop where
  verdict : w = v
  comments : List.Forall₂ Alike later final

/-- A first run without action items has created the comment of the app, and a second one has
resolved it. -/
structure Resolved (t : Thread) (v w : Verdict) (comments later final : List Value) : Prop where
  first : v = .passing Report.noItemsTitle
  second : w = .passing Report.resolvedTitle
  comment : ∃ own own', later = comments ++ [own] ∧ final = comments ++ [own'] ∧
    IsBy (.int t.app) own ∧ own.get? "body" = some (.text (withFooter Report.noItemsTitle)) ∧
    own'.get? "body" = some (.text (withFooter Report.resolvedTitle))

theorem Writes.of_created {own : Value} {text : String}
    (h : Writes t (some own) (some text) (comments ++ [own]) final)
    (fresh : ∀ other ∈ comments, shownId? other ≠ shownId? own) :
    ∃ own', final = comments ++ [own'] ∧ own'.get? "body" = some (.text text) := by
  cases h with
  | @updated _ _ id _ hid edit hedit =>
    have shown : shownId? own = some id.display := by rw [shownId?, hid]; rfl
    refine ⟨edit own, ?_, (hedit own (by simp) shown).body⟩
    rw [List.map_append, List.map_singleton, if_pos shown]
    refine congrArg (· ++ [edit own]) ((List.map_congr_left fun c hc => if_neg ?_).trans
      (List.map_id _))
    exact shown ▸ fresh c hc

theorem Leaves.eq {intent? : Except Failure Intent} (h : Leaves t intent? comments later)
    (hnone : ∀ intent, intent? = .ok intent → intent.plan.comment? = none) : later = comments := by
  cases intent? with
  | error f => exact h
  | ok intent =>
    unfold Leaves at h
    dsimp only at h
    rw [hnone intent rfl] at h
    generalize intent.own? = own? at h
    cases h
    rfl

/-- **What is meant the second time** is what was meant the first time, unless there were no action
items and the comment was created. -/
theorem leaves_again [CharNames] {first second : Except Failure Intent}
    (happ : app.identifier = .int t.app) (hfirst : source.intent? app request comments = first)
    (hsecond : source.intent? app request later = second) (hlater : Leaves t first comments later)
    (hfinal : Leaves t second later final)
    (hnew : ∀ own, later = comments ++ [own] → ∃ id, own.get? "id" = some id) :
    (outcomeOf first ≠ .completed 0 (some .created) →
        Unchanged (verdictOf first) (verdictOf second) later final) ∧
      (outcomeOf first = .completed 0 (some .created) →
        outcomeOf second = .completed 0 (some .updated) ∧
        Resolved t (verdictOf first) (verdictOf second) comments later final) := by
  have unwritten : (∀ intent, first = .ok intent → intent.plan.comment? = none) →
      Unchanged (verdictOf first) (verdictOf second) later final := by
    intro hnone
    obtain rfl := hlater.eq hnone
    obtain rfl : second = first := hsecond.symm.trans hfirst
    obtain rfl := hfinal.eq hnone
    exact ⟨rfl, List.forall₂_same.2 fun c _ => .refl c⟩
  cases first with
  | error f => exact ⟨fun _ => unwritten nofun, nofun⟩
  | ok intent =>
    obtain ⟨total, ⟨comment?, verdict⟩, own?⟩ := intent
    unfold Leaves at hlater
    dsimp only at hlater
    cases hlater with
    | nothing => exact ⟨fun _ => unwritten (by rintro _ ⟨⟩; rfl), nofun⟩
    | @updated text own id _ hid edit hedit =>
      -- the comment has the text already
      obtain ⟨own', hagain, hbody⟩ := intent?_of_updated happ hfirst rfl (.updated hid edit hedit)
      obtain rfl := hsecond.symm.trans hagain
      exact ⟨fun _ => ⟨rfl, Writes.alike hfinal hbody⟩, nofun⟩
    | created own hby hbody fresh =>
      obtain ⟨id, hid⟩ := hnew own rfl
      obtain ⟨hpos, hagain⟩ | ⟨hzero, post, hplan, hagain⟩ :=
        intent?_of_created happ hfirst rfl hby hid
      · -- action items: the comment has the text already
        obtain rfl := hsecond.symm.trans hagain
        refine ⟨fun _ => ⟨rfl, Writes.alike hfinal ?_⟩, fun h => ?_⟩
        · rw [List.forall_mem_append, List.forall_mem_singleton]
          exact ⟨fun c hc h => absurd h (fresh c hc), fun _ => hbody⟩
        · obtain rfl : total = 0 := by cases h; rfl
          exact absurd hpos (Nat.lt_irrefl 0)
      · -- none: the comment is resolved
        cases hzero
        obtain ⟨hcomment, rfl⟩ := Plan.mk.inj hplan
        cases post with
        | always =>
          obtain rfl := Option.some.inj hcomment
          obtain rfl := hsecond.symm.trans hagain
          obtain ⟨own', rfl, hbody'⟩ := Writes.of_created hfinal fresh
          exact ⟨fun h => absurd rfl h, fun _ => ⟨rfl, rfl, rfl, own, own', rfl, rfl, hby,
            hbody, hbody'⟩⟩
        | _ => cases hcomment

/-! ### Two runs -/

theorem Writes.length_le {own? : Option Value} {text? : Option String}
    (h : Writes t own? text? comments later) : later.length ≤ comments.length + 1 := by
  cases h with
  | nothing => exact Nat.le_succ _
  | created => rw [List.length_append]; exact Nat.le_refl _
  | updated => rw [List.length_map]; exact Nat.le_succ _

theorem Leaves.length_le {intent? : Except Failure Intent} (h : Leaves t intent? comments later) :
    later.length ≤ comments.length + 1 := by
  cases intent? with
  | error f => obtain rfl := h; exact Nat.le_succ _
  | ok intent => exact Writes.length_le h

/-- **A check run that is repeated changes nothing**, if all calls of both runs are answered: the
verdict and what the comments say are as they were after the first run, also if the check run fails
both times. There is one exception: if there are no action items and the first run has created the
comment, which says that none were found, then the second run makes it say that all of them are
resolved, and changes the title of the verdict alike. -/
theorem repeated_run [CharNames] (host : Host σ t) (source : Source) {clock clock' : Clock}
    {session session' : Session} (hopen : session.IsOpen clock) (hopen' : session'.IsOpen clock')
    {pages : Nat} (state : σ) (happ : app.identifier = .int t.app)
    (hrepository : request.repository = t.repository) (hnumber : request.pullRequest = t.number)
    (hpages : (host.comments state).length + 1 < pageSize * pages) {first second : Run σ Outcome}
    (hfirst : first = (run app pages request).run clock host.service session state)
    (hsecond : second = (run app pages request).run clock' host.service session' first.service)
    (htells : ∀ x ∈ first.exchanges, source.Tells x)
    (htells' : ∀ x ∈ second.exchanges, source.Tells x)
    (hnew : ∀ own, host.comments first.service = host.comments state ++ [own] →
      ∃ id, own.get? "id" = some id) :
    first.session = session ∧ second.session = session' ∧
      ∃ v w : Verdict, EndsIn (updateCall request v.fields) first.exchanges ∧
        EndsIn (updateCall request w.fields) second.exchanges ∧
        (first.result ≠ .completed 0 (some .created) →
          Unchanged v w (host.comments first.service) (host.comments second.service)) ∧
        (first.result = .completed 0 (some .created) →
          second.result = .completed 0 (some .updated) ∧
          Resolved t v w (host.comments state) (host.comments first.service)
            (host.comments second.service)) := by
  obtain ⟨hsession, hresult, hleaves, hends⟩ :=
    run_of_tells host source hopen hrepository hnumber (Nat.lt_of_succ_lt hpages) hfirst htells
  have hpages' : (host.comments first.service).length < pageSize * pages :=
    Nat.lt_of_le_of_lt hleaves.length_le hpages
  obtain ⟨hsession', hresult', hleaves', hends'⟩ :=
    run_of_tells host source hopen' hrepository hnumber hpages' hsecond htells'
  rw [hresult, hresult']
  exact ⟨hsession, hsession', _, _, hends, hends', leaves_again happ rfl rfl hleaves hleaves' hnew⟩

/-! ### A pull request without action items -/

/-- A pull request without action items, by what the app has said about it: nothing, that none were
found, or that all are resolved. -/
inductive Round where
  | before
  | once
  | twice
deriving DecidableEq

namespace Round

/-- The comment of the app with a text. -/
def own (text : String) : Value :=
  .object [("id", .int 2), ("performed_via_github_app", .object [("id", .int 7)]),
    ("body", .text text)]

/-- What the app says if there are no action items. -/
def found : String := withFooter Report.noItemsTitle

/-- What the app says if there are none any more. -/
def resolved : String := withFooter Report.resolvedTitle

/-- The comments in a round. -/
def kept : Round → List Value
  | before => []
  | once => [own found]
  | twice => [own resolved]

/-- The page with the comment of the app under a title. -/
def pageWith (title : String) : List UInt8 :=
  Bytes.encode ("[\x7b\"id\": 2, \"performed_via_github_app\": \x7b\"id\": 7\x7d, \"body\": \"" ++
    title ++
    "\\n----\\nThis comment is kept up to date every time the check runs.\"\x7d]")

/-- The page of the comments. -/
def page : Round → List UInt8
  | before => Bytes.encode "[]"
  | once => pageWith Report.noItemsTitle
  | twice => pageWith Report.resolvedTitle

theorem readDocument_page (round : Round) :
    readDocument round.page = .ok (.list (pageOf round.kept 1)) := by
  refine Except.eq_ok_of_toOption ?_
  cases round <;> decide +kernel

/-- An empty object. -/
def empty : List UInt8 := Bytes.encode "\x7b\x7d"

theorem readDocument_empty : readDocument empty = .ok (.map []) :=
  Except.eq_ok_of_toOption (by decide +kernel)

variable (file : List UInt8)

/-- What the repository has: a file with options, and no changes. -/
def repository : Source := ⟨"", fun _ => fileOutcome (.ok file)⟩

/-- The replies in a round. The app's comment is taken if it has the text that is due; other calls
about comments are lost. -/
def replies : Service Round := fun round call =>
  match call.action with
  | .fetchDiff _ => (.answer 200 [] [], round)
  | .fetchFile .. => (.answer 200 [] file, round)
  | .listComments _ 1 => (.answer 200 [] round.page, round)
  | .createComment number (.text text) =>
    if call.repository = "o/r" ∧ number.display = "5" ∧ text = found ∧ round = .before then
      (.answer 201 [] empty, .once)
    else (noReply, round)
  | .updateComment id (.text text) =>
    if call.repository = "o/r" ∧ id.display = "2" ∧ text = resolved ∧ round ≠ .before then
      (.answer 200 [] empty, .twice)
    else (noReply, round)
  | .createCheckRun .. => (.answer 200 [] empty, round)
  | .updateCheckRun .. => (.answer 200 [] empty, round)
  | _ => (noReply, round)

/-- The host with this pull request. -/
def pullRequest : Host Round ⟨"o/r", 5, 7⟩ where
  service := replies file
  comments := kept
  serves := by
    have lost : Fails noReply := fun now => ⟨_, rfl⟩
    rintro round ⟨repository, action⟩
    unfold replies
    dsimp only
    split
    · exact .other (by simp [Concerns])
    · exact .other (by simp [Concerns])
    · next number =>
      by_cases hhere : repository = "o/r" ∧ number.display = (Value.int 5).display
      · obtain ⟨rfl, hnumber⟩ := hhere
        exact .listed hnumber ⟨200, [], _, rfl, rfl, rfl, rfl, readDocument_page round⟩
      · exact .other hhere
    · next number text =>
      split
      · next h =>
        obtain ⟨rfl, hnumber, rfl, rfl⟩ := h
        exact .created (own found) hnumber
          ⟨.int 7, commentApp_of_get? rfl rfl, by decide +kernel⟩ rfl (by simp [kept])
      · exact .failed lost
    · next id text =>
      split
      · next h =>
        obtain ⟨rfl, hid, rfl, commented⟩ := h
        have edited : kept .twice = (kept round).map fun c =>
            if shownId? c = some id.display then own resolved else c := by
          rw [hid]
          cases round with
          | before => exact absurd rfl commented
          | _ => rfl
        rw [edited]
        refine .updated (fun _ => own resolved) fun c hc _ => ?_
        cases round with
        | before => cases hc
        | _ =>
          obtain rfl := List.mem_singleton.1 hc
          exact ⟨rfl, rfl, rfl⟩
      · exact .failed lost
    · exact .other (by simp [Concerns])
    · exact .other (by simp [Concerns])
    · exact .failed lost

variable {file : List UInt8}

/-- What is answered tells what the repository has. -/
theorem tells_of_isAnswer {round : Round} {x : Exchange}
    (hx : x.reply = (replies file round x.call).1) (h : x.reply.isAnswer = true) :
    (repository file).Tells x := by
  obtain ⟨⟨name, action⟩, token, reply, time⟩ := x
  obtain rfl : reply = (replies file round ⟨name, action⟩).1 := hx
  unfold replies at h ⊢
  dsimp only at h ⊢
  split at h
  · exact ⟨⟨rfl, rfl⟩, rfl⟩
  · exact ⟨⟨rfl, rfl⟩, rfl⟩
  · exact ⟨⟨rfl, rfl⟩, _, readDocument_page round⟩
  · split at h
    · next hhere =>
      rw [if_pos hhere]
      exact ⟨⟨rfl, rfl⟩, _, readDocument_empty⟩
    · cases h
  · split at h
    · next hhere =>
      rw [if_pos hhere]
      exact ⟨⟨rfl, rfl⟩, _, readDocument_empty⟩
    · cases h
  · exact ⟨⟨rfl, rfl⟩, _, readDocument_empty⟩
  · exact ⟨⟨rfl, rfl⟩, _, readDocument_empty⟩
  · cases h

theorem tells_of_all [CharNames] {clock : Clock} {session : Session} {request : CheckRequest}
    {pages : Nat} {round : Round} {r : Run Round Outcome}
    (hr : r = (run app pages request).run clock (replies file) session round)
    (h : r.exchanges.all (·.reply.isAnswer) = true) :
    ∀ x ∈ r.exchanges, (repository file).Tells x := by
  subst hr
  intro x hx
  obtain ⟨round, hreply⟩ := Program.exists_reply_of_mem hx
  exact tells_of_isAnswer hreply (List.all_eq_true.1 h x hx)

end Round

theorem endsIn_of_getLast? {call : Call} {xs : List Exchange}
    (h : xs.getLast?.map (·.call) = some call) : EndsIn call xs := by
  obtain ⟨x, hx, rfl⟩ := Option.map_eq_some_iff.1 h
  exact ⟨xs.dropLast, x, (List.dropLast_append_getLast? x hx).symm, rfl⟩

theorem eq_completed_of_comment? {o : Outcome} {action : CommentAction}
    (h : o.comment? = some action) : o = .completed o.total (some action) := by
  cases o with
  | completed items action? => exact congrArg (Outcome.completed items) h
  | broken failure => cases h

attribute [local instance] CharNames.ascii

namespace Round

/-- The file of a repository where a comment is always wanted. -/
def always : List UInt8 :=
  Bytes.encode "\x7b\"content\": \"dG9kby1wci1jaGVja2VyOgogIHBvc3RfY29tbWVudDogYWx3YXlzCg==\"\x7d"

/-- A check run in such a repository. -/
def checked (round : Round) : Run Round Outcome :=
  (run ⟨.int 7, .text "app"⟩ 1 ⟨"o/r", 5, "abc", 99⟩).run (fun n => ⟨n⟩) (replies always)
    { tokens := .fixed "t" } round

/-- The title that a check run ends with in a round, what it does with the comment, and the round
that it leaves. -/
def following : Round → String × CommentAction × Round
  | before => (Report.noItemsTitle, .created, once)
  | once | twice => (Report.resolvedTitle, .updated, twice)

theorem checked_spec (round : Round) : let r := checked round
    r.exchanges.all (·.reply.isAnswer) = true ∧ r.exchanges.getLast?.map (·.call) =
      some (updateCall ⟨"o/r", 5, "abc", 99⟩ (Verdict.passing round.following.1).fields) ∧
    r.result.comment? = some round.following.2.1 ∧ r.result.total = 0 ∧
    r.service = round.following.2.2 := by
  cases round <;> decide +kernel

theorem result_checked (round : Round) :
    (checked round).result = .completed 0 (some round.following.2.1) := by
  obtain ⟨-, -, hcomment, htotal, -⟩ := checked_spec round
  rw [eq_completed_of_comment? hcomment, htotal]

theorem isOpen : Session.IsOpen { tokens := .fixed "t" } fun n => ⟨n⟩ := ⟨⟨"t", rfl⟩, fun _ => rfl⟩

end Round

/-- **Three check runs** in a repository where a comment is always wanted: the first one creates it,
the second one resolves it, and the third one changes nothing. -/
theorem repeated_run_resolved :
    let request : CheckRequest := ⟨"o/r", 5, "abc", 99⟩
    let first := Round.checked .before
    let second := Round.checked first.service
    let third := Round.checked second.service
    first.result = .completed 0 (some .created) ∧ second.result = .completed 0 (some .updated) ∧
      (∃ v w : Verdict, EndsIn (updateCall request v.fields) first.exchanges ∧
        EndsIn (updateCall request w.fields) second.exchanges ∧
        Resolved ⟨"o/r", 5, 7⟩ v w [] (Round.kept first.service) (Round.kept second.service)) ∧
      ∃ v w : Verdict, EndsIn (updateCall request v.fields) second.exchanges ∧
        EndsIn (updateCall request w.fields) third.exchanges ∧
        Unchanged v w (Round.kept second.service) (Round.kept third.service) := by
  intro request first second third
  have result : first.result = .completed 0 (some .created) := Round.result_checked .before
  have service : first.service = .once := (Round.checked_spec .before).2.2.2.2
  have result' : second.result = .completed 0 (some .updated) := by
    show (Round.checked first.service).result = _
    rw [service]
    exact Round.result_checked .once
  have service' : second.service = .twice := by
    show (Round.checked first.service).service = _
    rw [service]
    exact (Round.checked_spec .once).2.2.2.2
  have tells (round : Round) : ∀ x ∈ (Round.checked round).exchanges,
      (Round.repository Round.always).Tells x :=
    Round.tells_of_all rfl (Round.checked_spec round).1
  have new : ∀ own, Round.kept first.service = Round.kept .before ++ [own] →
      ∃ id, own.get? "id" = some id := by
    intro own h
    rw [service] at h
    cases h
    exact ⟨.int 2, rfl⟩
  have old : ∀ own, Round.kept second.service = Round.kept first.service ++ [own] →
      ∃ id, own.get? "id" = some id := by
    intro own h
    rw [service, service'] at h
    cases h
  obtain ⟨-, -, v, w, hends, hends', -, hresolved⟩ := repeated_run (Round.pullRequest Round.always)
    (Round.repository Round.always) Round.isOpen Round.isOpen Round.before rfl rfl rfl
      (by decide) rfl rfl
    (tells _) (tells _) new
  obtain ⟨-, -, v', w', hagain, hagain', hunchanged, -⟩ :=
    repeated_run (Round.pullRequest Round.always)
    (Round.repository Round.always) Round.isOpen Round.isOpen first.service rfl rfl rfl
    (by show (Round.kept first.service).length + 1 < _; rw [service]; decide) rfl rfl (tells _)
      (tells _) old
  refine ⟨result, result', ⟨v, w, hends, hends', (hresolved result).2⟩, v', w', hagain, hagain',
    hunchanged ?_⟩
  show second.result ≠ _
  rw [result']
  nofun

/-- **A check run that is repeated can change something**, in a repository where a comment is always
wanted: its comment and the title of its verdict. -/
theorem resolved_by_second_run :
    let first := Round.checked .before
    let second := Round.checked first.service
    (∀ x ∈ first.exchanges ++ second.exchanges, (Round.repository Round.always).Tells x) ∧
      EndsIn (updateCall ⟨"o/r", 5, "abc", 99⟩ (Verdict.passing Report.noItemsTitle).fields)
        first.exchanges ∧
      EndsIn (updateCall ⟨"o/r", 5, "abc", 99⟩ (Verdict.passing Report.resolvedTitle).fields)
        second.exchanges ∧
      (Round.pullRequest Round.always).comments first.service = [Round.own Round.found] ∧
      (Round.pullRequest Round.always).comments second.service = [Round.own Round.resolved] ∧
      Report.noItemsTitle ≠ Report.resolvedTitle ∧ Round.found ≠ Round.resolved := by
  intro first second
  obtain ⟨hanswers, hends, -, -, hservice⟩ := Round.checked_spec .before
  have again : second = Round.checked .once := congrArg Round.checked hservice
  obtain ⟨hanswers', hends', -, -, hservice'⟩ := Round.checked_spec .once
  rw [← again] at hanswers' hends' hservice'
  refine ⟨?_, endsIn_of_getLast? hends, endsIn_of_getLast? hends', congrArg Round.kept hservice,
    congrArg Round.kept hservice', by decide +kernel, by decide +kernel⟩
  rw [List.forall_mem_append]
  exact ⟨Round.tells_of_all rfl hanswers, Round.tells_of_all rfl hanswers'⟩

end ActionItems.CheckRun
