import ActionItems.Proofs.CheckRun.Host

/-!
# One comment on a pull request

Whatever happens to a pull request, check runs of an app leave one comment of it there at most.
`Reaches` is a history of the comments that a host keeps: check runs, comments of others in between,
and changes of anything else. At any time the comments are those of others with at most one of the
app among them, under an identifier that no other comment has (`Keeps`). A check run finds that
comment wherever it stands, so it updates it if it is there and creates it only if it is not
(`keeps_of_trace`); and what a run reports to have written is the text that it made of its findings
(`Produces`).

`one_comment` is the main result.
-/

namespace ActionItems.CheckRun

open ActionItems.GitHub
open ActionItems.Webhook (CheckRequest)

instance (app comment : Value) : Decidable (IsBy app comment) :=
  match h : commentApp comment with
  | .ok made => decidable_of_iff (made.same app = true) (by simp [IsBy, h])
  | .error _ => .isFalse (by simp [IsBy, h])

variable {t : Thread} {request : CheckRequest} {app : App} {pages : Nat}
  {others comments later : List Value} {own? : Option Value} {xs : List Exchange}
  {outcome : Outcome}

/-! ### Comments of others and of the app -/

/-- The comments on a pull request: those of others and perhaps one of the app, which is named
apart. -/
inductive Keeps (t : Thread) : List Value → List Value → Option Value → Prop
  | without {others : List Value} (hothers : ∀ c ∈ others, ¬ IsBy (.int t.app) c) :
    Keeps t others others none
  | among {before after : List Value} {own : Value} (hown : IsBy (.int t.app) own)
    (hothers : ∀ c ∈ before ++ after, ¬ IsBy (.int t.app) c)
    (hid : ∀ c ∈ before ++ after, shownId? c ≠ shownId? own) :
    Keeps t (before ++ after) (before ++ own :: after) (some own)

theorem Keeps.countP_le (h : Keeps t others comments own?) :
    comments.countP (fun c => decide (IsBy (.int t.app) c)) ≤ 1 := by
  have none : ∀ l : List Value, (∀ c ∈ l, ¬ IsBy (.int t.app) c) →
      l.countP (fun c => decide (IsBy (.int t.app) c)) = 0 := by
    intro l hl
    exact List.countP_eq_zero.2 fun c hc hby => hl c hc (of_decide_eq_true hby)
  cases h with
  | without hothers => rw [none _ hothers]; exact Nat.zero_le 1
  | among hown hothers hid =>
    rw [List.forall_mem_append] at hothers
    rw [List.countP_append, List.countP_cons, none _ hothers.1, none _ hothers.2,
      decide_eq_true hown]
    exact Nat.le_refl 1

theorem Keeps.filter_eq (h : Keeps t others comments own?) :
    comments.filter (fun c => decide (¬ IsBy (.int t.app) c)) = others := by
  have all : ∀ l : List Value, (∀ c ∈ l, ¬ IsBy (.int t.app) c) →
      l.filter (fun c => decide (¬ IsBy (.int t.app) c)) = l := by
    intro l hl
    exact List.filter_eq_self.2 fun c hc => decide_eq_true (hl c hc)
  cases h with
  | without hothers => exact all _ hothers
  | @among before after own hown hothers hid =>
    rw [List.forall_mem_append] at hothers
    rw [List.filter_append, List.filter_cons_of_neg (by simp [hown]), all _ hothers.1,
      all _ hothers.2]

theorem Keeps.eq_of_firstOfApp (h : Keeps t others comments own?) {found? : Option Value}
    (hfound : firstOfApp (.int t.app) comments = .ok found?) : found? = own? := by
  cases h with
  | without hothers =>
    cases found? with
    | none => rfl
    | some found =>
      obtain ⟨hmem, hby⟩ := isBy_of_firstOfApp hfound
      exact absurd hby (hothers found hmem)
  | @among before after own hown hothers hid =>
    cases found? with
    | none => exact absurd hown (not_isBy_of_firstOfApp hfound own (by simp))
    | some found =>
      obtain ⟨hmem, hby⟩ := isBy_of_firstOfApp hfound
      rcases List.mem_append.1 hmem with hmem | hmem
      · exact absurd hby (hothers found (List.mem_append_left _ hmem))
      rcases List.mem_cons.1 hmem with rfl | hmem
      · rfl
      · exact absurd hby (hothers found (List.mem_append_right _ hmem))

theorem Keeps.add (h : Keeps t others comments own?) {comment : Value}
    (hby : ¬ IsBy (.int t.app) comment) (fresh : ∀ c ∈ comments, shownId? c ≠ shownId? comment) :
    Keeps t (others ++ [comment]) (comments ++ [comment]) own? := by
  cases h with
  | without hothers =>
    refine .without ?_
    rw [List.forall_mem_append, List.forall_mem_singleton]
    exact ⟨hothers, hby⟩
  | @among before after own hown hothers hid =>
    rw [List.append_assoc, List.append_assoc]
    have new : shownId? comment ≠ shownId? own := (fresh own (by simp)).symm
    refine .among hown ?_ ?_
    · rw [← List.append_assoc, List.forall_mem_append, List.forall_mem_singleton]
      exact ⟨hothers, hby⟩
    · rw [← List.append_assoc, List.forall_mem_append, List.forall_mem_singleton]
      exact ⟨hid, new⟩

theorem Keeps.create (h : Keeps t others comments none) {comment : Value}
    (hby : IsBy (.int t.app) comment) (fresh : ∀ c ∈ comments, shownId? c ≠ shownId? comment) :
    Keeps t others (comments ++ [comment]) (some comment) := by
  cases h with
  | without hothers =>
    have last : Keeps t (others ++ []) (others ++ [comment]) (some comment) :=
      .among hby (by simpa using hothers) (by simpa using fresh)
    rwa [List.append_nil] at last

theorem Edits.isBy_iff {body before after : Value} (h : Edits body before after) :
    IsBy (.int t.app) after ↔ IsBy (.int t.app) before := by
  rw [isBy_int_iff, isBy_int_iff, h.app]

theorem Keeps.edit {own id body : Value} (h : Keeps t others comments (some own))
    (hid : own.get? "id" = some id) {edit : Value → Value}
    (hedit : ∀ c ∈ comments, shownId? c = some id.display → Edits body c (edit c)) :
    Keeps t others (comments.map fun c => if shownId? c = some id.display then edit c else c)
      (some (edit own)) ∧ (edit own).get? "body" = some body := by
  have shown : shownId? own = some id.display := by rw [shownId?, hid]; rfl
  have same : ∀ l : List Value, (∀ c ∈ l, shownId? c ≠ shownId? own) →
      l.map (fun c => if shownId? c = some id.display then edit c else c) = l := by
    intro l hl
    rw [← shown]
    conv_rhs => rw [← List.map_id l]
    exact List.map_congr_left fun c hc => if_neg (hl c hc)
  cases h with
  | @among before after own hown hothers hfresh =>
    have edits : Edits body own (edit own) := hedit own (by simp) shown
    rw [List.forall_mem_append] at hfresh
    rw [List.map_append, List.map_cons, same _ hfresh.1, same _ hfresh.2, if_pos shown]
    refine ⟨.among (edits.isBy_iff.2 hown) hothers ?_, edits.body⟩
    have unchanged : shownId? (edit own) = shownId? own := by rw [shownId?, edits.id]; rfl
    rw [unchanged, List.forall_mem_append]
    exact hfresh

/-! ### A check run -/

/-- A check run that is over. -/
structure Finished where
  request : CheckRequest
  exchanges : List Exchange
  outcome : Outcome

/-- The text that a check run makes for the comment of an app, from what it has found out. -/
def Produces [CharNames] (app : Value) (last : Finished) (text : String) : Prop :=
  ∃ before rest f analysis own? plan, last.exchanges = before ++ rest ∧
    Gathers last.request before f ∧ analyze f.options f.diff = .ok analysis ∧
    firstOfApp app f.comments = .ok own? ∧
    Plan.make last.request f.options analysis own?.isSome = .ok plan ∧ plan.comment? = some text

/-- What a check run finds out about the comments is what the host has. -/
theorem Gathers.comments_eq {f : Findings} (h : Gathers request xs f)
    (hrepository : request.repository = t.repository) (hnumber : request.pullRequest = t.number)
    (hs : ServesAll t comments xs later) : f.comments = comments ∧ later = comments := by
  have whole := hs.eq_of_not_writes fun x hx => (h.isQuiet x hx).1
  obtain ⟨hstart, hfiles, -, hfetch, -, hpages⟩ := h
  rename_i start fetch files pages text?
  have quiet : ∀ x ∈ start :: (files ++ [fetch]), ¬ WritesComment x.call := by
    rw [List.forall_mem_cons, List.forall_mem_append, List.forall_mem_singleton, hstart, hfetch]
    exact ⟨id, fun x hx => (hfiles.isQuiet x hx).1, id⟩
  rw [show start :: (files ++ fetch :: pages) = start :: (files ++ [fetch]) ++ pages by simp] at hs
  obtain ⟨mid, hread, hlist⟩ := hs.of_append
  rw [hread.eq_of_not_writes quiet] at hlist
  rw [hrepository, hnumber] at hpages
  exact ⟨hpages.eq_comments hlist, whole⟩

/-- The call that writes the comment of the app gives it the text, or fails and changes nothing. -/
theorem keeps_of_writeCall {text : String} {w : Exchange}
    (hrepository : request.repository = t.repository) (hnumber : request.pullRequest = t.number)
    (hkeeps : Keeps t others comments own?) (hcall : writeCall? request own? text = some w.call)
    (hs : Serves t comments w.call w.reply later) :
    (∃ own, Keeps t others later (some own) ∧ own.get? "body" = some (.text text)) ∨
      Keeps t others later own? ∧ Fails w.reply := by
  obtain ⟨c, token, reply, time⟩ := w
  dsimp only at hcall hs ⊢
  unfold writeCall? at hcall
  rw [hrepository, hnumber] at hcall
  cases own? with
  | none =>
    cases hcall
    cases hs with
    | created comment hnumber happ hbody fresh =>
      exact .inl ⟨comment, hkeeps.create happ fresh, hbody⟩
    | other h => exact absurd ⟨rfl, rfl⟩ h
    | failed h => exact .inr ⟨hkeeps, h⟩
  | some own =>
    obtain ⟨id, hid, rfl⟩ := Option.map_eq_some_iff.1 hcall
    cases hs with
    | updated edit hedit => exact .inl ⟨edit own, hkeeps.edit hid hedit⟩
    | other h => exact absurd ⟨rfl, trivial⟩ h
    | failed h => exact .inr ⟨hkeeps, h⟩

/-- A plan that is written leaves at most one comment of the app. If nothing fails, it is there with
the text of the plan, if the plan has one. -/
theorem keeps_of_write {plan : Plan} {r : Except Failure (Option CommentAction)}
    (hrepository : request.repository = t.repository) (hnumber : request.pullRequest = t.number)
    (hkeeps : Keeps t others comments own?) (h : Task.Trace (plan.write request own?) xs r)
    (hs : ServesAll t comments xs later) :
    ∃ own'?, Keeps t others later own'? ∧ ∀ action, r = .ok (some action) →
      ∃ own text, own'? = some own ∧
      own.get? "body" = some (.text text) ∧ plan.comment? = some text := by
  obtain ⟨ws, us, rfl, hws, hus, hok⟩ := write_cases h
  obtain ⟨mid, hcomment, hverdict⟩ := hs.of_append
  have verdict : ∀ u ∈ us, ¬ WritesComment u.call := by
    obtain rfl | ⟨u, rfl, hu⟩ := hus
    · simp
    · rw [List.forall_mem_singleton, hu]
      exact id
  rw [hverdict.eq_of_not_writes verdict]
  cases hws with
  | nothing =>
    cases hcomment
    refine ⟨own?, hkeeps, fun action hr => ?_⟩
    obtain ⟨-, haction, hnothing, -⟩ := hok _ hr
    rw [hnothing rfl] at haction
    cases haction
  | @made text w htext hcall =>
    obtain ⟨own, hkeeps', hbody⟩ | ⟨hkeeps', hfails⟩ :=
      keeps_of_writeCall hrepository hnumber hkeeps hcall hcomment.of_singleton
    · exact ⟨some own, hkeeps', fun action hr => ⟨own, text, rfl, hbody, htext⟩⟩
    · refine ⟨own?, hkeeps', fun action hr => ?_⟩
      obtain ⟨-, -, -, hreplies⟩ := hok _ hr
      obtain ⟨v, hv⟩ := hreplies w (List.mem_singleton_self w)
      obtain ⟨f, hf⟩ := hfails w.time
      rw [documentOutcome, Exchange.outcome, hf] at hv
      cases hv

/-- **A check run keeps the comments of others and one of the app at most.** If it reports to have
written the comment, it has the text that the run has produced. -/
theorem keeps_of_trace [CharNames] (happ : app.identifier = .int t.app)
    (hrepository : request.repository = t.repository) (hnumber : request.pullRequest = t.number)
    (hpages : comments.length < pageSize * pages) (hkeeps : Keeps t others comments own?)
    (h : (run app pages request).Trace xs outcome) (hs : ServesAll t comments xs later) :
    ∃ own'?, Keeps t others later own'? ∧
      (outcome.comment?.isSome = true → ∃ own text, own'? = some own ∧
      own.get? "body" = some (.text text) ∧
      Produces (.int t.app) ⟨request, xs, outcome⟩ text) := by
  obtain ⟨ys, zs, c, rfl, hcarry, hend⟩ := run_cases h
  obtain ⟨mid, hys, hzs⟩ := hs.of_append
  rw [hzs.eq_of_not_writes (not_writes_of_report hend)]
  obtain ⟨e, rfl, quiet⟩ |
    ⟨before, after, f, analysis, found?, plan, r, rfl, hgathers, hanalysis, hfound, hplan,
      hwrite, rfl⟩ :=
      carryOut_cases hcarry (not_cutShort_of_serves hrepository hnumber hys hpages)
  · -- a failure while reading
    rw [hys.eq_of_not_writes fun x hx => (quiet x hx).1]
    refine ⟨own?, hkeeps, fun hreported => ?_⟩
    obtain ⟨hc, -⟩ | ⟨f, -, rfl, -⟩ := hend
    · cases hc
    · cases hreported
  obtain ⟨seen, hread, hwritten⟩ := hys.of_append
  obtain ⟨hcomments, rfl⟩ := hgathers.comments_eq hrepository hnumber hread
  rw [happ] at hfound
  rw [filter_of_firstOfApp hfound] at hwrite hplan
  have same : found? = own? := hkeeps.eq_of_firstOfApp (hcomments ▸ hfound)
  rw [same] at hwrite
  obtain ⟨own'?, hkeeps', hbody⟩ := keeps_of_write hrepository hnumber hkeeps hwrite hwritten
  refine ⟨own'?, hkeeps', fun hreported => ?_⟩
  have written : ∃ action, r = .ok (some action) := by
    obtain ⟨hc, -⟩ | ⟨f, -, rfl, -⟩ := hend
    · cases r with
      | error e => cases hc
      | ok action? =>
        cases hc
        obtain ⟨action, rfl⟩ := Option.isSome_iff_exists.1 hreported
        exact ⟨action, rfl⟩
    · cases hreported
  obtain ⟨action, hr⟩ := written
  obtain ⟨own, text, hown, hbody, htext⟩ := hbody action hr
  exact ⟨own, text, hown, hbody, before, after ++ zs, f, analysis, found?, plan, by simp, hgathers,
    hanalysis, hfound, hplan, htext⟩

/-! ### Histories -/

variable {σ : Type} {host : Host σ t}

/-- The histories of a pull request on a host: the comments of others in order, the state of the
host, and the last check run that is over. -/
inductive Reaches [CharNames] (host : Host σ t) : List Value → σ → Option Finished → Prop
  /-- The app has no comment at first. -/
  | start {state : σ} (hothers : ∀ c ∈ host.comments state, ¬ IsBy (.int t.app) c) :
    Reaches host (host.comments state) state none
  /-- Somebody else adds a comment. -/
  | added {others : List Value} {state next : σ} {last? : Option Finished}
    (h : Reaches host others state last?) (comment : Value) (hby : ¬ IsBy (.int t.app) comment)
    (fresh : ∀ c ∈ host.comments state, shownId? c ≠ shownId? comment)
    (hnext : host.comments next = host.comments state ++ [comment]) :
    Reaches host (others ++ [comment]) next last?
  /-- Anything else changes: the diff, the files, what else the host keeps. -/
  | changed {others : List Value} {state next : σ} {last? : Option Finished}
    (h : Reaches host others state last?) (hnext : host.comments next = host.comments state) :
    Reaches host others next last?
  /-- A check run is carried out to its end. -/
  | ran {others : List Value} {state : σ} {last? : Option Finished}
    (h : Reaches host others state last?) {clock : Clock} {app : App} {pages : Nat}
    {request : CheckRequest} {session : Session} {r : Run σ Outcome}
    (happ : app.identifier = .int t.app) (hrepository : request.repository = t.repository)
    (hnumber : request.pullRequest = t.number)
    (hpages : (host.comments state).length < pageSize * pages)
    (hr : r = (run app pages request).run clock host.service session state) :
    Reaches host others r.service (some ⟨request, r.exchanges, r.result⟩)

theorem keeps_of_reaches [CharNames] {state : σ} {last? : Option Finished}
    (h : Reaches host others state last?) :
    ∃ own?, Keeps t others (host.comments state) own? ∧
      ∀ last ∈ last?, last.outcome.comment?.isSome = true → ∃ own text, own? = some own ∧
        own.get? "body" = some (.text text) ∧ Produces (.int t.app) last text := by
  induction h with
  | start hothers => exact ⟨none, .without hothers, by simp⟩
  | added h comment hby fresh hnext ih =>
    obtain ⟨own?, hkeeps, hlast⟩ := ih
    exact ⟨own?, hnext ▸ hkeeps.add hby fresh, hlast⟩
  | changed h hnext ih =>
    obtain ⟨own?, hkeeps, hlast⟩ := ih
    exact ⟨own?, hnext ▸ hkeeps, hlast⟩
  | ran h happ hrepository hnumber hpages hr ih =>
    subst hr
    obtain ⟨own?, hkeeps, -⟩ := ih
    obtain ⟨own'?, hkeeps', hbody⟩ := keeps_of_trace happ hrepository hnumber hpages hkeeps
      (Program.trace_run _ host.service _ _ _) (host.servesAll_run _ _ _ _)
    refine ⟨own'?, hkeeps', fun last hlast => ?_⟩
    obtain rfl := Option.mem_some_iff.1 hlast
    exact hbody

/-- **One comment on a pull request.** In any history there is one comment of the app at most, and
those of others are as they were made. If the last check run reports to have created or updated the
comment, it is there with the text that this run has produced. -/
theorem one_comment [CharNames] {state : σ} {last? : Option Finished}
    (h : Reaches host others state last?) :
    (host.comments state).countP (fun c => decide (IsBy (.int t.app) c)) ≤ 1 ∧
      (host.comments state).filter (fun c => decide (¬ IsBy (.int t.app) c)) = others ∧
      ∀ last ∈ last?, last.outcome.comment?.isSome = true →
        ∃ own ∈ host.comments state, IsBy (.int t.app) own ∧
          ∃ text, own.get? "body" = some (.text text) ∧ Produces (.int t.app) last text := by
  obtain ⟨own?, hkeeps, hlast⟩ := keeps_of_reaches h
  refine ⟨hkeeps.countP_le, hkeeps.filter_eq, fun last hmem hreported => ?_⟩
  obtain ⟨own, text, rfl, hbody, hproduces⟩ := hlast last hmem hreported
  generalize host.comments state = comments at hkeeps ⊢
  cases hkeeps with
  | among hown hothers hid => exact ⟨own, by simp, hown, text, hbody, hproduces⟩

/-! ### A pull request with a check run -/

/-- The stages of a pull request: without comments, with one of the app, and with an answer to
it. -/
inductive Stage where
  | empty
  | commented
  | answered
deriving DecidableEq

namespace Stage

/-- What the app says. -/
def text : String :=
  "There is **1** unresolved action item in this Pull Request:\n\n" ++
    "\n## [`f.py`](https://github.com/o/r/blob/abc/f.py) (1 action item):\n" ++
    "https://github.com/o/r/blob/abc/f.py#L1 " ++ Report.footer

/-- The comment of the app. -/
def own : Value :=
  .object [("id", .int 2), ("performed_via_github_app", .object [("id", .int 7)]),
    ("body", .text text)]

/-- The answer of somebody else. -/
def answer : Value := .object [("id", .int 3), ("body", .text "Thanks!")]

/-- The comments at a stage. -/
def kept : Stage → List Value
  | empty => []
  | commented => [own]
  | answered => [own, answer]

/-- A page without comments. -/
def emptyPage : List UInt8 := Bytes.encode "[]"

theorem readDocument_emptyPage : readDocument emptyPage = .ok (.list []) := by
  have checked : (readDocument emptyPage).toOption.map (fun v => (v.kindName, v.isTruthy)) =
      some ("list", false) := by decide +kernel
  cases hread : readDocument emptyPage with
  | error e => rw [hread] at checked; cases checked
  | ok v =>
    rw [hread] at checked
    obtain ⟨kind, empty⟩ : v.kindName = "list" ∧ v.isTruthy = false := by
      simpa [Except.toOption] using checked
    cases v with
    | list items => cases items with
      | nil => rfl
      | cons item items => cases empty
    | cycle => cases empty
    | _ => exact absurd kind (by simp [Value.kindName])

/-- The replies at a stage. As long as there are no comments, the first page is shown and the
comment of the app is taken; other calls about comments are lost. -/
def replies : Service Stage := fun stage call =>
  match stage, call.action with
  | _, .fetchDiff _ =>
    (.answer 200 [] (Bytes.encode "+++ b/f.py\n@@ -0,0 +1 @@\n+# TODO x\n"), stage)
  | _, .fetchFile .. => (.answer 404 [] [], stage)
  | .empty, .listComments _ 1 => (.answer 200 [] emptyPage, .empty)
  | .empty, .createComment number (.text s) =>
    if call.repository = "o/r" ∧ number.display = "5" ∧ s = text then
      (.answer 201 [] (Bytes.encode "\x7b\x7d"), .commented)
    else (noReply, .empty)
  | _, .createCheckRun .. => (.answer 200 [] (Bytes.encode "\x7b\x7d"), stage)
  | _, .updateCheckRun .. => (.answer 200 [] (Bytes.encode "\x7b\x7d"), stage)
  | _, _ => (noReply, stage)

/-- The host with this pull request. -/
def pullRequest : Host Stage ⟨"o/r", 5, 7⟩ where
  service := replies
  comments := kept
  serves := by
    have lost : Fails noReply := fun now => ⟨_, rfl⟩
    rintro stage ⟨repository, action⟩
    unfold replies
    dsimp only
    split
    · exact .other (by simp [Concerns])
    · exact .other (by simp [Concerns])
    · next number =>
      by_cases hhere : repository = "o/r" ∧ number.display = (Value.int 5).display
      · obtain ⟨rfl, hnumber⟩ := hhere
        exact .listed hnumber ⟨200, [], _, rfl, rfl, rfl, rfl, readDocument_emptyPage⟩
      · exact .other hhere
    · next number s =>
      split
      · next h =>
        obtain ⟨rfl, hnumber, rfl⟩ := h
        exact .created own hnumber (by decide +kernel) rfl (by simp [kept])
      · exact .failed lost
    · exact .other (by simp [Concerns])
    · exact .other (by simp [Concerns])
    · exact .failed lost

end Stage

attribute [local instance] CharNames.ascii

/-- A check run creates the comment, and somebody answers. -/
theorem one_comment_created :
    let request : CheckRequest := ⟨"o/r", 5, "abc", 99⟩
    let r :=
      (run ⟨.int 7, .text "app"⟩ 1 request).run (fun n => ⟨n⟩) Stage.replies
        { tokens := .fixed "t" } .empty
    Reaches Stage.pullRequest [Stage.answer] .answered (some ⟨request, r.exchanges, r.result⟩) ∧
      r.result.comment? = some .created ∧
        ∃ own ∈ Stage.kept .answered, IsBy (.int 7) own ∧
          ∃ text, own.get? "body" = some (.text text) ∧
          Produces (.int 7) ⟨request, r.exchanges, r.result⟩ text := by
  intro request r
  obtain ⟨created, commented⟩ : r.result.comment? = some .created ∧ r.service = .commented := by
    decide +kernel
  have started : Reaches Stage.pullRequest (Stage.pullRequest.comments .empty) .empty none :=
    .start (show ∀ c ∈ [], ¬ IsBy (.int 7) c by simp)
  have ran : Reaches Stage.pullRequest [] r.service (some ⟨request, r.exchanges, r.result⟩) :=
    .ran started rfl rfl rfl (show 0 < pageSize * 1 by decide) rfl
  have reaches : Reaches Stage.pullRequest [Stage.answer] .answered
      (some ⟨request, r.exchanges, r.result⟩) := by
    refine .added ran Stage.answer (by decide +kernel) ?_ ?_
    · rw [commented]
      show ∀ c ∈ [Stage.own], shownId? c ≠ shownId? Stage.answer
      decide +kernel
    · rw [commented]
      rfl
  obtain ⟨-, -, written⟩ := one_comment reaches
  exact ⟨reaches, created, written _ rfl (by rw [created]; rfl)⟩

end ActionItems.CheckRun
