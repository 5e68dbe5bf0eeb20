import ActionItems.Proofs.CheckRun.Phases

/-!
# A service that keeps the comments on a pull request

A `Thread` is a pull request with an app that comments on it. A `Host` of a thread is a service
whose replies agree with the comments that it keeps (`Serves`): a page of the listing shows them in
order, a new comment goes to the end under an identifier of its own, and an update changes the body
of the comment it names. A call may also fail, and then it changes nothing. All else about the
service is left open.

A run against a host takes its comments from call to call (`Host.servesAll_run`). Calls that write
no comment leave them (`ServesAll.eq_of_not_writes`), a listing that is complete shows all of them
(`Lists.eq_comments`), and none is cut short if it may read as many pages as there are
(`FullPages.le`).
-/

namespace ActionItems.CheckRun

open ActionItems.GitHub

/-- A pull request of a repository, and an app that comments on it. -/
structure Thread where
  repository : String
  number : Int
  app : Int
deriving Repr, DecidableEq

variable {t : Thread} {now : Instant} {comments later : List Value} {xs ys : List Exchange}

/-! ### Replies about comments -/

/-- A reply that answers with a document and says nothing about limits. -/
def Gives (reply : Reply) (document : Value) : Prop :=
  ∃ status headers body, reply = .answer status headers body ∧ isErrorStatus status = false ∧
    header? Session.remainingHeader headers = none ∧ header? Session.resetHeader headers = none ∧
    readDocument body = .ok document

/-- A reply that comes to nothing. -/
def Fails (reply : Reply) : Prop := ∀ now, ∃ f, reply.outcome now = .error f

/-- The identifier of a comment as it stands in an address. -/
def shownId? (comment : Value) : Option String := (comment.get? "id").map Value.display

/-- The comments on a page, in order; the first page is page one. -/
def pageOf (comments : List Value) (page : Nat) : List Value :=
  (comments.drop (pageSize * (page - 1))).take pageSize

/-- A comment with another body, still the same comment of the same app. -/
structure Edits (body before after : Value) : Prop where
  body : after.get? "body" = some body
  id : after.get? "id" = before.get? "id"
  app : after.get? "performed_via_github_app" = before.get? "performed_via_github_app"

/-- The call lists the comments of a thread or writes one. -/
def Concerns (t : Thread) (call : Call) : Prop :=
  call.repository = t.repository ∧
    match call.action with
    | .listComments number _ => number.display = (Value.int t.number).display
    | .createComment number _ => number.display = (Value.int t.number).display
    | .updateComment .. => True
    | _ => False

/-- What a call does to the comments of a thread, and what is replied about them. -/
inductive Serves (t : Thread) (comments : List Value) : Call → Reply → List Value → Prop
  | listed {number : Value} {page : Nat} {reply : Reply}
    (hnumber : number.display = (Value.int t.number).display)
    (hreply : Gives reply (.list (pageOf comments page))) :
    Serves t comments ⟨t.repository, .listComments number page⟩ reply comments
  | created {number body : Value} {reply : Reply} (comment : Value)
    (hnumber : number.display = (Value.int t.number).display) (happ : IsBy (.int t.app) comment)
    (hbody : comment.get? "body" = some body)
    (fresh : ∀ other ∈ comments, shownId? other ≠ shownId? comment) :
    Serves t comments ⟨t.repository, .createComment number body⟩ reply (comments ++ [comment])
  | updated {id body : Value} {reply : Reply} (edit : Value → Value)
    (hedit : ∀ c ∈ comments, shownId? c = some id.display → Edits body c (edit c)) :
    Serves t comments ⟨t.repository, .updateComment id body⟩ reply
      (comments.map fun c => if shownId? c = some id.display then edit c else c)
  | other {call : Call} {reply : Reply} (h : ¬ Concerns t call) :
    Serves t comments call reply comments
  | failed {call : Call} {reply : Reply} (h : Fails reply) : Serves t comments call reply comments

/-- What some exchanges do to the comments, one after the other. -/
inductive ServesAll (t : Thread) : List Value → List Exchange → List Value → Prop
  | nil {comments : List Value} : ServesAll t comments [] comments
  | cons {comments next later : List Value} {x : Exchange} {xs : List Exchange}
    (h : Serves t comments x.call x.reply next) (hs : ServesAll t next xs later) :
    ServesAll t comments (x :: xs) later

/-- A service that keeps the comments of a thread. -/
structure Host (σ : Type) (t : Thread) where
  service : Service σ
  comments : σ → List Value
  serves : ∀ state call, Serves t (comments state) call (service state call).1
    (comments (service state call).2)

/-- **A run takes the comments of a host from call to call.** -/
theorem Host.servesAll_run {σ α : Type} (host : Host σ t) (clock : Clock) (p : Program α)
    (session : Session) (state : σ) :
    ServesAll t (host.comments state) (p.run clock host.service session state).exchanges
      (host.comments (p.run clock host.service session state).service) := by
  induction p generalizing clock session state with
  | done a => exact .nil
  | ask call next ih =>
    unfold Program.run
    dsimp only
    cases session.accept (clock 0) with
    | error f => exact ih _ _ _ _
    | ok accepted => exact .cons (host.serves state call) (ih _ _ _ _)

theorem ServesAll.of_append (h : ServesAll t comments (xs ++ ys) later) :
    ∃ mid, ServesAll t comments xs mid ∧ ServesAll t mid ys later := by
  induction xs generalizing comments with
  | nil => exact ⟨comments, .nil, h⟩
  | cons x xs ih =>
    cases h with
    | cons first rest =>
      obtain ⟨mid, hxs, hys⟩ := ih rest
      exact ⟨mid, .cons first hxs, hys⟩

theorem ServesAll.of_singleton {x : Exchange} (h : ServesAll t comments [x] later) :
    Serves t comments x.call x.reply later := by
  cases h with
  | cons first rest =>
    cases rest
    exact first

theorem Serves.eq_of_not_writes {call : Call} {reply : Reply}
    (h : Serves t comments call reply later) (hcall : ¬ WritesComment call) : later = comments := by
  cases h with
  | created => exact absurd trivial hcall
  | updated => exact absurd trivial hcall
  | _ => rfl

theorem ServesAll.eq_of_not_writes (h : ServesAll t comments xs later)
    (hxs : ∀ x ∈ xs, ¬ WritesComment x.call) : later = comments := by
  induction h with
  | nil => rfl
  | cons first rest ih =>
    rw [List.forall_mem_cons] at hxs
    exact (ih hxs.2).trans (first.eq_of_not_writes hxs.1)

/-! ### Listings -/

theorem outcome_of_gives (now : Instant) {reply : Reply} {document : Value}
    (h : Gives reply document) :
    ∃ body, reply.outcome now = .ok body ∧ readDocument body = .ok document := by
  obtain ⟨status, headers, body, rfl, hstatus, hremaining, hreset, hbody⟩ := h
  refine ⟨body, ?_, hbody⟩
  have allowed : status ≠ tooManyCalls := by
    rintro rfl
    exact absurd hstatus (by decide)
  have silent : ∀ s : Session, s.readHeaders headers = (s, none) := by
    intro s
    simp [Session.readHeaders, Session.readRemaining, Session.readReset, hremaining, hreset]
  unfold Reply.outcome Session.settle
  simp only [silent, checkStatus, allowed, hstatus, Bool.false_eq_true, if_false]

theorem readPage_of_list {body : List UInt8} {items : List Value}
    (h : readDocument body = .ok (.list items)) :
    readPage body = .ok (items, !decide (items.length < pageSize)) := by
  unfold readPage
  rw [h]
  cases items with
  | nil => rfl
  | cons item items => rfl

/-- A page of the listing that comes to a document shows its comments, and there may be more behind
a full one. -/
theorem Serves.page {page : Nat} {reply : Reply}
    (h : Serves t comments ⟨t.repository, .listComments (.int t.number) page⟩ reply later)
    (hreply : ∃ document, (reply.outcome now).bind readDocument = .ok document) :
    later = comments ∧ (reply.outcome now).bind readPage =
      .ok (pageOf comments page, !decide ((pageOf comments page).length < pageSize)) := by
  cases h with
  | listed hnumber hgives =>
    obtain ⟨body, hbody, hdocument⟩ := outcome_of_gives now hgives
    rw [hbody]
    exact ⟨rfl, readPage_of_list hdocument⟩
  | other h => exact absurd ⟨rfl, rfl⟩ h
  | failed h =>
    obtain ⟨f, hf⟩ := h now
    obtain ⟨document, hdocument⟩ := hreply
    rw [hf] at hdocument
    cases hdocument

theorem Serves.of_listing {page : Nat} {reply : Reply} {items : List Value} {more : Bool}
    (h : Serves t comments ⟨t.repository, .listComments (.int t.number) page⟩ reply later)
    (hreply : (reply.outcome now).bind readPage = .ok (items, more)) :
    later = comments ∧ items = pageOf comments page ∧ more = !decide (items.length < pageSize) := by
  have read : ∃ document, (reply.outcome now).bind readDocument = .ok document := by
    obtain ⟨body, hbody, hpage⟩ := Except.of_bind_ok hreply
    obtain ⟨document, hdocument, -⟩ := Except.of_bind_ok hpage
    exact ⟨document, by rw [hbody]; exact hdocument⟩
  obtain ⟨same, hpage⟩ := h.page read
  cases hpage.symm.trans hreply
  exact ⟨same, rfl, rfl⟩

theorem Serves.of_full {page : Nat} {reply : Reply} {items : List Value}
    (h : Serves t comments ⟨t.repository, .listComments (.int t.number) (page + 1)⟩ reply later)
    (hreply : (reply.outcome now).bind readPage = .ok (items, true)) :
    later = comments ∧ items = pageOf comments (page + 1) ∧
      pageSize * (page + 1) ≤ comments.length := by
  obtain ⟨same, rfl, hmore⟩ := h.of_listing hreply
  refine ⟨same, rfl, ?_⟩
  have full : pageSize ≤ (pageOf comments (page + 1)).length := by simpa using hmore
  unfold pageOf at full
  rw [Nat.add_sub_cancel, List.length_take, List.length_drop] at full
  rw [Nat.mul_succ]
  have : 0 < pageSize := by decide
  omega

theorem pageOf_eq_drop {page : Nat} (h : (pageOf comments (page + 1)).length < pageSize) :
    pageOf comments (page + 1) = comments.drop (pageSize * page) := by
  unfold pageOf at h ⊢
  rw [Nat.add_sub_cancel] at h ⊢
  rw [List.length_take] at h
  exact List.take_of_length_le (by omega)

theorem pageOf_append_drop (comments : List Value) (page : Nat) :
    pageOf comments (page + 1) ++ comments.drop (pageSize * (page + 1)) =
      comments.drop (pageSize * page) := by
  rw [pageOf, Nat.add_sub_cancel, Nat.mul_succ, ← List.drop_drop, List.take_append_drop]

/-- **A complete listing shows all comments** from the page on with which it begins. -/
theorem Lists.eq_comments {page : Nat} {items : List Value}
    (h : Lists t.repository (.int t.number) (page + 1) xs items)
    (hs : ServesAll t comments xs later) : items = comments.drop (pageSize * page) := by
  generalize hp : page + 1 = p at h
  induction h generalizing page comments with
  | @last p x items hcall hreply =>
    subst hp
    have served := hs.of_singleton
    rw [hcall] at served
    obtain ⟨-, rfl, hmore⟩ := served.of_listing hreply
    exact pageOf_eq_drop (by simpa using hmore)
  | @more p x xs items rest hcall hreply h ih =>
    subst hp
    cases hs with
    | cons served hs =>
      rw [hcall] at served
      obtain ⟨rfl, rfl, -⟩ := served.of_listing hreply
      rw [ih hs rfl, pageOf_append_drop]

theorem FullPages.le {page : Nat} (h : FullPages t.repository (.int t.number) (page + 1) xs)
    (hs : ServesAll t comments xs later) (hpage : pageSize * page ≤ comments.length) :
    pageSize * (page + xs.length) ≤ comments.length := by
  generalize hp : page + 1 = p at h
  induction h generalizing page comments with
  | nil => exact hpage
  | @cons p x xs items hcall hreply h ih =>
    subst hp
    cases hs with
    | cons served hs =>
      rw [hcall] at served
      obtain ⟨rfl, -, reached⟩ := served.of_full hreply
      have rest := ih hs reached rfl
      rwa [List.length_cons, show page + (xs.length + 1) = page + 1 + xs.length by omega]

/-- **No listing is cut short** that may read as many pages as there are. -/
theorem not_cutShort_of_serves {request : Webhook.CheckRequest} {pages : Nat}
    (hrepository : request.repository = t.repository) (hnumber : request.pullRequest = t.number)
    (hs : ServesAll t comments xs later) (hpages : comments.length < pageSize * pages) :
    ¬ CutShort request pages xs := by
  rintro ⟨before, full, after, rfl, hbefore, rfl, hfull⟩
  rw [hrepository, hnumber] at hfull
  obtain ⟨mid, first, rest⟩ := hs.of_append
  obtain rfl := first.eq_of_not_writes fun x hx => (hbefore x hx).1
  obtain ⟨_, listing, -⟩ := rest.of_append
  have shown : pageSize * (0 + full.length) ≤ mid.length := hfull.le listing (Nat.zero_le _)
  rw [Nat.zero_add] at shown
  omega

end ActionItems.CheckRun
