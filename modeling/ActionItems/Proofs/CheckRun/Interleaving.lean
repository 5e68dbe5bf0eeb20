import ActionItems.Proofs.CheckRun.OneComment
import ActionItems.Proofs.GitHub.Turns

/-!
# Check runs among the calls of others

While a check run lists the comments on a pull request, others may write some. A host never takes a
comment away, and one that is edited stays where it is and is by the same app (`Extends`), so a
comment of the app that is not behind the page that comes next will be found (`Lists.hasComment`). A
new comment comes last, behind all full pages that were read before (`FullPages.le_of_madeBy`).
Together, a listing misses a comment of the app only if it is over when the comment is created
(`Gathers.hasComment`).

The comments of the app are no more than there were before and calls that create one
(`ServesAll.count_le`).
-/

namespace ActionItems.CheckRun

open ActionItems.GitHub
open ActionItems.Webhook (CheckRequest)

variable {ι : Type} {t : Thread} {comments later mid : List Value} {request : CheckRequest}
  {pages : Nat} {xs : List Exchange} {es : List (ι × Exchange)} {i : ι}

/-! ### Comments of the app, counted -/

/-- The number of comments of the app. -/
def ownCount (t : Thread) (comments : List Value) : Nat :=
  comments.countP fun c => decide (IsBy (.int t.app) c)

/-- Whether a call creates a comment. -/
def isCreation (call : Call) : Bool :=
  match call.action with
  | .createComment .. => true
  | _ => false

theorem not_isCreation {call : Call} (h : ¬ WritesComment call) : isCreation call = false := by
  unfold WritesComment at h
  unfold isCreation
  split
  · next he =>
    rw [he] at h
    exact absurd trivial h
  · rfl

theorem ownCount_append (t : Thread) (xs ys : List Value) :
    ownCount t (xs ++ ys) = ownCount t xs + ownCount t ys :=
  List.countP_append

theorem ownCount_singleton {comment : Value} (h : IsBy (.int t.app) comment) :
    ownCount t [comment] = 1 := by
  unfold ownCount
  rw [List.countP_singleton, if_pos (decide_eq_true h)]

/-- What a call does to the comments: a new one of the app comes last, or each of them stays or is
edited. -/
theorem Serves.grows {call : Call} {reply : Reply} (h : Serves t comments call reply later) :
    (∃ edit : Value → Value, later = comments.map edit ∧
        ∀ c ∈ comments, IsBy (.int t.app) (edit c) ↔ IsBy (.int t.app) c) ∨
      isCreation call = true ∧ ∃ comment, IsBy (.int t.app) comment ∧
      later = comments ++ [comment] := by
  have same : ∃ edit : Value → Value, comments = comments.map edit ∧
      ∀ c ∈ comments, IsBy (.int t.app) (edit c) ↔ IsBy (.int t.app) c :=
    ⟨id, (List.map_id comments).symm, fun _ _ => Iff.rfl⟩
  cases h with
  | listed => exact .inl same
  | created comment hnumber happ hbody fresh => exact .inr ⟨rfl, comment, happ, rfl⟩
  | @updated id body _ edit hedit =>
    refine .inl ⟨_, rfl, fun c hc => ?_⟩
    split
    · next hid => exact (hedit c hc hid).isBy_iff
    · exact Iff.rfl
  | other => exact .inl same
  | failed => exact .inl same

theorem ownCount_map {edit : Value → Value}
    (h : ∀ c ∈ comments, IsBy (.int t.app) (edit c) ↔ IsBy (.int t.app) c) :
    ownCount t (comments.map edit) = ownCount t comments := by
  unfold ownCount
  rw [List.countP_map]
  exact List.countP_congr fun c hc => by simp [h c hc]

/-- The list has no fewer comments than before, and behind any of its places no comment of the app
has gone. -/
structure Extends (t : Thread) (comments later : List Value) : Prop where
  length : comments.length ≤ later.length
  own : ∀ n, HasComment (.int t.app) (comments.drop n) → HasComment (.int t.app) (later.drop n)

theorem Extends.refl (comments : List Value) : Extends t comments comments :=
  ⟨Nat.le_refl _, fun _ h => h⟩

theorem Extends.trans (h : Extends t comments mid) (h' : Extends t mid later) :
    Extends t comments later :=
  ⟨Nat.le_trans h.length h'.length, fun n hn => h'.own n (h.own n hn)⟩

theorem Serves.extends {call : Call} {reply : Reply} (h : Serves t comments call reply later) :
    Extends t comments later := by
  obtain ⟨edit, rfl, hedit⟩ | ⟨-, comment, happ, rfl⟩ := h.grows
  · refine ⟨Nat.le_of_eq (List.length_map _).symm, ?_⟩
    rintro n ⟨c, hc, hby⟩
    rw [← List.map_drop]
    exact ⟨edit c, List.mem_map_of_mem hc, (hedit c (List.mem_of_mem_drop hc)).2 hby⟩
  · refine ⟨by simp, ?_⟩
    rintro n ⟨c, hc, hby⟩
    rw [List.drop_append]
    exact ⟨c, List.mem_append_left _ hc, hby⟩

theorem ServesAll.extends (h : ServesAll t comments xs later) : Extends t comments later := by
  induction h with
  | nil => exact .refl _
  | cons first rest ih => exact first.extends.trans ih

/-- Each call that creates a comment makes room for one more, and for one more of the app. -/
theorem ServesAll.count_le (h : ServesAll t comments xs later) :
    later.length ≤ comments.length + xs.countP (isCreation ·.call) ∧
      ownCount t later ≤ ownCount t comments + xs.countP (isCreation ·.call) := by
  induction h with
  | nil => exact ⟨Nat.le_refl _, Nat.le_refl _⟩
  | @cons comments next later x xs first rest ih =>
    rw [List.countP_cons]
    obtain ⟨edit, rfl, hedit⟩ | ⟨creates, comment, happ, rfl⟩ := first.grows
    · rw [ownCount_map hedit, List.length_map] at ih
      omega
    · rw [ownCount_append, ownCount_singleton happ, List.length_append, List.length_singleton] at ih
      rw [if_pos creates]
      omega

theorem ServesAll.ownCount_eq (h : ServesAll t comments xs later)
    (hxs : ∀ x ∈ xs, isCreation x.call = true →
      (∃ body, x.call = ⟨t.repository, .createComment (.int t.number) body⟩) ∧ ¬ Fails x.reply) :
    ownCount t later = ownCount t comments + xs.countP (isCreation ·.call) := by
  induction h with
  | nil => rfl
  | @cons comments next later x xs first rest ih =>
    rw [List.forall_mem_cons] at hxs
    rw [ih hxs.2, List.countP_cons]
    split
    · next creates =>
      obtain ⟨⟨body, hcall⟩, succeeds⟩ := hxs.1 creates
      rw [hcall] at first
      cases first with
      | created comment hnumber happ =>
        rw [ownCount_append, ownCount_singleton happ]
        omega
      | other h => exact absurd ⟨rfl, rfl⟩ h
      | failed h => exact absurd h succeeds
    · next other =>
      obtain ⟨edit, rfl, hedit⟩ | ⟨creates, -⟩ := first.grows
      · rw [ownCount_map hedit]
        omega
      · exact absurd creates other

/-- If there are more comments of the app than before, one of the calls has created the first of
them. -/
theorem ServesAll.exists_created (h : ServesAll t comments (es.map Prod.snd) later)
    (more : ownCount t comments < ownCount t later) :
    ∃ before who x after mid comment, es = before ++ (who, x) :: after ∧ isCreation x.call = true ∧
      ServesAll t comments (before.map Prod.snd) mid ∧ ownCount t mid = ownCount t comments ∧
      IsBy (.int t.app) comment ∧ ServesAll t (mid ++ [comment]) (after.map Prod.snd) later := by
  induction es generalizing comments with
  | nil =>
    cases h
    exact absurd more (Nat.lt_irrefl _)
  | cons e es ih =>
    obtain ⟨who, x⟩ := e
    cases h with
    | cons first rest =>
      obtain ⟨edit, rfl, hedit⟩ | ⟨creates, comment, happ, rfl⟩ := first.grows
      · rw [← ownCount_map hedit] at more
        obtain ⟨before, who', x', after, mid, comment, rfl, creates, hbefore, hmid, happ, hafter⟩ :=
          ih rest more
        exact ⟨(who, x) :: before, who', x', after, mid, comment, rfl, creates, .cons first hbefore,
          hmid.trans (ownCount_map hedit), happ, hafter⟩
      · exact ⟨[], who, x, es, comments, comment, rfl, creates, .nil, rfl, happ, rest⟩

/-! ### Listings among the calls of others -/

variable [DecidableEq ι]

theorem ServesAll.of_madeBy_append {us vs : List Exchange}
    (hs : ServesAll t comments (es.map Prod.snd) later) (hmade : madeBy i es = us ++ vs) :
    ∃ first rest mid, madeBy i first = us ∧ madeBy i rest = vs ∧
      ServesAll t comments (first.map Prod.snd) mid ∧
      ServesAll t mid (rest.map Prod.snd) later := by
  obtain ⟨first, rest, rfl, hfirst, hrest⟩ := madeBy_eq_append_iff.1 hmade
  rw [List.map_append] at hs
  obtain ⟨mid, served, hs⟩ := hs.of_append
  exact ⟨first, rest, mid, hfirst, hrest, served, hs⟩

theorem ServesAll.of_madeBy_cons {x : Exchange} (hs : ServesAll t comments (es.map Prod.snd) later)
    (hmade : madeBy i es = x :: xs) : ∃ rest mid next, madeBy i rest = xs ∧ Extends t comments mid ∧
      Serves t mid x.call x.reply next ∧ ServesAll t next (rest.map Prod.snd) later := by
  obtain ⟨before, rest, rfl, hrest⟩ := exists_of_madeBy_eq_cons hmade
  rw [List.map_append] at hs
  obtain ⟨mid, hbefore, hs⟩ := hs.of_append
  cases hs with
  | cons served hs => exact ⟨rest, mid, _, hrest, hbefore.extends, served, hs⟩

theorem FullPages.le_of_madeBy {page : Nat}
    (h : FullPages t.repository (.int t.number) (page + 1) xs) (hmade : madeBy i es = xs)
    (hs : ServesAll t comments (es.map Prod.snd) later)
    (hpage : pageSize * page ≤ comments.length) : pageSize * (page + xs.length) ≤ later.length := by
  generalize hp : page + 1 = p at h
  induction h generalizing es page comments with
  | nil => exact Nat.le_trans hpage hs.extends.length
  | cons hcall hreply h ih =>
    subst hp
    obtain ⟨rest, mid, next, hrest, -, served, hs⟩ := hs.of_madeBy_cons hmade
    rw [hcall] at served
    obtain ⟨rfl, -, reached⟩ := served.of_full hreply
    have shown := ih hrest hs reached rfl
    rwa [List.length_cons, ← Nat.add_assoc, Nat.add_right_comm]

theorem FullPages.le_of_madeBy_append {before : List Exchange}
    (h : FullPages t.repository (.int t.number) 1 xs) (hmade : madeBy i es = before ++ xs)
    (hs : ServesAll t comments (es.map Prod.snd) later) : pageSize * xs.length ≤ later.length := by
  obtain ⟨first, rest, mid, -, hrest, -, hs⟩ := hs.of_madeBy_append hmade
  have shown := FullPages.le_of_madeBy h hrest hs (Nat.zero_le _)
  rwa [Nat.zero_add] at shown

/-- A listing finds a comment of the app that is on one of its pages, whatever is called in
between. -/
theorem Lists.hasComment {page : Nat} {items : List Value}
    (h : Lists t.repository (.int t.number) (page + 1) xs items) (hmade : madeBy i es = xs)
    (hs : ServesAll t comments (es.map Prod.snd) later)
    (hown : HasComment (.int t.app) (comments.drop (pageSize * page))) :
    HasComment (.int t.app) items := by
  generalize hp : page + 1 = p at h
  induction h generalizing es page comments with
  | last hcall hreply =>
    subst hp
    obtain ⟨rest, mid, next, -, grown, served, -⟩ := hs.of_madeBy_cons hmade
    rw [hcall] at served
    obtain ⟨-, rfl, short⟩ := served.of_listing hreply
    rw [pageOf_eq_drop (by simpa using short)]
    exact grown.own _ hown
  | more hcall hreply h ih =>
    subst hp
    obtain ⟨rest, mid, next, hrest, grown, served, hs⟩ := hs.of_madeBy_cons hmade
    rw [hcall] at served
    obtain ⟨rfl, rfl, -⟩ := served.of_full hreply
    -- The comment is on this page or behind it.
    obtain ⟨c, hc, hby⟩ := grown.own _ hown
    rw [← pageOf_append_drop] at hc
    rcases List.mem_append.1 hc with hc | hc
    · exact ⟨c, List.mem_append_left _ hc, hby⟩
    · obtain ⟨c, hc, hby⟩ := ih hrest hs ⟨c, hc, hby⟩ rfl
      exact ⟨c, List.mem_append_right _ hc, hby⟩

theorem Lists.of_append {repository : String} {number : Value} {page : Nat} {us vs : List Exchange}
    {items : List Value} (h : Lists repository number page (us ++ vs) items) (hvs : vs ≠ []) :
    FullPages repository number page us ∧
      ∃ first rest, items = first ++ rest ∧ Lists repository number (page + us.length) vs rest := by
  induction us generalizing page items with
  | nil => exact ⟨.nil, [], items, rfl, h⟩
  | cons x us ih =>
    rw [List.cons_append] at h
    generalize hrest : us ++ vs = more at h
    cases h with
    | last hcall hreply => exact absurd (List.append_eq_nil_iff.1 hrest).2 hvs
    | @more _ _ _ items rest hcall hreply h =>
      subst hrest
      obtain ⟨full, first, rest, rfl, h⟩ := ih h
      refine ⟨.cons hcall hreply full, items ++ first, rest, (List.append_assoc ..).symm, ?_⟩
      rwa [List.length_cons, ← Nat.add_assoc, Nat.add_right_comm]

/-- **A comment of the app is found if any part of the listing comes after it was created.** -/
theorem Gathers.hasComment {f : Findings} {before between : List (ι × Exchange)} {comment : Value}
    (h : Gathers request (madeBy i before ++ madeBy i between) f) (late : madeBy i between ≠ [])
    (hrepository : request.repository = t.repository) (hnumber : request.pullRequest = t.number)
    (hbefore : ServesAll t comments (before.map Prod.snd) mid) (happ : IsBy (.int t.app) comment)
    (hbetween : ServesAll t (mid ++ [comment]) (between.map Prod.snd) later) :
    HasComment (.int t.app) f.comments := by
  generalize hwhole : madeBy i before ++ madeBy i between = whole at h
  obtain ⟨hstart, hfiles, -, hfetch, -, hpages⟩ := h
  rename_i start fetch files pages text?
  rw [hrepository, hnumber] at hpages
  rw [show start :: (files ++ fetch :: pages) = start :: (files ++ [fetch]) ++ pages by simp]
    at hwhole
  have created : ∀ n ≤ mid.length, HasComment (.int t.app) ((mid ++ [comment]).drop n) := by
    intro n hn
    rw [List.drop_append_of_le_length hn]
    exact ⟨comment, by simp, happ⟩
  obtain ⟨pre, -, hlisting⟩ | ⟨full, hfull, hlisting⟩ := List.append_eq_append_iff.1 hwhole
  · -- the whole listing
    obtain ⟨first, rest, next, -, hrest, hfirst, hs⟩ := hbetween.of_madeBy_append hlisting
    exact hpages.hasComment hrest hs (hfirst.extends.own _ (created (pageSize * 0) (Nat.zero_le _)))
  · -- the listing from some page on
    rw [hlisting] at hpages
    obtain ⟨hpages, first, rest, hcomments, hrest⟩ := hpages.of_append late
    have shown := hpages.le_of_madeBy_append hfull hbefore
    rw [Nat.add_comm] at hrest
    obtain ⟨c, hc, hby⟩ := hrest.hasComment rfl hbetween (created _ shown)
    rw [hcomments]
    exact ⟨c, List.mem_append_right _ hc, hby⟩

/-- No listing is cut short that may read as many pages as there are in the end. -/
theorem not_cutShort_of_madeBy (hrepository : request.repository = t.repository)
    (hnumber : request.pullRequest = t.number) (hs : ServesAll t comments (es.map Prod.snd) later)
    (hpages : later.length < pageSize * pages) : ¬ CutShort request pages (madeBy i es) := by
  rintro ⟨before, full, after, hmade, -, rfl, hfull⟩
  rw [hrepository, hnumber] at hfull
  rw [← List.append_assoc] at hmade
  obtain ⟨first, rest, mid, hfirst, -, served, hs⟩ := hs.of_madeBy_append hmade
  have shown := hfull.le_of_madeBy_append hfirst served
  have grown := hs.extends.length
  omega

/-! ### Programs in turns -/

theorem ServesAll.append {x : Exchange} (h : ServesAll t comments xs mid)
    (hx : Serves t mid x.call x.reply later) : ServesAll t comments (xs ++ [x]) later := by
  induction h with
  | nil => exact .cons hx .nil
  | cons first rest ih => exact .cons first (ih hx)

theorem Host.servesAll_turns {σ α : Type} (host : Host σ t) (start : ι → Program α) (state : σ)
    (turns : List (Turn ι)) : ServesAll t (host.comments state)
      ((Turns.run host.service ⟨start, state, []⟩ turns).exchanges.map Prod.snd)
      (host.comments (Turns.run host.service ⟨start, state, []⟩ turns).service) := by
  refine List.foldlRecOn (motive := fun r : Turns ι σ α => ServesAll t (host.comments state)
    (r.exchanges.map Prod.snd) (host.comments r.service)) turns _ .nil fun r h turn _ => ?_
  unfold Turns.step
  split
  · exact h
  · next call next _ =>
    split
    · exact h
    · rw [List.map_append]
      exact h.append (host.serves r.service call)

end ActionItems.CheckRun
