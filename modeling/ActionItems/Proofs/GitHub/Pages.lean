import ActionItems.Proofs.CheckRun.Host
import ActionItems.Proofs.GitHub.Limit
import ActionItems.Proofs.GitHub.Reply

/-!
# All pages of a listing

A service shows the comments on a pull request in pages (`Shows`). A client that is asked to list
them reads every page once, up to the first one that is not full (`length_pageOf_lt_iff`), and so
gets all comments in order, whether the last page is empty, begun or all but full
(`run_commentsFrom`). So it finds the first comment of an app if there is one
(`firstOfApp_eq_find?`). `listing_complete` puts the two together.
-/

namespace ActionItems.GitHub

open ActionItems.CheckRun (Gives pageOf IsBy isBy_int_iff outcome_of_gives readPage_of_list
  pageOf_eq_drop pageOf_append_drop)

variable {σ : Type} {service : Service σ} {clock : Clock} {repository : String} {number : Value}
  {comments : List Value}

/-! ### Reading pages -/

/-- A service shows the comments on a pull request page by page, and says nothing about limits. -/
def Shows (service : Service σ) (repository : String) (number : Value) (comments : List Value) :
    Prop :=
  ∀ state page, Gives (service state ⟨repository, .listComments number (page + 1)⟩).1
    (.list (pageOf comments (page + 1)))

theorem note_of_gives {reply : Reply} {document : Value} (h : Gives reply document) (s : Session) :
    s.note reply = s := by
  obtain ⟨status, headers, body, rfl, -, hremaining, hreset, -⟩ := h
  have silent : (Reply.answer status headers body).IsSilent := ⟨hremaining, hreset⟩
  rw [← Session.settle_fst s ⟨0⟩, Session.settle_of_isSilent silent]

theorem length_pageOf_lt_iff {page : Nat} :
    (pageOf comments (page + 1)).length < pageSize ↔ comments.length / pageSize ≤ page := by
  rw [pageOf, Nat.add_sub_cancel, List.length_take, List.length_drop, pageSize]
  omega

/-- A page is read with the next token: a full one is followed by the rest of the listing, and any
other one is the last. -/
theorem run_page (hshows : Shows service repository number comments) {session : Session}
    (hopen : session.closedUntil? (clock 0) = none) {token : String} {rest : TokenSource}
    (htake : session.tokens.take? = some (token, rest)) (pages page : Nat) (state : σ) :
    Program.run clock service (commentsFrom repository number (pages + 1) (page + 1)).run
      session state =
      let items := pageOf comments (page + 1)
      let answered := service state ⟨repository, .listComments number (page + 1)⟩
      let later := { session with tokens := rest }
      Run.prepend [⟨⟨repository, .listComments number (page + 1)⟩, token, answered.1, clock 0⟩] <|
        if items.length < pageSize then ⟨.ok items, later, answered.2, clock.later, []⟩
        else
          let r := Program.run clock.later service
            (commentsFrom repository number pages (page + 2)).run later answered.2
          { r with result := r.result.map (items ++ ·) } := by
  have shown := hshows state page
  obtain ⟨body, hbody, hdocument⟩ := outcome_of_gives (clock 0) shown
  rw [run_commentsFrom_succ,
    Program.run_ask_of_ok (Session.accept_eq_ok_iff.2 ⟨hopen, rest, htake, rfl⟩)]
  dsimp only
  rw [hbody, note_of_gives shown]
  simp only [Except.bind, readPage_of_list hdocument]
  by_cases hlast : (pageOf comments (page + 1)).length < pageSize
  · simp only [hlast, decide_true, Bool.not_true, if_true, Program.run_done]
  · simp only [hlast, decide_false, Bool.not_false, if_false, Program.run_bind, Program.run_done,
      Run.prepend, List.append_nil]

/-- **A listing reads every page once.** From a page on with `full` full pages behind it, it comes
to all comments that are left. -/
theorem run_commentsFrom (hshows : Shows service repository number comments) {full page pages : Nat}
    (hfull : comments.length / pageSize = page + full) (hpages : full < pages) {session : Session}
    (hopen : ∀ n, session.closedUntil? (clock n) = none) {tokens : List String} {left : TokenSource}
    (htokens : session.tokens.Yields tokens left) (hlength : tokens.length = full + 1) (state : σ) :
    let r :=
      Program.run clock service (commentsFrom repository number pages (page + 1)).run session state
    r.result = .ok (comments.drop (pageSize * page)) ∧ r.session = { session with tokens := left } ∧
      r.exchanges.map Exchange.token = tokens ∧ r.exchanges.map Exchange.call =
        (List.range' (page + 1) (full + 1)).map fun p => ⟨repository, .listComments number p⟩ := by
  obtain ⟨pages, rfl⟩ := Nat.exists_eq_add_one.2 (Nat.zero_lt_of_lt hpages)
  -- The bound on the pages and the tokens shrink along with the full pages that are left.
  induction full generalizing page pages clock session tokens state with
  | zero =>
    have last : (pageOf comments (page + 1)).length < pageSize :=
      length_pageOf_lt_iff.2 (Nat.le_of_eq hfull)
    cases htokens with
    | nil => cases hlength
    | @cons _ next _ token tokens htake hrest =>
    obtain rfl : tokens = [] := List.eq_nil_of_length_eq_zero (Nat.succ.inj hlength)
    cases hrest
    rw [run_page hshows (hopen 0) htake]
    simp only [if_pos last]
    exact ⟨congrArg Except.ok (pageOf_eq_drop last), rfl, rfl, rfl⟩
  | succ full ih =>
    have more : ¬ (pageOf comments (page + 1)).length < pageSize := by
      rw [length_pageOf_lt_iff, hfull]
      omega
    obtain ⟨pages, rfl⟩ := Nat.exists_eq_add_one.2 (show 0 < pages by omega)
    cases htokens with
    | nil => cases hlength
    | @cons _ next _ token tokens htake hrest =>
    have stillOpen (n : Nat) : { session with tokens := next }.closedUntil? (clock.later n) =
        none := hopen (n + 1)
    obtain ⟨hresult, hsession, htoken, hcall⟩ :=
      ih (show comments.length / pageSize = page + 1 + full by omega)
      stillOpen hrest (Nat.succ.inj hlength)
        (service state ⟨repository, .listComments number (page + 1)⟩).2 pages
      (show full < pages + 1 by omega)
    rw [run_page hshows (hopen 0) htake]
    simp only [if_neg more, hresult]
    exact ⟨congrArg Except.ok (pageOf_append_drop comments page), hsession,
      congrArg (token :: ·) htoken, congrArg
        (Call.mk repository (.listComments number (page + 1)) :: ·) hcall⟩

/-! ### The comment of an app -/

/-- A comment as it is listed: an object, in which the app that has made it is absent, null or an
object. -/
def IsComment (comment : Value) : Prop :=
  ∃ entries, comment = .map entries ∧ ∀ made, comment.get? "performed_via_github_app" = some made →
    made = .null ∨ ∃ fields, made = .map fields

/-- A comment that an app has made: the identifier of its app is the same as a number. -/
def IsFrom (app : Int) (comment : Value) : Prop :=
  ∃ made id, comment.get? "performed_via_github_app" = some made ∧ made.get? "id" = some id ∧
    id.same (.int app) = true

theorem exists_commentApp {comment : Value} (h : IsComment comment) :
    ∃ id, commentApp comment = .ok id := by
  obtain ⟨entries, rfl, hmade⟩ := h
  have made : commentApp (.map entries) =
      let made := (Value.lookup? "performed_via_github_app" entries).getD .null
      if made.isTruthy then (fieldsOf made).map fun fields => (Value.lookup? "id" fields).getD .null
      else .ok .null := by
    simp only [commentApp, fieldsOf, bind, Except.bind]
    split
    · cases (Value.lookup? "performed_via_github_app" entries).getD .null <;> rfl
    · rfl
  rw [made]
  cases hlookup : Value.lookup? "performed_via_github_app" entries with
  | none => exact ⟨_, rfl⟩
  | some v =>
    obtain rfl | ⟨fields, rfl⟩ := hmade v hlookup
    · exact ⟨_, rfl⟩
    · dsimp only [Option.getD_some]
      split <;> exact ⟨_, rfl⟩

theorem firstOfApp_eq_find? {app : Value} {p : Value → Bool} (hp : ∀ c, p c = true ↔ IsBy app c)
    (h : ∀ c ∈ comments, ∃ id, commentApp c = .ok id) :
    firstOfApp app comments = .ok (comments.find? p) := by
  induction comments with
  | nil => rfl
  | cons comment rest ih =>
    obtain ⟨⟨id, hid⟩, hrest⟩ := List.forall_mem_cons.1 h
    have found : p comment = id.same app := by
      rw [Bool.eq_iff_iff, hp]
      simp [IsBy, hid]
    simp only [firstOfApp, bind, Except.bind, hid, List.find?_cons, found]
    cases id.same app with
    | true => rfl
    | false => exact ih hrest

/-- **A listing is complete**: it reads each page once and comes to all comments in order. The
comment that is found for an app is the first one of the app, and none is found only if there is
none. -/
theorem listing_complete (hshows : Shows service repository number comments)
    (hcomments : ∀ c ∈ comments, IsComment c) {session : Session}
    (hopen : ∀ n, session.closedUntil? (clock n) = none) {tokens : List String} {left : TokenSource}
    (htokens : session.tokens.Yields tokens left)
    (hlength : tokens.length = comments.length / pageSize + 1) {pages : Nat}
    (hpages : comments.length / pageSize < pages) (app : Int) (state : σ) :
    let listing :=
      Program.run clock service (listComments pages repository number).run session state
    let search :=
      Program.run clock service (findComment pages repository number (.int app)).run session state
    listing.result = .ok comments ∧
    listing.exchanges.map Exchange.call = (List.range' 1 (comments.length / pageSize + 1)).map
      (fun page => ⟨repository, .listComments number page⟩) ∧
    search.exchanges = listing.exchanges ∧
    (∀ comment, search.result = .ok (some comment) ↔
      ∃ before after, comments = before ++ comment :: after ∧ IsFrom app comment ∧
        ∀ c ∈ before, ¬ IsFrom app c) ∧
    (search.result = .ok none ↔ ∀ c ∈ comments, ¬ IsFrom app c) := by
  intro listing search
  obtain ⟨hresult, -, -, hcalls⟩ :=
    run_commentsFrom hshows (show comments.length / pageSize = 0 + _ from (Nat.zero_add _).symm)
      hpages hopen htokens hlength state
  replace hresult : listing.result = .ok comments := hresult
  classical
  have searched :
      search = { listing with result := .ok (comments.find? fun c => decide (IsFrom app c)) } := by
    have found :=
      firstOfApp_eq_find? (fun c => (decide_eq_true_iff (p := IsFrom app c)).trans
        isBy_int_iff.symm)
      fun c hc => exists_commentApp (hcomments c hc)
    have stages := Task.run_bind clock service (listComments pages repository number)
      (fun items => settle (firstOfApp (.int app) items)) session state
    simp only [show Program.run clock service (listComments pages repository number).run session
      state = listing
      from rfl, hresult, Task.run_settle, found, Run.prepend, List.append_nil] at stages
    exact stages
  rw [searched]
  refine ⟨hresult, hcalls, rfl, fun comment => ?_, ?_⟩
  · rw [Except.ok.injEq, List.find?_eq_some_iff_append]
    constructor
    · rintro ⟨hfrom, before, after, hsplit, hbefore⟩
      exact ⟨before, after, hsplit, of_decide_eq_true hfrom, fun c hc => by
        simpa using hbefore c hc⟩
    · rintro ⟨before, after, hsplit, hfrom, hbefore⟩
      exact ⟨decide_eq_true hfrom, before, after, hsplit, fun c hc => by simpa using hbefore c hc⟩
  · simp [List.find?_eq_none]

/-- Of two comments on one page that is not full, the second one is that of the app. -/
theorem listing_complete_second :
    let first : Value := .object [("id", .int 1)]
    let second : Value :=
      .object [("id", .int 2), ("performed_via_github_app", .object [("id", .int 7)])]
    let service : Service Unit := fun state call =>
      match call.action with
      | .listComments _ 1 => (.answer 200 [] (Bytes.encode ("[\x7b\"id\": 1\x7d, \x7b\"id\": 2, " ++
          "\"performed_via_github_app\": \x7b\"id\": 7\x7d\x7d]")), state)
      | _ => (.answer 200 [] (Bytes.encode "[]"), state)
    let listing :=
      Program.run (fun n => ⟨n⟩) service (listComments 1 "o/r" (.int 5)).run
        { tokens := .fixed "t" } ()
    let search :=
      Program.run (fun n => ⟨n⟩) service (findComment 1 "o/r" (.int 5) (.int 7)).run
        { tokens := .fixed "t" } ()
    Shows service "o/r" (.int 5) [first, second] ∧ (∀ c ∈ [first, second], IsComment c) ∧
      listing.result = .ok [first, second] ∧
      listing.exchanges.map Exchange.call = [⟨"o/r", .listComments (.int 5) 1⟩] ∧
      search.result = .ok (some second) := by
  intro first second service listing search
  have shows : Shows service "o/r" (.int 5) [first, second] := by
    intro state page
    cases page with
    | zero => exact ⟨200, [], _, rfl, rfl, rfl, rfl, Except.eq_ok_of_toOption (by decide +kernel)⟩
    | succ page =>
      have past : pageOf [first, second] (page + 2) = [] :=
        List.take_eq_nil_of_eq_nil (List.drop_eq_nil_of_le (by simp [pageSize]; omega))
      rw [past]
      exact ⟨200, [], _, rfl, rfl, rfl, rfl, Except.eq_ok_of_toOption (by decide +kernel)⟩
  have comments : ∀ c ∈ [first, second], IsComment c := by
    simp only [List.forall_mem_cons, List.not_mem_nil, false_implies, implies_true, and_true]
    refine ⟨⟨_, rfl, fun made h => ?_⟩, ⟨_, rfl, fun made h => ?_⟩⟩
    · cases h
    · exact .inr ⟨_, (Option.some.inj h).symm⟩
  have one : ({ tokens := .fixed "t" } : Session).tokens.Yields ["t"] (.fixed "t") :=
    TokenSource.yields_fixed_iff.2 ⟨by simp, rfl⟩
  obtain ⟨hlisting, hcalls, -, hsearch, -⟩ :=
    listing_complete shows comments (fun _ => rfl) one (by decide) (show 2 / pageSize < 1 by
      decide) 7 ()
  refine ⟨shows, comments, hlisting, hcalls.trans (by simp [pageSize]),
    (hsearch second).2 ⟨[first], [], rfl, ?_, ?_⟩⟩
  · exact ⟨_, _, rfl, rfl, by simp [Value.same, Value.sameNumber?, Value.asInt?]⟩
  · rintro c hc ⟨made, id, hmade, -⟩
    obtain rfl := List.mem_singleton.1 hc
    cases hmade

end ActionItems.GitHub
