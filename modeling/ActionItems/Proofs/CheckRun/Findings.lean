import ActionItems.CheckRun
import ActionItems.Proofs.GitHub.Trace

/-!
# What a check run finds out

Before anything is written about a change set, a check run reads the options of the repository, the
diff and the comments on the pull request. `Gathers` says which exchanges these are and what they
tell: the first of the option files that has a text (`FindsFile`), the diff, and all pages of
comments (`Lists`).

A listing that yields comments has read all of them or as many pages as it may (`lists_of_trace`).
Whether the app has a comment among them (`HasComment`) is what `firstOfApp` finds out
(`isSome_firstOfApp`).
-/

namespace ActionItems.CheckRun

open ActionItems.GitHub
open ActionItems.Webhook (CheckRequest)

variable {request : CheckRequest} {xs : List Exchange}

/-! ### Option files -/

/-- The calls for the files at some paths, up to the first that has a text. -/
inductive FindsFile (request : CheckRequest) :
    List String → List Exchange → Option String → Prop
  | nothing : FindsFile request [] [] none
  | absent {path : String} {paths : List String} {x : Exchange} {xs : List Exchange}
    {text? : Option String}
    (hcall : x.call = ⟨request.repository, .fetchFile path (.text request.commit)⟩)
    (hreply : fileOutcome x.outcome = .ok none) (h : FindsFile request paths xs text?) :
    FindsFile request (path :: paths) (x :: xs) text?
  | found {path text : String} {paths : List String} {x : Exchange}
    (hcall : x.call = ⟨request.repository, .fetchFile path (.text request.commit)⟩)
    (hreply : fileOutcome x.outcome = .ok (some text)) :
    FindsFile request (path :: paths) [x] (some text)

/-- A call that is not made does not tell that a file is not there. -/
theorem fileOutcome_of_isUnmade {f : GitHub.Failure} (h : f.isUnmade = true) :
    fileOutcome (.error f) = .error f := by
  cases f with
  | closed reset => rfl
  | noToken => rfl
  | _ => cases h

theorem findsFile_of_trace {paths : List String} {text? : Option String}
    (h : Task.Trace (firstFile request paths) xs (.ok text?)) :
    FindsFile request paths xs text? := by
  induction paths generalizing xs with
  | nil =>
    obtain ⟨rfl, h⟩ := Task.of_pure h
    cases h
    exact .nothing
  | cons path paths ih =>
    obtain ⟨e, he, -⟩ | ⟨ys, zs, found?, rfl, hcall, hrest⟩ := Task.of_bind h
    · cases he
    obtain ⟨r, htrace, hr⟩ := Task.of_mapError hcall
    unfold Task.Trace at htrace
    rw [run_fetchFile] at htrace
    have hok : r = .ok found? := by
      cases r with
      | error f => cases hr
      | ok a => cases hr; rfl
    obtain ⟨f, hf, -, hr'⟩ | ⟨x, rfl, hfetch, hr'⟩ := htrace.of_ask
    · rw [fileOutcome_of_isUnmade hf, hok] at hr'
      cases hr'
    rw [hok] at hr'
    cases found? with
    | none => exact .absent hfetch hr'.symm (ih hrest)
    | some text =>
      obtain ⟨rfl, htext⟩ := Task.of_pure hrest
      obtain rfl := Except.ok.inj htext
      rw [List.append_nil]
      exact .found hfetch hr'.symm

/-! ### Comments -/

/-- The calls for the comments on a pull request from a page on, up to the last page, and the
comments. -/
inductive Lists (repository : String) (number : Value) :
    Nat → List Exchange → List Value → Prop
  | last {page : Nat} {x : Exchange} {items : List Value}
    (hcall : x.call = ⟨repository, .listComments number page⟩)
    (hreply : x.outcome.bind readPage = .ok (items, false)) :
    Lists repository number page [x] items
  | more {page : Nat} {x : Exchange} {xs : List Exchange} {items rest : List Value}
    (hcall : x.call = ⟨repository, .listComments number page⟩)
    (hreply : x.outcome.bind readPage = .ok (items, true))
    (h : Lists repository number (page + 1) xs rest) :
    Lists repository number page (x :: xs) (items ++ rest)

/-- The calls for the comments on a pull request from a page on, which yield full pages. -/
inductive FullPages (repository : String) (number : Value) : Nat → List Exchange → Prop
  | nil {page : Nat} : FullPages repository number page []
  | cons {page : Nat} {x : Exchange} {xs : List Exchange} {items : List Value}
    (hcall : x.call = ⟨repository, .listComments number page⟩)
    (hreply : x.outcome.bind readPage = .ok (items, true))
    (h : FullPages repository number (page + 1) xs) : FullPages repository number page (x :: xs)

/-- **A listing reads all comments**, or as many pages as it may. -/
theorem lists_of_trace {repository : String} {number : Value} {pages page : Nat}
    {items : List Value}
    (h : Task.Trace (commentsFrom repository number pages page) xs (.ok items)) :
    Lists repository number page xs items ∨
      xs.length = pages ∧ FullPages repository number page xs := by
  induction pages generalizing page xs items with
  | zero =>
    obtain ⟨rfl, -⟩ := Task.of_pure h
    exact .inr ⟨rfl, .nil⟩
  | succ pages ih =>
    unfold Task.Trace at h
    rw [run_commentsFrom_succ] at h
    cases h with
    | unmade f hf h => cases h
    | @made _ _ xs _ token reply time h =>
      dsimp only at h
      cases ho : (reply.outcome time).bind readPage with
      | error f => rw [ho] at h; cases h
      | ok r =>
        obtain ⟨first, more⟩ := r
        rw [ho] at h
        cases more with
        | false =>
          obtain ⟨rfl, h⟩ := h.of_done
          cases h
          exact .inl (.last rfl ho)
        | true =>
          obtain ⟨ys, zs, rest, rfl, htrace, hdone⟩ := h.of_bind
          obtain ⟨rfl, hrest⟩ := hdone.of_done
          cases rest with
          | error f => cases hrest
          | ok rest =>
            cases hrest
            rw [List.append_nil]
            obtain h | ⟨hlength, h⟩ := ih htrace
            · exact .inl (.more rfl ho h)
            · exact .inr ⟨congrArg (· + 1) hlength, .cons rfl ho h⟩

theorem FullPages.countP_isAnswer {repository : String} {number : Value} {page : Nat}
    (h : FullPages repository number page xs) : xs.countP (·.reply.isAnswer) = xs.length := by
  induction h with
  | nil => rfl
  | @cons page x xs items hcall hreply h ih =>
    have answered : x.reply.isAnswer = true := by
      cases hr : x.outcome with
      | error f => rw [hr] at hreply; cases hreply
      | ok body => exact Reply.isAnswer_of_outcome hr
    rw [List.countP_cons, ih, answered]
    rfl

/-- A comment comes from an app. -/
def IsBy (app comment : Value) : Prop :=
  ∃ made, commentApp comment = .ok made ∧ made.same app = true

/-- An app has one of the comments. -/
def HasComment (app : Value) (comments : List Value) : Prop :=
  ∃ comment ∈ comments, IsBy app comment

theorem isBy_of_firstOfApp {app own : Value} {comments : List Value}
    (h : firstOfApp app comments = .ok (some own)) : own ∈ comments ∧ IsBy app own := by
  induction comments with
  | nil => cases h
  | cons comment rest ih =>
    unfold firstOfApp at h
    cases hm : commentApp comment with
    | error f => rw [hm] at h; cases h
    | ok made =>
      rw [hm] at h
      cases hs : made.same app with
      | true =>
        simp only [bind, Except.bind, hs, if_true] at h
        cases h
        exact ⟨List.mem_cons_self, made, hm, hs⟩
      | false =>
        simp only [bind, Except.bind, hs, Bool.false_eq_true, if_false, pure, Except.pure] at h
        obtain ⟨hmem, hby⟩ := ih h
        exact ⟨List.mem_cons_of_mem _ hmem, hby⟩

theorem not_isBy_of_firstOfApp {app : Value} {comments : List Value}
    (h : firstOfApp app comments = .ok none) : ∀ comment ∈ comments, ¬ IsBy app comment := by
  induction comments with
  | nil => simp
  | cons comment rest ih =>
    unfold firstOfApp at h
    cases hm : commentApp comment with
    | error f => rw [hm] at h; cases h
    | ok made =>
      rw [hm] at h
      cases hs : made.same app with
      | true => simp only [bind, Except.bind, hs, if_true] at h; cases h
      | false =>
        simp only [bind, Except.bind, hs, Bool.false_eq_true, if_false, pure, Except.pure] at h
        intro other hother
        rcases List.mem_cons.1 hother with rfl | hother
        · rintro ⟨made', hm', hs'⟩
          rw [hm] at hm'
          cases hm'
          rw [hs] at hs'
          cases hs'
        · exact ih h other hother

/-- **The first comment of an app is found if there is one.** -/
theorem isSome_firstOfApp {app : Value} {comments : List Value} {own? : Option Value}
    (h : firstOfApp app comments = .ok own?) : own?.isSome = true ↔ HasComment app comments := by
  cases own? with
  | none =>
    constructor
    · intro hn; cases hn
    · rintro ⟨comment, hmem, hby⟩
      exact absurd hby (not_isBy_of_firstOfApp h comment hmem)
  | some own =>
    obtain ⟨hmem, hby⟩ := isBy_of_firstOfApp h
    exact ⟨fun _ => ⟨own, hmem, hby⟩, fun _ => rfl⟩

theorem commentApp_of_get? {comment made id : Value}
    (hmade : comment.get? "performed_via_github_app" = some made) (hid : made.get? "id" = some id) :
    commentApp comment = .ok id := by
  obtain ⟨entries, rfl, made_eq⟩ := Value.get?_eq_some_iff.1 hmade
  obtain ⟨fields, rfl, id_eq⟩ := Value.get?_eq_some_iff.1 hid
  have content : (Value.map fields).isTruthy = true := by
    cases fields with
    | nil => cases id_eq
    | cons e fields => rfl
  simp only [commentApp, fieldsOf, bind, Except.bind, made_eq, Option.getD_some, content,
    if_true, id_eq]
  rfl

theorem get?_of_commentApp {comment id : Value} (h : commentApp comment = .ok id)
    (hne : id ≠ .null) :
    ∃ made, comment.get? "performed_via_github_app" = some made ∧ made.get? "id" = some id := by
  cases comment with
  | map entries =>
    cases hmade : Value.lookup? "performed_via_github_app" entries with
    | none =>
      simp only [commentApp, fieldsOf, bind, Except.bind, hmade, Option.getD_none] at h
      exact absurd (Except.ok.inj h).symm hne
    | some made =>
      refine ⟨made, hmade, ?_⟩
      simp only [commentApp, fieldsOf, bind, Except.bind, hmade, Option.getD_some] at h
      split at h
      · cases made with
        | map fields =>
          dsimp only at h
          cases hid : Value.lookup? "id" fields with
          | none =>
            rw [hid] at h
            exact absurd (Except.ok.inj h).symm hne
          | some id' =>
            rw [hid] at h
            cases h
            exact hid
        | _ => cases h
      · exact absurd (Except.ok.inj h).symm hne
  | _ => cases h

/-- A comment comes from an app with a number if it was made by an app with that identifier. -/
theorem isBy_int_iff {comment : Value} {n : Int} :
    IsBy (.int n) comment ↔ ∃ made id, comment.get? "performed_via_github_app" = some made ∧
      made.get? "id" = some id ∧ id.same (.int n) = true := by
  constructor
  · rintro ⟨id, hid, hsame⟩
    have hne : id ≠ .null := by
      rintro rfl
      simp [Value.same, Value.sameNumber?, Value.asInt?] at hsame
    obtain ⟨made, hmade, hid⟩ := get?_of_commentApp hid hne
    exact ⟨made, id, hmade, hid, hsame⟩
  · rintro ⟨made, id, hmade, hid, hsame⟩
    exact ⟨id, commentApp_of_get? hmade hid, hsame⟩

theorem isTruthy_of_isBy {comment : Value} {n : Int} (h : IsBy (.int n) comment) :
    comment.isTruthy = true := by
  obtain ⟨made, id, hmade, -⟩ := isBy_int_iff.1 h
  obtain ⟨entries, rfl, made_eq⟩ := Value.get?_eq_some_iff.1 hmade
  cases entries with
  | nil => cases made_eq
  | cons e entries => rfl

/-- The comment of the app that is found has content, if the app is known by a number. -/
theorem filter_of_firstOfApp {n : Int} {comments : List Value} {own? : Option Value}
    (h : firstOfApp (.int n) comments = .ok own?) : own?.filter Value.isTruthy = own? := by
  cases own? with
  | none => rfl
  | some own => rw [Option.filter_some, if_pos (isTruthy_of_isBy (isBy_of_firstOfApp h).2)]

end ActionItems.CheckRun
