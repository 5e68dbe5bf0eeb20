import ActionItems.GitHub.Program

/-!
# Listing comments

The comments on a pull request come in pages. `commentsFrom` goes on from page to page as long as
the pages are full, and `findComment` takes the first comment of an app from all of them. A listing
reads no more than `pages` pages, a number that whoever runs it chooses above the number of pages
there can be; `pageBound` is one for a script of replies, and no greater one makes a difference
(`run_commentsFrom_eq`).
-/

namespace ActionItems.GitHub

/-- The fields of a value. -/
def fieldsOf : Value → Except Failure (List (Value × Value))
  | .map entries => .ok entries
  | v => .error (.noFields v)

/-- The items of a page of a listing: those of a list, the keys of a mapping or the characters of a
text. -/
def pageItems : Value → Except Failure (List Value)
  | .list items => .ok items
  | .map entries => .ok (entries.map Prod.fst)
  | .text s => .ok (s.toList.map fun c => .text c.toString)
  | .loose points => .ok (points.map fun n => Value.ofPoints [n])
  | v => .error (.noItems v)

/-- What a page of a listing yields: the items that it adds, and whether there may be more. An empty
page is the last one, whatever it is, and so is one with fewer items than fit on it. -/
def readPage (body : List UInt8) : Except Failure (List Value × Bool) := do
  let document ← readDocument body
  if !document.isTruthy then return ([], false)
  let items ← pageItems document
  return (items, !decide (items.length < pageSize))

/-- The comments on a pull request from a page on, over at most `pages` pages. -/
def commentsFrom (repository : String) (number : Value) : Nat → Nat → Task Failure (List Value)
  | 0, _ => return []
  | pages + 1, page => do
    let body ← (Call.mk repository (.listComments number page)).make
    let (items, more) ← settle (readPage body)
    if more then return items ++ (← commentsFrom repository number pages (page + 1))
    else return items

theorem run_commentsFrom_succ (repository : String) (number : Value) (pages page : Nat) :
    (commentsFrom repository number (pages + 1) page).run =
      Program.ask ⟨repository, .listComments number page⟩ fun outcome =>
        match outcome.bind readPage with
        | .error f => .done (.error f)
        | .ok (items, true) =>
          (commentsFrom repository number pages (page + 1)).run.bind fun rest =>
            .done (rest.map (items ++ ·))
        | .ok (items, false) => .done (.ok items) := by
  simp only [commentsFrom, Call.make, settle, bind, ExceptT.bind, ExceptT.mk, Program.bind, pure,
    ExceptT.pure, ExceptT.run]
  congr 1
  funext outcome
  cases outcome with
  | error f => rfl
  | ok body =>
    simp only [Except.bind, ExceptT.bindCont]
    cases readPage body with
    | error f => rfl
    | ok r =>
      obtain ⟨items, more⟩ := r
      cases more with
      | false => rfl
      | true =>
        simp only [if_true]
        refine congrArg _ (funext fun rest => ?_)
        cases rest <;> rfl

/-- **The bound on pages does not show**: a listing gets no further than the replies of a script. -/
theorem run_commentsFrom_eq (repository : String) (number : Value) (script : List Reply) :
    ∀ {m n : Nat} (_ : script.length < m) (_ : script.length < n) (page : Nat) (clock : Clock)
      (session : Session),
      Program.run clock Service.script (commentsFrom repository number m page).run session script =
        Program.run clock Service.script (commentsFrom repository number n page).run
          session script := by
  induction script with
  | nil =>
    intro m n hm hn page clock session
    obtain ⟨m, rfl⟩ := Nat.exists_eq_add_one.2 hm
    obtain ⟨n, rfl⟩ := Nat.exists_eq_add_one.2 hn
    simp only [run_commentsFrom_succ, Program.run]
    split <;> rfl
  | cons reply rest ih =>
    intro m n hm hn page clock session
    obtain ⟨m, rfl⟩ := Nat.exists_eq_add_one.2 (Nat.zero_lt_of_lt hm)
    obtain ⟨n, rfl⟩ := Nat.exists_eq_add_one.2 (Nat.zero_lt_of_lt hn)
    simp only [List.length_cons] at hm hn
    simp only [run_commentsFrom_succ, Program.run]
    split
    · rfl
    · next accepted _ =>
      simp only [Service.script]
      rcases accepted.settle (clock 0) reply with ⟨t, outcome⟩
      cases outcome.bind readPage with
      | error f => rfl
      | ok r =>
        obtain ⟨items, more⟩ := r
        cases more with
        | false => rfl
        | true =>
          simp only [Program.run_bind]
          rw [ih (by omega : rest.length < m) (by omega : rest.length < n)]

/-- A number of pages that no listing reaches, as there are not as many replies. -/
def pageBound (script : List Reply) : Nat := script.length + 1

/-- The comments on a pull request. -/
def listComments (pages : Nat) (repository : String) (number : Value) : Task Failure (List Value) :=
  commentsFrom repository number pages 1

/-! ### The comment of an app -/

/-- The app that a comment comes from. -/
def commentApp (comment : Value) : Except Failure Value := do
  let made := (Value.lookup? "performed_via_github_app" (← fieldsOf comment)).getD .null
  if made.isTruthy then return (Value.lookup? "id" (← fieldsOf made)).getD .null
  return .null

/-- The first comment that comes from an app. -/
def firstOfApp (app : Value) : List Value → Except Failure (Option Value)
  | [] => .ok none
  | comment :: rest => do
    if (← commentApp comment).same app then return some comment
    firstOfApp app rest

/-- The comment of an app on a pull request, if there is one. -/
def findComment (pages : Nat) (repository : String) (number app : Value) :
    Task Failure (Option Value) := do
  settle (firstOfApp app (← listComments pages repository number))

end ActionItems.GitHub
