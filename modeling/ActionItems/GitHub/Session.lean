import ActionItems.GitHub.Call
import ActionItems.GitHub.Failure
import ActionItems.Text.Case

/-!
# Sessions

A `Session` is what a client knows between two calls: the tokens it may still use, and how many
calls the service said are left until when. `Session.accept` refuses a call while too few are left
and takes the token of any other; `Session.settle` reads a `Reply`, first its headers and then its
status, and yields the body of a reply that is no error.
-/

namespace ActionItems.GitHub

open ActionItems.Number (readInteger)

/-- What comes back for a call. -/
inductive Reply where
  | answer (status : Int) (headers : List (String × String)) (body : List UInt8)
  /-- Nothing came back, for a reason. -/
  | lost (reason : String)
deriving Repr, DecidableEq

/-- The value of a header; the case of its name does not count, and the last of several does. -/
def header? (name : String) (headers : List (String × String)) : Option String :=
  (headers.reverse.find? fun (n, _) => Text.lowerString n == Text.lowerString name).map Prod.snd

/-- Where tokens come from. -/
inductive TokenSource where
  /-- The same token every time. -/
  | fixed (token : String)
  /-- The next one every time, as long as there are any. -/
  | supply (tokens : List String)
deriving Repr, DecidableEq

/-- The next token, and what is left. -/
def TokenSource.take? : TokenSource → Option (String × TokenSource)
  | fixed token => some (token, fixed token)
  | supply [] => none
  | supply (token :: rest) => some (token, supply rest)

@[simp] theorem TokenSource.take?_fixed (token : String) :
    (fixed token).take? = some (token, fixed token) := rfl

/-- What a client knows between two calls. -/
structure Session where
  tokens : TokenSource
  /-- The number of calls left. -/
  remaining : Int := 5000
  /-- When the number of calls left is reset. -/
  reset? : Option Instant := none
deriving Repr, DecidableEq

namespace Session

/-- The number of calls that are not made any more. -/
def reserve : Int := 10

/-- When the session accepts calls again, if it does not at `now`. -/
def closedUntil? (s : Session) (now : Instant) : Option Instant :=
  if s.remaining ≤ reserve then s.reset?.filter now.before else none

theorem closedUntil?_eq_some_iff {s : Session} {now reset : Instant} :
    s.closedUntil? now = some reset ↔
      s.remaining ≤ reserve ∧ s.reset? = some reset ∧ now.before reset = true := by
  simp only [closedUntil?]
  split
  · next h => simp [h, Option.filter_eq_some_iff]
  · next h => simp [h]

/-- The token for a call at `now`, and the session after it is taken. -/
def accept (s : Session) (now : Instant) : Except Failure (String × Session) :=
  match s.closedUntil? now with
  | some reset => .error (.closed reset)
  | none =>
    match s.tokens.take? with
    | none => .error .noToken
    | some (token, rest) => .ok (token, { s with tokens := rest })

theorem accept_of_closedUntil? {s : Session} {now reset : Instant}
    (h : s.closedUntil? now = some reset) : s.accept now = .error (.closed reset) := by
  simp [accept, h]

/-- A call is accepted by an open session with the next token, and nothing but the tokens
changes. -/
theorem accept_eq_ok_iff {s t : Session} {now : Instant} {token : String} :
    s.accept now = .ok (token, t) ↔ s.closedUntil? now = none ∧
      ∃ rest, s.tokens.take? = some (token, rest) ∧ t = { s with tokens := rest } := by
  unfold accept
  constructor
  · intro h
    split at h
    · cases h
    · next hopen =>
      split at h
      · cases h
      · next token' rest htake =>
        cases h
        exact ⟨hopen, rest, htake, rfl⟩
  · rintro ⟨hopen, rest, htake, rfl⟩
    simp only [hopen, htake]

/-- The header with the number of calls left. -/
def remainingHeader : String := "X-RateLimit-Remaining"

/-- The header with the time at which that number is reset, in seconds since the start of 1970. -/
def resetHeader : String := "X-RateLimit-Reset"

/-- The session after the header with the number of calls left. -/
def readRemaining (s : Session) (headers : List (String × String)) : Except Failure Session :=
  match header? remainingHeader headers with
  | none => .ok s
  | some text =>
    match readInteger 10 text with
    | .ok n => .ok { s with remaining := n }
    | .error e => .error (.header e)

/-- The session after the header with the time of the reset. -/
def readReset (s : Session) (headers : List (String × String)) : Except Failure Session :=
  match header? resetHeader headers with
  | none => .ok s
  | some text =>
    match readInteger 10 text with
    | .error e => .error (.header e)
    | .ok n =>
      match Instant.ofSeconds n with
      | .ok reset => .ok { s with reset? := some reset }
      | .error e => .error (.instant e)

/-- The session after the headers of a reply, and what is wrong with them. What was read before a
fault stays. -/
def readHeaders (s : Session) (headers : List (String × String)) : Session × Option Failure :=
  match s.readRemaining headers with
  | .error f => (s, some f)
  | .ok t =>
    match t.readReset headers with
    | .error f => (t, some f)
    | .ok u => (u, none)

end Session

/-- The status of a reply to more calls than are allowed. -/
def tooManyCalls : Int := 429

/-- The number of seconds that a client waits if it is not told how long. -/
def defaultWait : Int := 3600

/-- The status of a reply about something that is not there. -/
def notFound : Int := 404

/-- Whether a status is that of an error. -/
def isErrorStatus (status : Int) : Bool := decide (400 ≤ status) && decide (status < 600)

/-- The document in a body. -/
def readDocument (body : List UInt8) : Except Failure Value :=
  (Json.read (Bytes.decodeLossy body)).mapError .document

/-- The document in the body of an error; there may be none. -/
def errorDocument (body : List UInt8) : Value :=
  if body.isEmpty then .map []
  else
    match readDocument body with
    | .ok v => v
    | .error _ => .map []

/-- The failure that the status of an error is. -/
def refusal (status : Int) (body : List UInt8) : Failure :=
  match errorDocument body with
  | .map entries => .refused status (.map entries)
  | v => .noFields v

/-- What the status of a reply makes of its body; `reset?` is when calls are accepted again. -/
def checkStatus (now : Instant) (reset? : Option Instant) (status : Int) (body : List UInt8) :
    Except Failure (List UInt8) :=
  if status = tooManyCalls then .error (.closed (reset?.getD (now.after defaultWait)))
  else if isErrorStatus status then .error (refusal status body)
  else .ok body

/-- The session after a reply, and the body of the reply. -/
def Session.settle (s : Session) (now : Instant) : Reply → Session × Except Failure (List UInt8)
  | .lost reason => (s, .error (.lost reason))
  | .answer status headers body =>
    match s.readHeaders headers with
    | (t, some f) => (t, .error f)
    | (t, none) =>
      let reset? := (header? Session.resetHeader headers).bind fun _ => t.reset?
      (t, checkStatus now reset? status body)

@[simp] theorem Session.settle_lost (s : Session) (now : Instant) (reason : String) :
    s.settle now (.lost reason) = (s, .error (.lost reason)) := rfl

end ActionItems.GitHub
