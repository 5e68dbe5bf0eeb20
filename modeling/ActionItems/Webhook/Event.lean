import ActionItems.Json.Bytes
import ActionItems.Number.Integer

/-!
# Events of a repository

The body of a delivery tells of an event in a repository: what happened, and to which pull request,
check run or check suite. `Event.ofValue?` reads an event from a document and refuses one without a
repository, with a name that no repository has, or with a part of the wrong form; `Event.ofBytes`
reads it from the bytes of a body. Numbers may come as texts, as long as they are integers.
-/

namespace ActionItems.Webhook

open ActionItems.Number

/-! ### Parts of an event -/

/-- A repository. -/
structure Repository where
  name : String
  fullName : String
deriving Repr, DecidableEq

/-- A pull request of a check, with the commit at its head if that is told. -/
structure PullRequest where
  number : Int
  head? : Option String
deriving Repr, DecidableEq

/-- A check run or a check suite. -/
structure Check where
  id : Int
  headSha : String
  pullRequests : List PullRequest
  /-- The app that the check belongs to. -/
  app? : Option Int
deriving Repr, DecidableEq

/-- The pull request that an event is about. -/
structure Subject where
  number : Int
  headSha : String
deriving Repr, DecidableEq

/-- An event. -/
structure Event where
  action? : Option String
  repository : Repository
  installation? : Option Int
  checkRun? : Option Check
  checkSuite? : Option Check
  pullRequest? : Option Subject
deriving Repr, DecidableEq

/-! ### Reading values -/

/-- The greatest number of bytes in a text that is read as an integer. -/
def integerTextLimit : Nat := 4300

/-- Digits without the zeros in front; underscores after the first zero go with them, and a zero
before a point stays. The text must begin with a digit or a minus sign, and with a digit after
zeros. -/
def dropZeros? (s : List Char) : Option (List Char) :=
  match s with
  | '0' :: rest => go '0' rest
  | c :: _ => if c.isDigit || c = '-' then some s else none
  | [] => none
where
  /-- What is left of a text whose character `last` was dropped before. -/
  go (last : Char) : List Char → Option (List Char)
    | [] => some [last]
    | c :: rest =>
      if c = '0' || c = '_' then go c rest
      else if c = '.' then some (last :: c :: rest)
      else if c.isDigit then some (c :: rest)
      else none

/-- A text without a point and the zeros after it. -/
def dropFraction (s : List Char) : List Char :=
  let whole := s.takeWhile (· ≠ '.')
  match s.dropWhile (· ≠ '.') with
  | _ :: zeros => if !zeros.isEmpty && zeros.all (· = '0') then whole else s
  | [] => s

/-- Whether two underscores follow one another. -/
def hasDoubleGap : List Char → Bool
  | '_' :: '_' :: _ => true
  | _ :: rest => hasDoubleGap rest
  | [] => false

/-- A text without the underscores between its characters. -/
def dropGaps? (s : List Char) : Option (List Char) :=
  if s.head? = some '_' || s.getLast? = some '_' || hasDoubleGap s then none
  else some (s.filter (· ≠ '_'))

/-- The integer that digits with a sign are. -/
def signedDigits? (s : List Char) : Option Int :=
  let (negative, digits) := splitSign s
  if !digits.isEmpty && digits.all Char.isDigit then
    let n : Int := digits.foldl (fun n c => 10 * n + (c.toNat - '0'.toNat)) 0
    some (if negative then -n else n)
  else none

/-- The integer that a text is: digits with a sign, with single underscores between them, and
perhaps a fraction of zeros. -/
def integerText? (s : String) : Option Int := do
  if s.utf8ByteSize > integerTextLimit then none
  let body := Text.stripEndWhile isMargin (s.toList.dropWhile isMargin)
  let unsigned ←
    match body with
    | '+' :: '-' :: _ => none
    | '+' :: rest => some rest
    | _ => some body
  signedDigits? (← dropGaps? (dropFraction (← dropZeros? unsigned)))

/-- The bound that the size of an integer written as a floating-point number is below. -/
def floatIntegerBound : Int := 0x8000000000000000

/-- An integer: a number or a text that is one, or a truth value. -/
def readInteger? : Value → Option Int
  | .int i => some i
  | .bool b => some (if b then 1 else 0)
  | .float x => x.toInt?.filter fun i => -floatIntegerBound < i && i < floatIntegerBound
  | .text s => integerText? s
  | _ => none

/-- A part that may be absent or null. -/
def part? {α : Type} (v : Value) (name : String) (read : Value → Option α) : Option (Option α) :=
  match v.get? name with
  | none | some .null => some none
  | some x => (read x).map some

/-- A part that must be there. -/
def required? {α : Type} (v : Value) (name : String) (read : Value → Option α) : Option α :=
  (v.get? name).bind read

/-- A list. -/
def readList? {α : Type} (read : Value → Option α) : Value → Option (List α)
  | .list items => items.mapM read
  | _ => none

/-! ### Reading events -/

/-- A pull request of a check; its number is positive. -/
def PullRequest.ofValue? (v : Value) : Option PullRequest := do
  let number ← (required? v "number" readInteger?).filter (0 < ·)
  return ⟨number, ← part? v "head" fun h => required? h "sha" Value.text?⟩

/-- The identifier of an object. -/
def identifier? (v : Value) : Option Int := required? v "id" readInteger?

/-- A check; without pull requests it has an empty list of them. -/
def Check.ofValue? (v : Value) : Option Check := do
  let id ← identifier? v
  let headSha ← required? v "head_sha" Value.text?
  let pullRequests ←
    match v.get? "pull_requests" with
    | none => some []
    | some list => readList? PullRequest.ofValue? list
  return ⟨id, headSha, pullRequests, ← part? v "app" identifier?⟩

/-- The pull request that an event is about. -/
def Subject.ofValue? (v : Value) : Option Subject := do
  return ⟨← required? v "number" readInteger?,
    ← required? v "head" fun h => required? h "sha" Value.text?⟩

/-- Whether a character may stand in the name of a repository. -/
def isNameChar (c : Char) : Bool := c.isAlphanum || c = '-' || c = '_' || c = '.'

/-- Whether a text is the name of a repository; a line feed at its end does not count. -/
def isRepositoryName (s : String) : Bool :=
  let body := Text.dropFinalNewline s.toList
  !body.isEmpty && body.all isNameChar

/-- A repository; its full name has an owner and a name. -/
def Repository.ofValue? (v : Value) : Option Repository := do
  let name ← (required? v "name" Value.text?).filter isRepositoryName
  let fullName ← (required? v "full_name" Value.text?).filter fun s => s.toList.contains '/'
  return ⟨name, fullName⟩

/-- An event. -/
def Event.ofValue? (v : Value) : Option Event := do
  let _ ← v.entries?
  return {
    action? := ← part? v "action" Value.text?
    repository := ← required? v "repository" Repository.ofValue?
    installation? := ← part? v "installation" identifier?
    checkRun? := ← part? v "check_run" Check.ofValue?
    checkSuite? := ← part? v "check_suite" Check.ofValue?
    pullRequest? := ← part? v "pull_request" Subject.ofValue? }

/-- Why the body of a delivery is not read. -/
inductive BodyError where
  /-- The body is not JSON. -/
  | json
  /-- The body is no event. -/
  | event
  /-- The body has a number of too many digits. -/
  | number (error : IntegerError)
deriving Repr, DecidableEq

/-- The wording of a body that is not read. -/
def BodyError.message : BodyError → String
  | .json => "Invalid JSON payload"
  | .event => "Invalid webhook payload"
  | .number e => e.message

/-- The event in the bytes of a body. -/
def Event.ofBytes (body : List UInt8) : Except BodyError Event :=
  match Json.readBytes body with
  | .error (.text (.number e)) => .error (.number e)
  | .error _ => .error .json
  | .ok v =>
    match Event.ofValue? v with
    | some event => .ok event
    | none => .error .event

end ActionItems.Webhook
