import ActionItems.GitHub.Listing

/-!
# Tasks

What is done with a single call: reading the diff of a pull request or the text of a file, and
writing comments and check runs. Each is a `Task` that yields what the service replies. A file that
the service does not have has no text, which is no failure.
-/

namespace ActionItems.GitHub

/-- The document that a call yields. -/
def Call.document (call : Call) : Task Failure Value := do
  settle (readDocument (← call.make))

/-! ### Reading -/

/-- The diff of a pull request. -/
def fetchDiff (repository : String) (number : Value) : Task Failure String := do
  return Bytes.decodeLossy (← (Call.mk repository (.fetchDiff number)).make)

/-- The bytes that the content of a file stands for. -/
def contentBytes : Value → Except Failure (List UInt8)
  | .text s =>
    if s.toList.all (·.toNat < 128) then (Bytes.decodeBase64 (Bytes.encode s)).mapError .content
    else .error .contentText
  | .loose _ => .error .contentText
  | v => .error (.contentKind v)

/-- The text of a file, given the document that describes it; there is none without content. -/
def fileText (document : Value) : Except Failure (Option String) := do
  match (Value.lookup? "content" (← fieldsOf document)).getD .null with
  | .null => return none
  | content => return some (← (Bytes.decode (← contentBytes content)).mapError .encoding)

/-- Whether a failure says that something is not there. -/
def Failure.isNotFound : Failure → Bool
  | .refused status _ => status = notFound
  | _ => false

/-- The text of a file at a commit, if there is one. -/
def fetchFile (repository path : String) (commit : Value) : Task Failure (Option String) := do
  let outcome ← ExceptT.lift (Call.mk repository (.fetchFile path commit)).make.run
  match outcome with
  | .error f => if f.isNotFound then return none else throw f
  | .ok body => settle ((readDocument body).bind fileText)

/-! ### Writing -/

/-- Comments on a pull request with a text. -/
def createComment (repository : String) (number body : Value) : Task Failure Value :=
  (Call.mk repository (.createComment number body)).document

/-- Replaces the text of a comment. -/
def updateComment (repository : String) (id body : Value) : Task Failure Value :=
  (Call.mk repository (.updateComment id body)).document

/-- Creates a check run on a commit. -/
def createCheckRun (repository : String) (name commit status : Value) : Task Failure Value :=
  (Call.mk repository (.createCheckRun name commit status)).document

/-- Sets fields of a check run. -/
def updateCheckRun (repository : String) (id : Value) (fields : List (String × Value)) :
    Task Failure Value :=
  (Call.mk repository (.updateCheckRun id fields)).document

end ActionItems.GitHub
