import ActionItems.Bytes.Base64
import ActionItems.Bytes.Utf8
import ActionItems.Instant
import ActionItems.Json.Reader

/-!
# Failures of calls

Why a call comes to nothing: it is not made (`closed`, `noToken`), it is lost on the way, its reply
has headers that cannot be read or a status that refuses it, or the document in the reply is not
what the call needs. `Failure.message` is the wording.
-/

namespace ActionItems.GitHub

/-- Why a call comes to nothing. -/
inductive Failure where
  /-- Too few calls are left until a point in time. -/
  | closed (reset : Instant)
  /-- No token is left to make the call with. -/
  | noToken
  /-- There was no reply. -/
  | lost (reason : String)
  /-- A header is not the integer that it has to be. -/
  | header (error : Number.IntegerError)
  /-- The point in time in a header cannot be. -/
  | instant (error : InstantError)
  /-- The status of the reply is that of an error; its document says more. -/
  | refused (status : Int) (document : Value)
  /-- The reply holds no document. -/
  | document (error : Json.ReadError)
  /-- A value without fields stands where fields are looked up. -/
  | noFields (value : Value)
  /-- A value without items stands where a list is read. -/
  | noItems (value : Value)
  /-- The content of a file is not written as text. -/
  | contentKind (value : Value)
  /-- The content of a file is written in other characters than ASCII. -/
  | contentText
  | content (error : Bytes.Base64Error)
  | encoding (error : Bytes.Utf8Error)
deriving Repr

/-- What is said about an error by its document. -/
def errorText (document : Value) : String :=
  ((document.get? "message").map Value.display).getD "Unknown error"

/-- The wording of a number of digits or a place in a document that is not read. -/
def documentMessage : Json.ReadError → String
  | .malformed e => e.message
  | .number e => e.message

/-- The wording of a failure. -/
def Failure.message : Failure → String
  | .closed reset => "Rate limit exceeded. Resets at " ++ reset.text
  | .noToken => ""
  | .lost reason => "Request failed: " ++ reason
  | .header e => e.message
  | .instant e => e.message
  | .refused status said =>
    "GitHub API error: " ++ Number.showInt status ++ " - " ++ errorText said
  | .document e => documentMessage e
  | .noFields v => "'" ++ v.kindName ++ "' object has no attribute 'get'"
  | .noItems v => "'" ++ v.kindName ++ "' object is not iterable"
  | .contentKind v =>
    "argument should be a bytes-like object or ASCII string, not '" ++ v.kindName ++ "'"
  | .contentText => "string argument should contain only ASCII characters"
  | .content e => e.message
  | .encoding e => e.message

end ActionItems.GitHub
