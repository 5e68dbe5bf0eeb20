import ActionItems.Bytes.Utf8
import ActionItems.Bytes.Wide
import ActionItems.Json.Reader

/-!
# JSON in bytes

A JSON text begins with an ASCII character, so its first bytes show how it is encoded, also without
a byte order mark: where zeros stand says how wide a unit is and which of its bytes comes first.
`Encoding.detect` looks at them, and `readBytes` reads bytes as a value.
-/

namespace ActionItems.Json

open ActionItems.Bytes

/-- How a text is encoded. -/
inductive Encoding where
  | utf8
  | utf16 (order : ByteOrder)
  | utf32 (order : ByteOrder)
deriving Repr, DecidableEq

/-- Why bytes are not read. -/
inductive BytesError where
  | encoding
  | text (error : ReadError)
deriving Repr, DecidableEq

/-- The byte order marks with their encodings; a mark that begins with another one comes first. -/
def byteOrderMarks : List (List UInt8 × Encoding) := [
  ([0x00, 0x00, 0xFE, 0xFF], .utf32 .bigFirst),
  ([0xFF, 0xFE, 0x00, 0x00], .utf32 .littleFirst),
  ([0xFE, 0xFF], .utf16 .bigFirst),
  ([0xFF, 0xFE], .utf16 .littleFirst),
  ([0xEF, 0xBB, 0xBF], .utf8)]

/-- The encoding that the zeros among the first bytes show. -/
def Encoding.ofZeros : List UInt8 → Encoding
  | a :: b :: c :: d :: _ =>
    if a = 0 then if b = 0 then .utf32 .bigFirst else .utf16 .bigFirst
    else if b = 0 then if c = 0 && d = 0 then .utf32 .littleFirst else .utf16 .littleFirst
    else .utf8
  | [a, b] => if a = 0 then .utf16 .bigFirst else if b = 0 then .utf16 .littleFirst else .utf8
  | _ => .utf8

/-- The encoding of bytes, and the bytes without a byte order mark. -/
def Encoding.detect (bytes : List UInt8) : Encoding × List UInt8 :=
  match byteOrderMarks.find? fun (mark, _) => mark.isPrefixOf bytes with
  | some (mark, encoding) => (encoding, bytes.drop mark.length)
  | none => (.ofZeros bytes, bytes)

/-- The code points of bytes. -/
def Encoding.decode? : Encoding → List UInt8 → Option (List Nat)
  | .utf8, bytes => (decodeLoose bytes).toOption
  | .utf16 order, bytes => (units16? order bytes).map joinHalves
  | .utf32 order, bytes => units32? order bytes

/-- Reads bytes as a value. -/
def readBytes (bytes : List UInt8) : Except BytesError Value :=
  let (encoding, body) := Encoding.detect bytes
  match encoding.decode? body with
  | none => .error .encoding
  | some points => (readPoints points).mapError .text

end ActionItems.Json
