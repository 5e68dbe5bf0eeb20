import ActionItems.Digest.Sha1
import ActionItems.Digest.Sha256
import ActionItems.Text.Quoted

/-!
# Keyed digests

The digest of a message under a secret key: the message is hashed behind the key turned into one
block, and the result once more behind the same key turned into another. A longer key is hashed
first.
-/

namespace ActionItems.Digest

/-- A hash function. -/
inductive Method where
  | sha1
  | sha256
deriving Repr, DecidableEq

/-- The digest of a message. -/
def Method.digest : Method → List UInt8 → List UInt8
  | .sha1 => Sha1.digest
  | .sha256 => Sha256.digest

/-- A key as one block. -/
def Method.keyBlock (m : Method) (key : List UInt8) : List UInt8 :=
  let key := if key.length > blockSize then m.digest key else key
  key ++ List.replicate (blockSize - key.length) 0

/-- The digest of a message under a key. -/
def Method.keyed (m : Method) (key message : List UInt8) : List UInt8 :=
  let block := m.keyBlock key
  m.digest (block.map (· ^^^ 0x5C) ++ m.digest (block.map (· ^^^ 0x36) ++ message))

/-- Bytes in base sixteen, in small letters. -/
def hex (bytes : List UInt8) : String :=
  String.ofList (bytes.flatMap fun b => Text.hexPadded 2 b.toNat)

end ActionItems.Digest
