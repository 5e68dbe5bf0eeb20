/-!
# Blocks of a message

The secure hash functions read a message in blocks of sixteen words of 32 bits. The message is
followed by a one bit, zeros and its length in bits (`pad`), so that it fills whole blocks; the most
significant byte of a word comes first.
-/

namespace ActionItems.Digest

/-- The number of bytes in a block. -/
def blockSize : Nat := 64

/-- The number of bytes for the length at the end of a message. -/
def lengthSize : Nat := 8

/-- `n` as `width` bytes, the most significant one first. -/
def bigEndian : Nat → Nat → List UInt8
  | 0, _ => []
  | width + 1, n => bigEndian width (n / 256) ++ [UInt8.ofNat (n % 256)]

/-- What follows a message of a length in bytes. -/
def padding (length : Nat) : List UInt8 :=
  let zeros := blockSize - 1 - (length + lengthSize) % blockSize
  0x80 :: List.replicate zeros 0 ++ bigEndian lengthSize (8 * length)

/-- A message and what follows it. -/
def pad (message : List UInt8) : List UInt8 := message ++ padding message.length

/-- Bytes as words of four. -/
def toWords : List UInt8 → List UInt32
  | a :: b :: c :: d :: rest =>
    (a.toUInt32 <<< 24 ||| b.toUInt32 <<< 16 ||| c.toUInt32 <<< 8 ||| d.toUInt32) :: toWords rest
  | _ => []

/-- Words in blocks of sixteen; `fuel` bounds their number. -/
def toBlocks : Nat → List UInt32 → List (List UInt32)
  | 0, _ => []
  | fuel + 1, words => if words.isEmpty then [] else words.take 16 :: toBlocks fuel (words.drop 16)

/-- The blocks of a message. -/
def blocks (message : List UInt8) : List (List UInt32) :=
  let words := toWords (pad message)
  toBlocks words.length words

/-- A word turned left by a number of bits below 32. -/
def turnLeft (x n : UInt32) : UInt32 := x <<< n ||| x >>> (32 - n)

/-- A word turned right by a number of bits below 32. -/
def turnRight (x n : UInt32) : UInt32 := x >>> n ||| x <<< (32 - n)

/-- Words as bytes. -/
def ofWords (words : List UInt32) : List UInt8 := words.flatMap fun w => bigEndian 4 w.toNat

end ActionItems.Digest
