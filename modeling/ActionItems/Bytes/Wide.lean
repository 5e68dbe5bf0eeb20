/-!
# Encodings in units of two and four bytes

Code points in units of a fixed size: `units?` reads the units, `joinHalves` joins the two halves of
a surrogate pair into the code point that they stand for, and leaves a half without its other as a
code point of its own.
-/

namespace ActionItems.Bytes

/-- Which byte of a unit comes first. -/
inductive ByteOrder where
  | bigFirst
  | littleFirst
deriving Repr, DecidableEq

/-- The number that bytes are in an order. -/
def ByteOrder.number (o : ByteOrder) (bytes : List UInt8) : Nat :=
  let bigFirst := match o with
    | .bigFirst => bytes
    | .littleFirst => bytes.reverse
  bigFirst.foldl (fun n b => 256 * n + b.toNat) 0

/-- The units of two bytes; `none` if a byte is left over. -/
def units16? (o : ByteOrder) : List UInt8 → Option (List Nat)
  | [] => some []
  | [_] => none
  | a :: b :: rest => (units16? o rest).map (o.number [a, b] :: ·)

/-- The units of four bytes; `none` if bytes are left over or a unit is no code point. -/
def units32? (o : ByteOrder) : List UInt8 → Option (List Nat)
  | [] => some []
  | a :: b :: c :: d :: rest =>
    let n := o.number [a, b, c, d]
    if n ≤ 0x10FFFF then (units32? o rest).map (n :: ·) else none
  | _ => none

/-- Whether a unit is the first half of a surrogate pair. -/
def isHighHalf (n : Nat) : Bool := decide (0xD800 ≤ n) && decide (n < 0xDC00)

/-- Whether a unit is the second half of a surrogate pair. -/
def isLowHalf (n : Nat) : Bool := decide (0xDC00 ≤ n) && decide (n < 0xE000)

/-- The code point of a surrogate pair. -/
def joinPair (high low : Nat) : Nat := 0x10000 + (high - 0xD800) * 0x400 + (low - 0xDC00)

/-- The code points of units of two bytes. -/
def joinHalves : List Nat → List Nat
  | high :: low :: rest =>
    if isHighHalf high && isLowHalf low then joinPair high low :: joinHalves rest
    else high :: joinHalves (low :: rest)
  | units => units

end ActionItems.Bytes
