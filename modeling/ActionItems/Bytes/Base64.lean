/-!
# Base64

Four characters stand for three bytes. Characters that stand for nothing are passed over, and so is
padding until it completes a group of four; what follows that padding is not read. A text whose last
group is not complete is refused.
-/

namespace ActionItems.Bytes

/-- Why a text is refused. -/
inductive Base64Error where
  /-- The last group is a single character, the one of this number. -/
  | extra (characters : Nat)
  /-- The last group lacks its padding. -/
  | padding
deriving Repr, DecidableEq

/-- The wording of a refusal. -/
def Base64Error.message : Base64Error → String
  | .extra n =>
    "Invalid base64-encoded string: number of data characters (" ++ toString n ++
      ") cannot be 1 more than a multiple of 4"
  | .padding => "Incorrect padding"

/-- The six bits that a character stands for. -/
def sextet? (b : UInt8) : Option Nat :=
  let c := Char.ofNat b.toNat
  if 'A' ≤ c ∧ c ≤ 'Z' then some (c.toNat - 'A'.toNat)
  else if 'a' ≤ c ∧ c ≤ 'z' then some (c.toNat - 'a'.toNat + 26)
  else if '0' ≤ c ∧ c ≤ '9' then some (c.toNat - '0'.toNat + 52)
  else if c = '+' then some 62
  else if c = '/' then some 63
  else none

/-- What was read of a text: the bytes so far in reverse, the characters of the current group, the
bits of the last one that belong to the next byte, and the padding since then. -/
structure Base64Progress where
  bytes : List UInt8 := []
  group : Nat := 0
  bits : Nat := 0
  pads : Nat := 0
deriving Repr, DecidableEq

/-- The state after a character that stands for six bits. -/
def Base64Progress.add (p : Base64Progress) (n : Nat) : Base64Progress :=
  match p.group with
  | 0 => ⟨p.bytes, 1, n, 0⟩
  | 1 => ⟨UInt8.ofNat (p.bits * 4 + n / 16) :: p.bytes, 2, n % 16, 0⟩
  | 2 => ⟨UInt8.ofNat (p.bits * 16 + n / 4) :: p.bytes, 3, n % 4, 0⟩
  | _ => ⟨UInt8.ofNat (p.bits * 64 + n) :: p.bytes, 0, 0, 0⟩

/-- The bytes of a text that ends here. -/
def Base64Progress.finish (p : Base64Progress) : Except Base64Error (List UInt8) :=
  match p.group with
  | 0 => .ok p.bytes.reverse
  | 1 => .error (.extra (p.bytes.length / 3 * 4 + 1))
  | _ => .error .padding

/-- Reads the rest of a text. -/
def Base64Progress.read (p : Base64Progress) : List UInt8 → Except Base64Error (List UInt8)
  | [] => p.finish
  | b :: rest =>
    if b = 0x3D then
      if p.group ≥ 2 then
        if p.group + p.pads + 1 ≥ 4 then .ok p.bytes.reverse
        else Base64Progress.read { p with pads := p.pads + 1 } rest
      else Base64Progress.read p rest
    else
      match sextet? b with
      | some n => Base64Progress.read (p.add n) rest
      | none => Base64Progress.read p rest

/-- The bytes that a text stands for. -/
def decodeBase64 (text : List UInt8) : Except Base64Error (List UInt8) :=
  Base64Progress.read {} text

end ActionItems.Bytes
