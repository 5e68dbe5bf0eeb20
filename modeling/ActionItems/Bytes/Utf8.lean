import ActionItems.Text.Quoted

/-!
# UTF-8

Bytes are read as code points one byte at a time. A first byte says how many bytes it is owed and
which of them may come next (`lead`); a byte that may not come ends the sequence as a fault and is
then read as a first byte itself. `pieces` lists code points and faults in order. `decode` refuses
bytes with a fault and says where it is, `decodeLossy` shows every fault as the replacement
character, and `decodeLoose` reads the halves of surrogate pairs as code points of their own.
`encode` writes a text.
-/

namespace ActionItems.Bytes

open ActionItems.Text

/-- What is wrong with bytes that are no UTF-8. -/
inductive Utf8Fault where
  /-- No sequence begins with the byte. -/
  | start
  /-- A byte that a sequence is owed does not come. -/
  | continuation
  /-- The bytes end within a sequence. -/
  | truncated
deriving Repr, DecidableEq

/-- A fault, with the first byte of the sequence that has it, its place and the number of bytes
read. -/
structure Utf8Error where
  fault : Utf8Fault
  first : UInt8
  offset : Nat
  width : Nat
deriving Repr, DecidableEq

/-- The wording of a fault without its place. -/
def Utf8Fault.message : Utf8Fault → String
  | .start => "invalid start byte"
  | .continuation => "invalid continuation byte"
  | .truncated => "unexpected end of data"

/-- The wording of a fault. -/
def Utf8Error.message (e : Utf8Error) : String :=
  let place :=
    if e.width = 1 then
      "byte 0x" ++ String.ofList (hexPadded 2 e.first.toNat) ++ " in position " ++ toString e.offset
    else
      "bytes in position " ++ toString e.offset ++ "-" ++ toString (e.offset + e.width - 1)
  "'utf-8' codec can't decode " ++ place ++ ": " ++ e.fault.message

/-- A sequence of which not all bytes are read: how many are owed, the bounds of the next one, the
value so far, the first byte and the number of bytes read. -/
structure Owed where
  more : Nat
  low : Nat
  high : Nat
  value : Nat
  first : UInt8
  width : Nat
deriving Repr, DecidableEq

/-- What a first byte begins. -/
inductive Lead where
  | point (n : Nat)
  | owed (o : Owed)
  | none
deriving Repr, DecidableEq

/-- What a first byte begins; `loose` says that surrogates may be read. -/
def lead (loose : Bool) (b : UInt8) : Lead :=
  let n := b.toNat
  if n < 0x80 then .point n
  else if n < 0xC2 then .none
  else if n < 0xE0 then .owed ⟨1, 0x80, 0xBF, n - 0xC0, b, 1⟩
  else if n < 0xF0 then
    .owed ⟨2, if n = 0xE0 then 0xA0 else 0x80, if n = 0xED && !loose then 0x9F else 0xBF,
      n - 0xE0, b, 1⟩
  else if n < 0xF5 then
    .owed ⟨3, if n = 0xF0 then 0x90 else 0x80, if n = 0xF4 then 0x8F else 0xBF, n - 0xF0, b, 1⟩
  else .none

/-- A code point or a fault. -/
inductive Piece where
  | point (n : Nat)
  | fault (error : Utf8Error)
deriving Repr, DecidableEq

/-- The fault of a sequence that is not completed; `offset` is the place after its bytes. -/
def Owed.broken (o : Owed) (fault : Utf8Fault) (offset : Nat) : Piece :=
  .fault ⟨fault, o.first, offset - o.width, o.width⟩

/-- What a byte read as a first byte gives at once, and the sequence that it begins. -/
def begin? (loose : Bool) (offset : Nat) (b : UInt8) : List Piece × Option Owed :=
  match lead loose b with
  | .point n => ([.point n], none)
  | .owed o => ([], some o)
  | .none => ([.fault ⟨.start, b, offset, 1⟩], none)

/-- What a byte gives at once, and the sequence that it leaves incomplete. -/
def step (loose : Bool) (offset : Nat) (owed? : Option Owed) (b : UInt8) :
    List Piece × Option Owed :=
  match owed? with
  | none => begin? loose offset b
  | some o =>
    let n := b.toNat
    if o.low ≤ n ∧ n ≤ o.high then
      let value := o.value * 64 + (n - 0x80)
      if o.more ≤ 1 then ([.point value], none)
      else ([], some ⟨o.more - 1, 0x80, 0xBF, value, o.first, o.width + 1⟩)
    else
      let (now, later?) := begin? loose offset b
      (o.broken .continuation offset :: now, later?)

/-- The code points and faults of bytes that stand at `offset`, behind a sequence that may be
incomplete. -/
def piecesFrom (loose : Bool) (offset : Nat) (owed? : Option Owed) : List UInt8 → List Piece
  | [] =>
    match owed? with
    | none => []
    | some o => [o.broken .truncated offset]
  | b :: rest =>
    let (now, later?) := step loose offset owed? b
    now ++ piecesFrom loose (offset + 1) later? rest

/-- The code points and faults of bytes. -/
def pieces (loose : Bool) (bytes : List UInt8) : List Piece := piecesFrom loose 0 none bytes

/-- The code points of pieces without faults. -/
def strictPoints : List Piece → Except Utf8Error (List Nat)
  | [] => .ok []
  | .fault e :: _ => .error e
  | .point n :: rest =>
    match strictPoints rest with
    | .ok ns => .ok (n :: ns)
    | .error e => .error e

/-- The text that bytes are, unless they have a fault. -/
def decode (bytes : List UInt8) : Except Utf8Error String :=
  match strictPoints (pieces false bytes) with
  | .ok ns => .ok (String.ofList (ns.map Char.ofNat))
  | .error e => .error e

/-- The character that stands for a fault. -/
def replacement : Char := '\ufffd'

/-- The text that bytes are, with the replacement character for every fault. -/
def decodeLossy (bytes : List UInt8) : String :=
  String.ofList ((pieces false bytes).map fun
    | .point n => Char.ofNat n
    | .fault _ => replacement)

/-- The code points that bytes are, surrogates included, unless they have a fault. -/
def decodeLoose (bytes : List UInt8) : Except Utf8Error (List Nat) :=
  strictPoints (pieces true bytes)

/-- The bytes of a text. -/
def encode (s : String) : List UInt8 := s.toUTF8.toList

end ActionItems.Bytes
