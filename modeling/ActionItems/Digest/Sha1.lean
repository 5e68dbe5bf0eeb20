import ActionItems.Digest.Block

/-!
# SHA-1

The secure hash function of 160 bits: five words are stirred with every block of the message in four
times twenty rounds, each with a word made from the block.
-/

namespace ActionItems.Digest.Sha1

/-- The five words that are stirred. -/
structure State where
  a : UInt32
  b : UInt32
  c : UInt32
  d : UInt32
  e : UInt32
deriving Repr, DecidableEq

/-- The words before the first block. -/
def State.initial : State := ⟨0x67452301, 0xEFCDAB89, 0x98BADCFE, 0x10325476, 0xC3D2E1F0⟩

/-- The words of two states added one by one. -/
def State.add (s t : State) : State := ⟨s.a + t.a, s.b + t.b, s.c + t.c, s.d + t.d, s.e + t.e⟩

/-- The word that follows sixteen words. -/
def nextWord (words : List UInt32) : UInt32 :=
  let word (n : Nat) : UInt32 := words.getD n 0
  turnLeft (word 13 ^^^ word 8 ^^^ word 2 ^^^ word 0) 1

/-- What the rounds of one phase do with the words `b`, `c` and `d`, and their constant. -/
def phase (s : State) (round : Nat) : UInt32 × UInt32 :=
  if round < 20 then ((s.b &&& s.c) ||| ((~~~ s.b) &&& s.d), 0x5A827999)
  else if round < 40 then (s.b ^^^ s.c ^^^ s.d, 0x6ED9EBA1)
  else if round < 60 then ((s.b &&& s.c) ||| (s.b &&& s.d) ||| (s.c &&& s.d), 0x8F1BBCDC)
  else (s.b ^^^ s.c ^^^ s.d, 0xCA62C1D6)

/-- The number of rounds for a block. -/
def roundCount : Nat := 80

/-- One round with a word. -/
def State.round (s : State) (number : Nat) (word : UInt32) : State :=
  let (mixed, constant) := phase s number
  ⟨turnLeft s.a 5 + mixed + s.e + constant + word, s.a, turnLeft s.b 30, s.c, s.d⟩

/-- The last `left` rounds, with the sixteen words that come next. -/
def State.rounds (s : State) (words : List UInt32) : Nat → State
  | 0 => s
  | left + 1 =>
    State.rounds (s.round (roundCount - (left + 1)) (words.headD 0))
      (words.drop 1 ++ [nextWord words]) left

/-- The words after a block. -/
def State.stir (s : State) (block : List UInt32) : State := s.add (s.rounds block roundCount)

/-- The words of a state in order. -/
def State.words (s : State) : List UInt32 := [s.a, s.b, s.c, s.d, s.e]

/-- The digest of a message. -/
def digest (message : List UInt8) : List UInt8 :=
  ofWords ((blocks message).foldl State.stir State.initial).words

end ActionItems.Digest.Sha1
