import ActionItems.Text.CaseTable

/-!
# Small letters and comparison without case

`smallLetter` takes a capital to its small letter, one character to one character, and `foldCase`
goes one step further: it names one letter for all letters that count as the same when case is
ignored. `lower` writes a whole text in small letters; there a sigma that ends a word gets its final
form and the dotted capital I becomes two characters.
-/

namespace ActionItems.Text

/-- The small letter of a code point above ASCII. -/
def smallLetterAbove (n : Nat) : Nat :=
  match capitalRuns.find? fun (first, last, step, _, _) =>
      decide (first ≤ n) && decide (n ≤ last) && (n - first) % step == 0 with
  | some (_, _, _, up, down) => n + up - down
  | none => n

/-- The small letter of a character, the character itself if it has none. -/
def smallLetter (c : Char) : Char :=
  if c.toNat < 128 then c.toLower else Char.ofNat (smallLetterAbove c.toNat)

/-- The one letter that stands for a letter and all its variants when case is ignored. -/
def foldCase (c : Char) : Char :=
  let small := smallLetter c
  if small.toNat < 128 then small
  else
    match variants.lookup small.toNat with
    | some n => Char.ofNat n
    | none => small

/-- Two characters are the same letter when case is ignored. -/
def sameLetter (a b : Char) : Bool := foldCase a == foldCase b

theorem sameLetter_refl (a : Char) : sameLetter a a = true := by
  simp [sameLetter]

/-- The first character that decides where a word ends is one that has a case. -/
def meetsCased (chars : List Char) : Bool :=
  match chars.dropWhile fun c => ignorableRanges.contains c.toNat with
  | [] => false
  | c :: _ => casedRanges.contains c.toNat

/-- The small form of a sigma between the text before it, read backwards, and the text after it. -/
def smallSigma (before after : List Char) : Char :=
  if meetsCased before && !meetsCased after then 'ς' else 'σ'

/-- Small letters of `chars`, where `before` is the text before them read backwards. -/
def lowerAfter (before : List Char) : List Char → List Char
  | [] => []
  | c :: rest =>
    if c = 'Σ' then smallSigma before rest :: lowerAfter (c :: before) rest
    else if c = 'İ' then 'i' :: '\u0307' :: lowerAfter (c :: before) rest
    else smallLetter c :: lowerAfter (c :: before) rest

/-- A text in small letters. -/
def lower (chars : List Char) : List Char := lowerAfter [] chars

/-- A string in small letters. -/
def lowerString (s : String) : String := String.ofList (lower s.toList)

end ActionItems.Text
