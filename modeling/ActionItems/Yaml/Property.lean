import ActionItems.Bytes.Utf8
import ActionItems.Yaml.ScalarText

/-!
# Properties and directives in a YAML text

What may stand in front of a node: an anchor or the name of one (`anchorName`), and a tag, written
out between angle brackets or as a handle with a suffix (`tagToken`). Directives stand at the start
of a line before a document: they give the version of the language and the meaning of tag handles
(`directiveToken`).
-/

namespace ActionItems.Yaml

/-- Whether a character may stand in the name of an anchor, a tag handle or a directive. -/
def isNameChar (c : Char) : Bool := c.isAlphanum || c = '-' || c = '_'

/-- The marks that may stand in a tag. -/
def tagMarks : List Char := "-;/?:@&=+$,_.!~*'()[]%".toList

/-- Whether a character may stand in a tag. -/
def isTagChar (c : Char) : Bool := c.isAlphanum || tagMarks.contains c

/-- Whether what follows the name of an anchor may follow it. -/
def endsAnchor (c? : Option Char) : Bool :=
  endsToken c? || c?.any fun c => ['?', ':', ',', ']', '\x7d', '%', '@', '\x60'].contains c

/-- The name of an anchor after its sign, and the place after it. -/
def anchorName (c : Cursor) : Except Error (String × Cursor) :=
  let (name, after) := c.takeWhile isNameChar
  if name.isEmpty || !endsAnchor after.peek? then .error (.malformed .anchor)
  else .ok (String.ofList name, after)

/-- The bytes of escapes in a tag, and the place after them. -/
def tagEscapes : Nat → Cursor → Except Error (List UInt8 × Cursor)
  | 0, c => .ok ([], c)
  | fuel + 1, c =>
    if c.sees '%' then
      match hexNumber? 2 0 c.next.rest with
      | none => .error (.malformed .tag)
      | some n => do
        let (more, last) ← tagEscapes fuel (c.advance 3)
        return (UInt8.ofNat n :: more, last)
    else .ok ([], c)

/-- The characters of a tag, with escapes resolved, and the place after them. -/
def tagChars : Nat → Cursor → Except Error (List Char × Cursor)
  | 0, c => .ok ([], c)
  | fuel + 1, c =>
    if c.sees '%' then do
      let (bytes, after) ← tagEscapes (c.rest.length + 1) c
      match Bytes.decode bytes with
      | .error _ => throw (.malformed .tag)
      | .ok s =>
        let (more, last) ← tagChars fuel after
        return (s.toList ++ more, last)
    else
      match c.peek? with
      | some char =>
        if isTagChar char then do
          let (more, last) ← tagChars fuel c.next
          return (char :: more, last)
        else .ok ([], c)
      | none => .ok ([], c)

/-- The text of a tag, of at least one character or escape, and the place after it. -/
def tagText (c : Cursor) : Except Error (String × Cursor) := do
  if !(c.peek?.any isTagChar) then throw (.malformed .tag)
  let (chars, after) ← tagChars (c.rest.length + 1) c
  return (String.ofList chars, after)

/-- A tag handle: an exclamation mark, or a name between two, and the place after it. -/
def tagHandle (c : Cursor) : Except Error (String × Cursor) :=
  if c.sees '!' then
    let (name, after) := c.next.takeWhile isNameChar
    if after.sees '!' && !(c.next.sees ' ') then
      .ok (String.ofList ('!' :: name ++ ['!']), after.next)
    else if c.next.sees ' ' then .ok ("!", c.next)
    else .error (.malformed .tag)
  else .error (.malformed .tag)

/-- Whether a tag that begins here has a handle of more than one character. -/
def hasLongHandle (c : Cursor) : Bool :=
  (c.next.rest.takeWhile fun d => !endsWord (some d)).contains '!'

/-- A tag and the place after it. -/
def tagToken (c : Cursor) : Except Error (Token × Cursor) := do
  let (token, after) ←
    if c.next.sees '<' then do
      let (text, after) ← tagText (c.advance 2)
      if !after.sees '>' then throw (.malformed .tag)
      pure (Token.tag none text, after.next)
    else if endsToken c.next.peek? then pure (Token.tag none "!", c.next)
    else do
      let (handle, after) ← if hasLongHandle c then tagHandle c else pure ("!", c.next)
      let (suffix, last) ← tagText after
      pure (Token.tag (some handle) suffix, last)
  if endsWord after.peek? then return (token, after) else throw (.malformed .tag)

/-- A number in a directive, and the place after it. -/
def versionNumber (c : Cursor) : Except Error (Nat × Cursor) :=
  let (digits, after) := c.takeWhile Char.isDigit
  if digits.isEmpty then .error (.malformed .directive)
  else
    match Number.readInteger 10 (String.ofList digits) with
    | .ok i => .ok (i.toNat, after)
    | .error e => .error (.integer e)

/-- A directive of a name, and the place after what it says. -/
def directiveBody (name : String) (c : Cursor) : Except Error (Directive × Cursor) :=
  if name = "YAML" then do
    let (major, c) ← versionNumber c.skipSpaces
    if !c.sees '.' then throw (.malformed .directive)
    let (minor, c) ← versionNumber c.next
    if !endsWord c.peek? then throw (.malformed .directive)
    return (.version major minor, c)
  else if name = "TAG" then do
    let (handle, c) ← tagHandle c.skipSpaces
    if !c.sees ' ' then throw (.malformed .directive)
    let (meaning, c) ← tagText c.skipSpaces
    if !endsWord c.peek? then throw (.malformed .directive)
    return (.handle handle meaning, c)
  else return (.other, c.skipWhile (!isBreak ·))

/-- A directive and the place after its line. -/
def directiveToken (c : Cursor) : Except Error (Token × Cursor) := do
  let (name, c) := c.next.takeWhile isNameChar
  if name.isEmpty || !endsWord c.peek? then throw (.malformed .directive)
  let (directive, c) ← directiveBody (String.ofList name) c
  match restOfLine? c with
  | some after => return (.directive directive, after)
  | none => throw (.malformed .directive)

end ActionItems.Yaml
