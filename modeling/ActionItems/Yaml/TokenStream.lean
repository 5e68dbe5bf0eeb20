import ActionItems.Yaml.Property

/-!
# The tokens of a YAML text

A text is read token by token (`Lexer.step`). The indentation of a line opens and closes block
collections, so the reading keeps the columns at which open ones began. Whether a node is the key of
a mapping shows only at the colon behind it: each place where a key may have begun is kept
(`PendingKey`), one for every level of flow collections, and at the colon the tokens that were
missing are put in before it. A key must end on its line and within `keyLimit` characters.

If the text has a fault the stream ends with it. It then takes the place of the first token that may
still have been a key, since nothing is known about that token before the fault is met.
-/

namespace ActionItems.Yaml

/-- The greatest number of characters from the start of a key to the colon behind it. -/
def keyLimit : Nat := 1024

/-- A place where a key may have begun. -/
structure PendingKey where
  /-- The number of tokens before it. -/
  tokens : Nat
  /-- At this place there must be a key. -/
  required : Bool
  index : Nat
  line : Nat
  column : Nat
deriving Repr, DecidableEq

/-- What was read of a text. -/
structure Lexer where
  cursor : Cursor
  /-- The tokens read so far, the last one first. -/
  read : List Token := []
  /-- The number of tokens read so far. -/
  count : Nat := 0
  /-- The number of flow collections that are open. -/
  flow : Nat := 0
  /-- The column of the innermost open block collection. -/
  indent : Int := -1
  /-- The columns of the block collections around it. -/
  outer : List Int := []
  /-- Whether a key may begin here. -/
  mayBeKey : Bool := true
  /-- The places where keys may have begun, by the number of flow collections open there. -/
  pending : List (Nat × PendingKey) := []
  finished : Bool := false
deriving Repr

/-- The tokens of a text, up to its first fault. -/
structure TokenStream where
  tokens : List Token
  fault? : Option Error
deriving Repr, DecidableEq

namespace Lexer

/-- The state with a token read. -/
def push (l : Lexer) (t : Token) : Lexer := { l with read := t :: l.read, count := l.count + 1 }

/-- The state with a token of one character read. -/
def pushMark (l : Lexer) (t : Token) : Lexer := { l.push t with cursor := l.cursor.next }

/-- The state with a token put in where there were `n` tokens. -/
def insert (l : Lexer) (n : Nat) (t : Token) : Lexer :=
  let later := l.count - n
  { l with read := l.read.take later ++ t :: l.read.drop later, count := l.count + 1 }

/-- The state without the pending keys that the text has gone past. -/
def dropStale (l : Lexer) : Except Error Lexer :=
  let isStale (k : PendingKey) : Bool :=
    k.line != l.cursor.line || decide (l.cursor.index > k.index + keyLimit)
  if l.pending.any fun (_, k) => isStale k && k.required then .error (.malformed .missingColon)
  else .ok { l with pending := l.pending.filter fun (_, k) => !isStale k }

/-- The state without the pending key of the current level. -/
def dropPending (l : Lexer) : Except Error Lexer :=
  match l.pending.lookup l.flow with
  | none => .ok l
  | some k =>
    if k.required then .error (.malformed .missingColon)
    else .ok { l with pending := l.pending.filter fun (level, _) => level != l.flow }

/-- The state in which the next token may be a key, if one may begin here. -/
def savePending (l : Lexer) : Except Error Lexer :=
  if l.mayBeKey then do
    let required := l.flow = 0 && l.indent = l.cursor.column
    let l ← l.dropPending
    let key : PendingKey := ⟨l.count, required, l.cursor.index, l.cursor.line, l.cursor.column⟩
    return { l with pending := (l.flow, key) :: l.pending }
  else .ok l

/-- The state with the block collections closed that began right of a column. -/
def unwind (column : Int) : List Int → Lexer → Lexer
  | [], l => l
  | previous :: outer, l =>
    if l.flow = 0 && decide (l.indent > column) then
      unwind column outer { l.push .blockEnd with indent := previous, outer := outer }
    else l

/-- The state with the block collections closed that began right of a column. -/
def closeBlocks (l : Lexer) (column : Int) : Lexer := unwind column l.outer l

/-- The state with a block collection opened at a column, and whether there was none. -/
def indentTo (l : Lexer) (column : Int) : Lexer × Bool :=
  if l.indent < column then ({ l with outer := l.indent :: l.outer, indent := column }, true)
  else (l, false)

/-- The state after spaces, comments and line ends. -/
def skipGap : Nat → Lexer → Lexer
  | 0, l => l
  | fuel + 1, l =>
    let c := l.cursor.skipSpaces.skipComment
    match c.lineBreak? with
    | some (_, after) =>
      skipGap fuel { l with cursor := after, mayBeKey := l.mayBeKey || l.flow = 0 }
    | none => { l with cursor := c }

/-- The state after the end of the text. -/
def endStream (l : Lexer) : Except Error Lexer := do
  let l ← (l.closeBlocks (-1)).dropPending
  return { l.push .streamEnd with finished := true, pending := [], mayBeKey := false }

/-- The state after a directive. -/
def directive (l : Lexer) : Except Error Lexer := do
  let l ← (l.closeBlocks (-1)).dropPending
  let (token, after) ← directiveToken l.cursor
  return { l.push token with cursor := after, mayBeKey := false }

/-- The state after a mark between documents. -/
def documentMark (l : Lexer) (t : Token) : Except Error Lexer := do
  let l ← (l.closeBlocks (-1)).dropPending
  return { l.push t with cursor := l.cursor.advance 3, mayBeKey := false }

/-- The state after the start of a flow collection. -/
def openFlow (l : Lexer) (t : Token) : Except Error Lexer := do
  let l ← l.savePending
  return { l.pushMark t with flow := l.flow + 1, mayBeKey := true }

/-- The state after the end of a flow collection. -/
def closeFlow (l : Lexer) (t : Token) : Except Error Lexer := do
  let l ← l.dropPending
  if l.flow = 0 then throw (.malformed .form)
  return { l.pushMark t with flow := l.flow - 1, mayBeKey := false }

/-- The state after the comma between entries. -/
def flowEntry (l : Lexer) : Except Error Lexer := do
  let l ← l.dropPending
  return { l.pushMark .flowEntry with mayBeKey := true }

/-- The state with a block collection opened here if it must be; `start` is its first token. -/
def openBlock (l : Lexer) (start : Token) : Except Error Lexer :=
  if l.flow = 0 then
    if l.mayBeKey then
      match l.indentTo l.cursor.column with
      | (l, true) => .ok (l.push start)
      | (l, false) => .ok l
    else .error (.malformed .misplaced)
  else .ok l

/-- The state after the dash of an entry. -/
def blockEntry (l : Lexer) : Except Error Lexer := do
  let l ← l.openBlock .blockSequenceStart
  let l ← l.dropPending
  return { l.pushMark .blockEntry with mayBeKey := true }

/-- The state after a question mark. -/
def explicitKey (l : Lexer) : Except Error Lexer := do
  let l ← l.openBlock .blockMappingStart
  let l ← l.dropPending
  return { l.pushMark .key with mayBeKey := l.flow = 0 }

/-- The state after a colon. -/
def value (l : Lexer) : Except Error Lexer :=
  match l.pending.lookup l.flow with
  | some k =>
    let l := { l with pending := l.pending.filter fun (level, _) => level != l.flow }
    let l := l.insert k.tokens .key
    let l :=
      if l.flow = 0 then
        match l.indentTo k.column with
        | (l, true) => l.insert k.tokens .blockMappingStart
        | (l, false) => l
      else l
    .ok { l.pushMark .value with mayBeKey := false }
  | none => do
    let l ← l.openBlock .blockMappingStart
    let l ← l.dropPending
    return { l.pushMark .value with mayBeKey := l.flow = 0 }

/-- The state after a token that may be a key or begin one. -/
def keyToken (l : Lexer) (read : Cursor → Except Error (Token × Cursor)) : Except Error Lexer := do
  let l ← l.savePending
  let (token, after) ← read l.cursor
  return { l.push token with cursor := after, mayBeKey := false }

/-- The state after a block of lines. -/
def block (l : Lexer) (folded : Bool) : Except Error Lexer := do
  let l ← l.dropPending
  let (text, after) ← blockText folded l.indent l.cursor
  return { l.push (.scalar text false) with cursor := after, mayBeKey := true }

/-- The state after a plain scalar. -/
def plain (l : Lexer) : Except Error Lexer := do
  let l ← l.savePending
  let (text, after, broken) := plainText (l.flow != 0) (l.indent + 1) l.cursor
  return { l.push (.scalar text true) with cursor := after, mayBeKey := broken }

/-- The characters that a plain scalar does not begin with. -/
def indicators : List Char := "-?:,[]\x7b\x7d#&*!|>'\"%@\x60".toList

/-- Whether a plain scalar begins with `c`, which `after?` follows. -/
def beginsPlain (inFlow : Bool) (c : Char) (after? : Option Char) : Bool :=
  !(isSpacing c || indicators.contains c) ||
    (!endsToken after? && (c = '-' || (!inFlow && (c = '?' || c = ':'))))

/-- The state after the token that begins with `c`. -/
def dispatch (l : Lexer) (c : Char) : Except Error Lexer :=
  let inFlow := l.flow != 0
  let atStart := l.cursor.column = 0
  let after? := l.cursor.peekAt? 1
  let stands := inFlow || endsToken after?
  if c = '%' && atStart then l.directive
  else if atStart && l.cursor.atMark '-' then l.documentMark .documentStart
  else if atStart && l.cursor.atMark '.' then l.documentMark .documentEnd
  else if c = '[' then l.openFlow .flowSequenceStart
  else if c = '\x7b' then l.openFlow .flowMappingStart
  else if c = ']' then l.closeFlow .flowSequenceEnd
  else if c = '\x7d' then l.closeFlow .flowMappingEnd
  else if c = ',' then l.flowEntry
  else if c = '-' && endsToken after? then l.blockEntry
  else if c = '?' && stands then l.explicitKey
  else if c = ':' && stands then l.value
  else if c = '*' then l.keyToken fun c => do
    let (name, after) ← anchorName c.next
    return (.alias name, after)
  else if c = '&' then l.keyToken fun c => do
    let (name, after) ← anchorName c.next
    return (.anchor name, after)
  else if c = '!' then l.keyToken tagToken
  else if c = '|' && !inFlow then l.block false
  else if c = '>' && !inFlow then l.block true
  else if c = '\'' || c = '"' then l.keyToken fun d => do
    let (text, after) ← quotedText (c = '"') d
    return (.scalar text false, after)
  else if beginsPlain inFlow c after? then l.plain
  else .error (.malformed .indicator)

/-- The state after spaces, comments and line ends, with the collections closed that end there. -/
def approach (l : Lexer) : Except Error Lexer := do
  let l ← (skipGap (l.cursor.rest.length + 1) l).dropStale
  return l.closeBlocks l.cursor.column

/-- The state after the next token. -/
def readToken (l : Lexer) : Except Error Lexer := do
  let l ← l.approach
  match l.cursor.peek? with
  | none => l.endStream
  | some c => l.dispatch c

/-- The stream that ends with a fault met behind the tokens read. -/
def failed (l : Lexer) (e : Error) : TokenStream :=
  let sure := (l.pending.map fun (_, k) => k.tokens).foldl min l.count
  ⟨(l.read.drop (l.count - sure)).reverse, some e⟩

/-- Reads tokens to the end. -/
def run : Nat → Lexer → TokenStream
  | 0, l => l.failed (.malformed .indicator)
  | fuel + 1, l =>
    if l.finished then ⟨l.read.reverse, none⟩
    else
      match l.dropStale with
      | .error e => l.failed e
      | .ok l =>
        match l.readToken with
        | .error e => l.failed e
        | .ok l => run fuel l

end Lexer

/-- The tokens of a text. -/
def TokenStream.ofText (s : List Char) : TokenStream :=
  if s.all isReadable then
    let start := if s.head? = some byteOrderMark then Cursor.next ⟨s, 0, 0, 0⟩ else ⟨s, 0, 0, 0⟩
    Lexer.run (2 * s.length + 2) { cursor := start }
  else ⟨[], some (.malformed .character)⟩

end ActionItems.Yaml
