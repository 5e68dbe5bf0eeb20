import ActionItems.Yaml.TokenStream

/-!
# The nodes of a YAML document

A document is a graph of nodes (`Graph`): scalars with their text, sequences and mappings, each with
a tag. Nodes are named by their position in a table, so an alias is one more use of the same
position, and a collection may be part of itself. `Graph.ofTokens?` reads the only document of a
token stream and gives the position of its root.

A node without a tag is given one here: a plain scalar by its text (`plainTag`), any other node by
its kind.
-/

namespace ActionItems.Yaml

/-- What a node holds; items and entries are positions of nodes. -/
inductive Content where
  | scalar (text : List Nat)
  | sequence (items : List Nat)
  | mapping (entries : List (Nat × Nat))
deriving Repr, DecidableEq, Inhabited

/-- A node of a document. -/
structure Node where
  tag : String
  content : Content
deriving Repr, DecidableEq, Inhabited

/-- The nodes of a document by position. -/
abbrev Graph := Array Node

/-! ### Tags -/

/-- What the tags of the language begin with. -/
def tagBase : String := "tag:yaml.org,2002:"

/-- A tag of the language. -/
def standardTag (name : String) : String := tagBase ++ name

/-- The words that stand for truth. -/
def trueWords : List String := ["yes", "true", "on"]

/-- The words that stand for falsehood. -/
def falseWords : List String := ["no", "false", "off"]

/-- A word in small letters, with a capital in front, or in capitals. -/
def spellings (word : String) : List String := [word, word.capitalize, word.toUpper]

/-- Whether a character is a digit of ASCII. -/
def isDecimal (c : Char) : Bool := c.isDigit

/-- Whether a character is a digit of ASCII or an underscore. -/
def isDecimalGap (c : Char) : Bool := c.isDigit || c = '_'

/-- A text without a sign at its start. -/
def dropSign (s : List Char) : List Char :=
  match s with
  | '+' :: rest | '-' :: rest => rest
  | _ => s

/-- Whether a text is an exponent with a sign, or nothing. -/
def isExponent (s : List Char) : Bool :=
  match s with
  | [] => true
  | e :: sign :: rest =>
    (e = 'e' || e = 'E') && (sign = '+' || sign = '-') && !rest.isEmpty && rest.all isDecimal
  | _ => false

/-- Whether a text is digits that begin with no underscore. -/
def isDigits (s : List Char) : Bool :=
  match s with
  | d :: rest => d.isDigit && rest.all isDecimalGap
  | [] => false

/-- Whether a text is what may follow a number to base sixty: a colon and a number below sixty, once
or more often. The number read so far, in reverse, is kept while there is one. -/
def isSexagesimalTail : Option (List Char) → List Char → Bool
  | none, ':' :: rest => isSexagesimalTail (some []) rest
  | none, _ => false
  | some part, c :: rest =>
    if c.isDigit then isSexagesimalTail (some (c :: part)) rest
    else c = ':' && isSixty part && isSexagesimalTail (some []) rest
  | some part, [] => isSixty part
where
  /-- Whether digits in reverse are a number below sixty of one or two digits. -/
  isSixty : List Char → Bool
    | [d] => d.isDigit
    | [d, tens] => d.isDigit && decide ('0' ≤ tens) && decide (tens ≤ '5')
    | _ => false

/-- Whether a text is digits and a number to base sixty after them. -/
def isSexagesimal (s : List Char) : Bool :=
  isDigits (s.takeWhile isDecimalGap) && isSexagesimalTail none (s.dropWhile isDecimalGap)

/-- Whether a text has the form of a plain floating-point number. -/
def isFloatForm (s : List Char) : Bool :=
  let unsigned := dropSign s
  let whole := unsigned.takeWhile (· ≠ '.')
  match unsigned.dropWhile (· ≠ '.') with
  | '.' :: fraction =>
    let exponent := fraction.dropWhile isDecimalGap
    (isDigits whole && isExponent exponent) ||
      (isSexagesimal whole && exponent.isEmpty) ||
      (whole.isEmpty &&
        ((s.head? = some '.' && isDigits (fraction.takeWhile isDecimalGap) &&
          isExponent exponent) ||
          (spellings "inf").contains (String.ofList fraction) ||
          (s.head? = some '.' && ["nan", "NaN", "NAN"].contains (String.ofList fraction))))
  | _ => false

/-- Whether a text has the form of a plain integer. -/
def isIntForm (s : List Char) : Bool :=
  let body := dropSign s
  match body with
  | '0' :: 'b' :: rest => !rest.isEmpty && rest.all fun c => c = '0' || c = '1' || c = '_'
  | '0' :: 'x' :: rest =>
    !rest.isEmpty && rest.all fun c => (Text.hexValue? c.toNat).isSome || c = '_'
  | '0' :: rest => rest.all fun c => (decide ('0' ≤ c) && decide (c ≤ '7')) || c = '_'
  | d :: rest => d.isDigit && (rest.all isDecimalGap || isSexagesimal body)
  | [] => false

/-- Between `least` and `greatest` digits at the start of a text, as many as there are, and the
rest. -/
def takeDigits? (least greatest : Nat) (s : List Char) : Option (List Char × List Char) :=
  let digits := (s.takeWhile isDecimal).take greatest
  if least ≤ digits.length then some (digits, s.drop digits.length) else none

/-- The rest of a text that begins with `c`. -/
def dropChar? (c : Char) (s : List Char) : Option (List Char) :=
  match s with
  | d :: rest => if c = d then some rest else none
  | [] => none

/-- A written distance from universal time: a sign, hours and minutes. -/
structure ZoneForm where
  negative : Bool
  hours : List Char
  minutes : List Char
deriving Repr, DecidableEq

/-- A written time of day. The zone is absent, universal or a distance from that. -/
structure TimeForm where
  hour : List Char
  minute : List Char
  second : List Char
  fraction : List Char
  zone? : Option (Option ZoneForm)
deriving Repr, DecidableEq

/-- A written date, perhaps with a time. -/
structure DateForm where
  year : List Char
  month : List Char
  day : List Char
  time? : Option TimeForm
deriving Repr, DecidableEq

/-- Whether a character is a space or a tab. -/
def isBlankChar (c : Char) : Bool := c = ' ' || c = '\t'

/-- The zone that a text is; `none` if it is none. -/
def zoneForm? (s : List Char) : Option (Option (Option ZoneForm)) :=
  match s.dropWhile isBlankChar with
  | [] => if s.isEmpty then some none else none
  | ['Z'] => some (some none)
  | sign :: rest => do
    if sign ≠ '+' ∧ sign ≠ '-' then none
    let (hours, rest) ← takeDigits? 1 2 rest
    let minutes ←
      match rest with
      | [] => some []
      | ':' :: rest =>
        match takeDigits? 2 2 rest with
        | some (minutes, []) => some minutes
        | _ => none
      | _ => none
    return some (some ⟨sign = '-', hours, minutes⟩)

/-- The time of day that a text is, after the mark between date and time. -/
def timeForm? (s : List Char) : Option TimeForm := do
  let (hour, rest) ← takeDigits? 1 2 s
  let (minute, rest) ← takeDigits? 2 2 (← dropChar? ':' rest)
  let (second, rest) ← takeDigits? 2 2 (← dropChar? ':' rest)
  let (fraction, rest) :=
    match rest with
    | '.' :: rest => (rest.takeWhile isDecimal, rest.dropWhile isDecimal)
    | _ => ([], rest)
  return ⟨hour, minute, second, fraction, ← zoneForm? rest⟩

/-- The text after the mark between date and time: a letter or blanks. -/
def timePart? (s : List Char) : Option (List Char) :=
  match s with
  | 'T' :: rest | 't' :: rest => some rest
  | c :: _ => if isBlankChar c then some (s.dropWhile isBlankChar) else none
  | [] => none

/-- The date that a text is. -/
def dateForm? (s : List Char) : Option DateForm := do
  let (year, rest) ← takeDigits? 4 4 s
  let (month, rest) ← takeDigits? 1 2 (← dropChar? '-' rest)
  let (day, rest) ← takeDigits? 1 2 (← dropChar? '-' rest)
  if rest.isEmpty then return ⟨year, month, day, none⟩
  return ⟨year, month, day, some (← timeForm? (← timePart? rest))⟩

/-- Whether a text has the form of a plain date: without a time, all its numbers are of full
length. -/
def isDateForm (s : List Char) : Bool :=
  match dateForm? s with
  | some d => d.time?.isSome || (d.month.length = 2 && d.day.length = 2)
  | none => false

/-- The name of the tag of a text that is not quoted. -/
def plainTagName (s : List Char) : String :=
  let body := Text.dropFinalNewline s
  let word := String.ofList body
  if ((trueWords ++ falseWords).flatMap spellings).contains word then "bool"
  else if isFloatForm body then "float"
  else if isIntForm body then "int"
  else if word = "<<" then "merge"
  else if s.isEmpty || word = "~" || (spellings "null").contains word then "null"
  else if isDateForm body then "timestamp"
  else if word = "=" then "value"
  else if word = "!" || word = "&" || word = "*" then "yaml"
  else "str"

/-- The tag of a text that is not quoted. -/
def plainTag (text : List Nat) : String := standardTag (plainTagName (text.map Char.ofNat))

/-! ### Reading the graph -/

/-- The tag handles that always have a meaning. -/
def standardHandles : List (String × String) := [("!", "!"), ("!!", tagBase)]

/-- What was read of a document. -/
structure Composer where
  tokens : List Token
  /-- What is wrong where the tokens end. -/
  fault : Error
  nodes : Graph := #[]
  anchors : List (String × Nat) := []
  handles : List (String × String) := standardHandles

namespace Composer

/-- A step of the reading. -/
abbrev Step := StateT Composer (Except Error)

/-- The text is no document. -/
def fail {α : Type} (f : Fault) : Step α := throw (.malformed f)

/-- The next token, which is left in place. -/
def peek : Step Token := do
  match (← get).tokens with
  | t :: _ => return t
  | [] => throw (← get).fault

/-- Leaves the next token behind. -/
def skip : Step Unit := modify fun c => { c with tokens := c.tokens.drop 1 }

/-- Adds a node and gives its position. -/
def add (node : Node) : Step Nat := do
  let c ← get
  set { c with nodes := c.nodes.push node }
  return c.nodes.size

/-- Gives the node at a position its content. -/
def fill (position : Nat) (content : Content) : Step Unit :=
  modify fun c => { c with nodes := c.nodes.modify position fun node =>
    { node with content := content } }

/-- An absent node, read as an empty plain scalar. -/
def absent : Step Nat := add ⟨plainTag [], .scalar []⟩

/-- The properties in front of a node. -/
structure Properties where
  anchor? : Option String := none
  tag? : Option (Option String × String) := none

/-- Reads the properties in front of a node, in either order. -/
def properties : Step Properties := do
  match ← peek with
  | .anchor a =>
    skip
    match ← peek with
    | .tag h s =>
      skip
      return ⟨some a, some (h, s)⟩
    | _ => return ⟨some a, none⟩
  | .tag h s =>
    skip
    match ← peek with
    | .anchor a =>
      skip
      return ⟨some a, some (h, s)⟩
    | _ => return ⟨none, some (h, s)⟩
  | _ => return {}

/-- The tag that is written as a handle and a suffix. -/
def resolveTag : Option String × String → Step String
  | (none, suffix) => return suffix
  | (some handle, suffix) => do
    match (← get).handles.lookup handle with
    | some meaning => return meaning ++ suffix
    | none => fail .tag

/-- The tag that leaves the choice to the kind of the node. -/
def openTag : String := "!"

/-- The tag of a collection, given what is written. -/
def collectionTag (name : String) (tag? : Option String) : String :=
  match tag? with
  | some tag => if tag = openTag then standardTag name else tag
  | none => standardTag name

/-- The tag of a scalar, given what is written. -/
def scalarTag (text : List Nat) (plain : Bool) (tag? : Option String) : String :=
  match tag? with
  | some tag => if tag = openTag then plainTag text else tag
  | none => if plain then plainTag text else standardTag "str"

/-- Adds the node of an anchor, which must be new. -/
def define (anchor? : Option String) (node : Node) : Step Nat := do
  match anchor? with
  | none => add node
  | some a =>
    if ((← get).anchors.lookup a).isSome then fail .duplicateAnchor
    let position ← add node
    modify fun c => { c with anchors := (a, position) :: c.anchors }
    return position

mutual

/-- Reads a node and gives its position. Block collections may begin where `block` says so, and
sequences without an indentation of their own where `bare` does. -/
def node : Nat → Bool → Bool → Step Nat
  | 0, _, _ => fail .form
  | fuel + 1, block, bare => do
    if let .alias a ← peek then
      skip
      match (← get).anchors.lookup a with
      | some position => return position
      | none => fail .undefinedAlias
    let written ← properties
    let tag? ← written.tag?.mapM resolveTag
    match ← peek, block, bare with
    | .blockEntry, _, true =>
      let position ← define written.anchor? ⟨collectionTag "seq" tag?, .sequence []⟩
      fill position (.sequence (← bareItems fuel []))
      return position
    | .scalar text plain, _, _ =>
      skip
      define written.anchor? ⟨scalarTag text plain tag?, .scalar text⟩
    | .flowSequenceStart, _, _ =>
      let position ← define written.anchor? ⟨collectionTag "seq" tag?, .sequence []⟩
      skip
      fill position (.sequence (← flowItems fuel true []))
      return position
    | .flowMappingStart, _, _ =>
      let position ← define written.anchor? ⟨collectionTag "map" tag?, .mapping []⟩
      skip
      fill position (.mapping (← flowEntries fuel true []))
      return position
    | .blockSequenceStart, true, _ =>
      let position ← define written.anchor? ⟨collectionTag "seq" tag?, .sequence []⟩
      skip
      fill position (.sequence (← blockItems fuel []))
      return position
    | .blockMappingStart, true, _ =>
      let position ← define written.anchor? ⟨collectionTag "map" tag?, .mapping []⟩
      skip
      fill position (.mapping (← blockEntries fuel []))
      return position
    | _, _, _ =>
      if written.anchor?.isNone && tag?.isNone then fail .form
      else define written.anchor? ⟨scalarTag [] tag?.isNone tag?, .scalar []⟩

/-- The items of a block sequence after those read so far, in reverse. -/
def blockItems : Nat → List Nat → Step (List Nat)
  | 0, _ => fail .form
  | fuel + 1, read => do
    match ← peek with
    | .blockEntry =>
      skip
      match ← peek with
      | .blockEntry | .blockEnd => blockItems fuel ((← absent) :: read)
      | _ => blockItems fuel ((← node fuel true false) :: read)
    | .blockEnd =>
      skip
      return read.reverse
    | _ => fail .form

/-- The items of a sequence without an indentation of its own, after those read so far. -/
def bareItems : Nat → List Nat → Step (List Nat)
  | 0, _ => fail .form
  | fuel + 1, read => do
    match ← peek with
    | .blockEntry =>
      skip
      match ← peek with
      | .blockEntry | .key | .value | .blockEnd => bareItems fuel ((← absent) :: read)
      | _ => bareItems fuel ((← node fuel true false) :: read)
    | _ => return read.reverse

/-- The node after the sign of a key or value in a block mapping. -/
def blockPart : Nat → Step Nat
  | 0 => fail .form
  | fuel + 1 => do
    match ← peek with
    | .key | .value | .blockEnd => absent
    | _ => node fuel true true

/-- The entries of a block mapping after those read so far, in reverse. -/
def blockEntries : Nat → List (Nat × Nat) → Step (List (Nat × Nat))
  | 0, _ => fail .form
  | fuel + 1, read => do
    match ← peek with
    | .blockEnd =>
      skip
      return read.reverse
    | .key =>
      skip
      let key ← blockPart fuel
      match ← peek with
      | .value =>
        skip
        let value ← blockPart fuel
        blockEntries fuel ((key, value) :: read)
      | _ => blockEntries fuel ((key, ← absent) :: read)
    | _ => fail .form

/-- The items of a flow sequence after those read so far; before the first one no comma stands. -/
def flowItems : Nat → Bool → List Nat → Step (List Nat)
  | 0, _, _ => fail .form
  | fuel + 1, first, read => do
    match ← peek with
    | .flowSequenceEnd =>
      skip
      return read.reverse
    | t =>
      if !first then
        if t = .flowEntry then skip else fail .form
      match ← peek with
      | .key =>
        let position ← add ⟨standardTag "map", .mapping []⟩
        skip
        let key ←
          match ← peek with
          | .value | .flowEntry | .flowSequenceEnd => absent
          | _ => node fuel false false
        let value ←
          match ← peek with
          | .value =>
            skip
            match ← peek with
            | .flowEntry | .flowSequenceEnd => absent
            | _ => node fuel false false
          | _ => absent
        fill position (.mapping [(key, value)])
        flowItems fuel false (position :: read)
      | .flowSequenceEnd =>
        skip
        return read.reverse
      | _ => flowItems fuel false ((← node fuel false false) :: read)

/-- The entries of a flow mapping after those read so far; before the first one no comma stands. -/
def flowEntries : Nat → Bool → List (Nat × Nat) → Step (List (Nat × Nat))
  | 0, _, _ => fail .form
  | fuel + 1, first, read => do
    match ← peek with
    | .flowMappingEnd =>
      skip
      return read.reverse
    | t =>
      if !first then
        if t = .flowEntry then skip else fail .form
      match ← peek with
      | .key =>
        skip
        let key ←
          match ← peek with
          | .value | .flowEntry | .flowMappingEnd => absent
          | _ => node fuel false false
        let value ←
          match ← peek with
          | .value =>
            skip
            match ← peek with
            | .flowEntry | .flowMappingEnd => absent
            | _ => node fuel false false
          | _ => absent
        flowEntries fuel false ((key, value) :: read)
      | .flowMappingEnd =>
        skip
        return read.reverse
      | _ =>
        let key ← node fuel false false
        flowEntries fuel false ((key, ← absent) :: read)

end

/-- Reads directives and gives the handles that they define; the version must be one that is known
and be given once. -/
def directives : Nat → Bool → List (String × String) → Step (List (String × String))
  | 0, _, _ => fail .directive
  | fuel + 1, versioned, handles => do
    match ← peek with
    | .directive d =>
      skip
      match d with
      | .version major _ =>
        if versioned || major ≠ 1 then fail .directive
        directives fuel true handles
      | .handle handle meaning =>
        if (handles.lookup handle).isSome then fail .directive
        directives fuel versioned ((handle, meaning) :: handles)
      | .other => directives fuel versioned handles
    | _ => return handles

/-- Reads the start of a document with its directives. -/
def documentStart (fuel : Nat) : Step Unit := do
  let handles ← directives fuel false []
  match ← peek with
  | .documentStart =>
    skip
    modify fun c => { c with handles := handles ++ standardHandles }
  | _ => fail .form

/-- Leaves the marks behind that end documents. -/
def skipEnds : Nat → Step Unit
  | 0 => pure ()
  | fuel + 1 => do
    if (← peek) = .documentEnd then
      skip
      skipEnds fuel

/-- Reads the end of a stream of one document. -/
def streamEnd (fuel : Nat) : Step Unit := do
  skipEnds fuel
  match ← peek with
  | .streamEnd => return
  | _ =>
    documentStart fuel
    fail .severalDocuments

/-- Reads the only document of a stream and gives the position of its root, if there is a
document. -/
def document (fuel : Nat) : Step (Option Nat) := do
  match ← peek with
  | .streamEnd => return none
  | .directive _ | .documentStart =>
    documentStart fuel
    let root ←
      match ← peek with
      | .directive _ | .documentStart | .documentEnd | .streamEnd => absent
      | _ => node fuel true false
    streamEnd fuel
    return some root
  | _ =>
    let root ← node fuel true false
    streamEnd fuel
    return some root

end Composer

/-- The nodes of the only document of a stream and the position of its root, if there is a
document. -/
def Graph.ofTokens? (s : TokenStream) : Except Error (Option (Nat × Graph)) := do
  let start : Composer := { tokens := s.tokens, fault := s.fault?.getD (.malformed .form) }
  let (root?, c) ← (Composer.document (4 * s.tokens.length + 8)).run start
  return root?.map fun root => (root, c.nodes)

end ActionItems.Yaml
