import ActionItems.Comment.Grammar
import ActionItems.Text.Case

/-!
# Grammars from the user

A user may give the comment grammar of a file extension as a list: the extension, the line marker
and then nothing, the marker that closes a block, or the markers that open and close one. With three
items the line marker also opens the block. A missing marker is written as null or as an empty text.

`Override.ofItems` reads such a list, `Override.ofValue` one of which nothing is known yet; `Fault`
says why a list is refused.
-/

namespace ActionItems.Comment

open ActionItems.Text

/-- The comment grammar of a file extension, as a user gives it. -/
inductive Override (μ : Type) where
  | lineOnly (extension : String) (line : μ)
  /-- The line marker also opens a block. -/
  | symmetric (extension : String) (line closing : μ)
  | explicit (extension : String) (line opening closing : μ)
deriving Repr, DecidableEq

/-- Why a value gives no grammar. -/
inductive Override.Fault where
  /-- There are less than two or more than four items. -/
  | arity
  /-- The extension or the line marker is missing. -/
  | missing
  /-- The extension is a point and nothing else. -/
  | emptyExtension
  /-- One of the two markers of a block is missing. -/
  | unpaired
  /-- The extension is no text. -/
  | notText
  /-- The value has no items. -/
  | noItems
  /-- The items of the value have no order. -/
  | unordered
  /-- The items of the value are not known by their position. -/
  | noPositions
deriving Repr, DecidableEq

/-- Whether a fault is one of the list itself, as opposed to a value of another kind. -/
def Override.Fault.isRefusal : Override.Fault → Bool
  | .arity | .missing | .emptyExtension | .unpaired => true
  | _ => false

/-- The wording of a fault in an entry. -/
def Override.Fault.message (entry : Value) : Override.Fault → String
  | .arity => "Override must have 2 to 4 elements: " ++ entry.literal
  | .missing => "Override needs an extension and a line marker: " ++ entry.literal
  | .emptyExtension => "Override extension is empty: " ++ entry.literal
  | .unpaired => "Block start and end must be given together: " ++ entry.literal
  | .notText => "the extension is no text: " ++ entry.literal
  | .noItems => "the entry has no items: " ++ entry.literal
  | .unordered => "the entry has no order: " ++ entry.literal
  | .noPositions => "the entry has no first item: " ++ entry.literal

/-- An extension in small letters and without the point that it may begin with. -/
def normalizeExtension (extension : String) : String :=
  let chars := extension.toList
  String.ofList (lower (if chars.head? = some '.' then chars.drop 1 else chars))

namespace Override

variable {α μ : Type}

/-- The extension of an override. -/
def extension : Override μ → String
  | .lineOnly e _ => e
  | .symmetric e _ _ => e
  | .explicit e _ _ _ => e

/-- The line marker of an override. -/
def line : Override μ → μ
  | .lineOnly _ l => l
  | .symmetric _ l _ => l
  | .explicit _ l _ _ => l

/-- The comment grammar of an override. -/
def grammar [Marker μ] : Override μ → Except GrammarError (Grammar μ)
  | .lineOnly _ l => Grammar.make l none none
  | .symmetric _ l c => Grammar.make l (some l) (some c)
  | .explicit _ l o c => Grammar.make l (some o) (some c)

/-- The override for an extension, from a line marker and the items after it. -/
def ofRest (read : α → Option μ) (extension : String) (line : μ) :
    List α → Except Fault (Override μ)
  | [] => .ok (.lineOnly extension line)
  | [closing] =>
    match read closing with
    | none => .ok (.lineOnly extension line)
    | some c => .ok (.symmetric extension line c)
  | opening :: closing :: _ =>
    match read opening, read closing with
    | none, none => .ok (.lineOnly extension line)
    | some o, some c => .ok (.explicit extension line o c)
    | _, _ => .error .unpaired

/-- The override that a list gives, where `read` is the marker that an item gives, if it gives
one. -/
def ofItems [Marker μ] (read : α → Option μ) (items : List α) : Except Fault (Override μ) :=
  match items with
  | first :: second :: rest =>
    if rest.length > 2 then .error .arity
    else
      match read first, read second with
      | some named, some line =>
        match Marker.text? named with
        | none => .error .notText
        | some name =>
          let extension := normalizeExtension name
          if extension.isEmpty then .error .emptyExtension else ofRest read extension line rest
      | _, _ => .error .missing
  | _ => .error .arity

/-- The marker that an optional text gives. -/
def readText (item : Option String) : Option String := item.filter fun s => !s.isEmpty

/-- The marker that a value gives. -/
def readValue (item : Value) : Option Value := if item.isTruthy then some item else none

/-- Whether a number of items is that of no list of markers. -/
def badCount (n : Nat) : Bool := decide (n < 2) || decide (n > 4)

/-- The override that a value gives. -/
def ofValue : Value → Except Fault (Override Value)
  | .text _ | .loose _ | .bytes _ => .error .arity
  | .list items | .tuple items => ofItems readValue items
  | .set items => .error (if badCount items.length then .arity else .unordered)
  | .map entries => .error (if badCount entries.length then .arity else .noPositions)
  | _ => .error .noItems

end Override

end ActionItems.Comment
