import ActionItems.Calendar
import ActionItems.Number.Shortest
import ActionItems.Text.Quoted

/-!
# Values of data documents

What a JSON or YAML document holds, before anything is known about its meaning: one type for both
formats, as a configuration may come from either. The entries of a mapping keep the order in which
their keys first came; `insert` gives a key that is present its new value in place. `same` is
equality across kinds of number, `isTruthy` tells the empty and zero values from the others, and
`literal` writes a value into a message.
-/

namespace ActionItems

open ActionItems.Number (Binary64)

/-- A value of a data document. -/
inductive Value where
  | null
  | bool (b : Bool)
  | int (i : Int)
  | float (x : Binary64)
  | text (s : String)
  /-- A text with unpaired surrogates, as its code points. -/
  | loose (points : List Nat)
  | bytes (bytes : List UInt8)
  | date (date : Date)
  | moment (moment : Moment)
  | list (items : List Value)
  | tuple (items : List Value)
  | set (items : List Value)
  | map (entries : List (Value × Value))
  /-- A collection inside itself. -/
  | cycle
deriving Repr, Inhabited

namespace Value

/-- Whether a code point is one half of a surrogate pair. -/
def isSurrogate (point : Nat) : Bool := decide (0xD800 ≤ point) && decide (point ≤ 0xDFFF)

/-- The text made of code points. -/
def ofPoints (points : List Nat) : Value :=
  if points.any isSurrogate then .loose points else .text (String.ofList (points.map Char.ofNat))

/-- Whether a value is neither empty nor zero nor false. -/
def isTruthy : Value → Bool
  | null => false
  | bool b => b
  | int i => i != 0
  | float x => !x.isZero
  | text s => !s.isEmpty
  | loose points => !points.isEmpty
  | bytes b => !b.isEmpty
  | date _ => true
  | moment _ => true
  | list items => !items.isEmpty
  | tuple items => !items.isEmpty
  | set items => !items.isEmpty
  | map entries => !entries.isEmpty
  | cycle => true

/-- The integer that a value counts as, where truth values count as one and zero. -/
def asInt? : Value → Option Int
  | bool b => some (if b then 1 else 0)
  | int i => some i
  | _ => none

/-- Equality of numbers, whatever their kind; `none` if one of the two is no number. -/
def sameNumber? (a b : Value) : Option Bool :=
  match a.asInt?, b.asInt?, a, b with
  | some i, some j, _, _ => some (i == j)
  | some i, none, _, float y => some (y.eqInt i)
  | none, some j, float x, _ => some (x.eqInt j)
  | none, none, float x, float y => some (x.eq y)
  | _, _, _, _ => none

mutual

/-- Whether two values are equal; a number equals a number of another kind with the same value. -/
def same : Value → Value → Bool
  | null, null => true
  | text s, text t => s == t
  | loose p, loose q => p == q
  | bytes b, bytes c => b == c
  | date d, date e => d == e
  | moment m, moment n => m == n
  | list xs, list ys => sameItems xs ys
  | tuple xs, tuple ys => sameItems xs ys
  | set xs, set ys => xs.length == ys.length && allIn xs ys
  | map xs, map ys => xs.length == ys.length && allEntriesIn xs ys
  | cycle, cycle => true
  | a, b => (sameNumber? a b).getD false

/-- Equality item by item. -/
def sameItems : List Value → List Value → Bool
  | [], [] => true
  | x :: xs, y :: ys => same x y && sameItems xs ys
  | _, _ => false

/-- Whether every item equals some item of the other list. -/
def allIn : List Value → List Value → Bool
  | [], _ => true
  | x :: xs, ys => ys.any (same x) && allIn xs ys

/-- Whether every entry equals some entry of the other list. -/
def allEntriesIn : List (Value × Value) → List (Value × Value) → Bool
  | [], _ => true
  | (k, v) :: xs, ys => ys.any (fun e => same k e.1 && same v e.2) && allEntriesIn xs ys

end

mutual

/-- A value as it is written in a message. -/
def literal : Value → String
  | null => "None"
  | bool true => "True"
  | bool false => "False"
  | int i => if i < 0 then "-" ++ toString i.natAbs else toString i.natAbs
  | float x => x.text
  | text s => Text.quote s
  | loose points => String.ofList (Text.quotePoints points)
  | bytes b => Text.quoteBytes b
  | date d =>
    "datetime.date(" ++ toString d.year ++ ", " ++ toString d.month ++ ", " ++ toString d.day ++ ")"
  | moment m => m.text
  | list items => "[" ++ ", ".intercalate (literals items) ++ "]"
  | tuple [item] => "(" ++ literal item ++ ",)"
  | tuple items => "(" ++ ", ".intercalate (literals items) ++ ")"
  | set [] => "set()"
  | set items => "\x7b" ++ ", ".intercalate (literals items) ++ "\x7d"
  | map entries => "\x7b" ++ ", ".intercalate (entryLiterals entries) ++ "\x7d"
  | cycle => "[...]"

/-- The items of a list as they are written in a message. -/
def literals : List Value → List String
  | [] => []
  | v :: vs => literal v :: literals vs

/-- The entries of a mapping as they are written in a message. -/
def entryLiterals : List (Value × Value) → List String
  | [] => []
  | (k, v) :: es => (literal k ++ ": " ++ literal v) :: entryLiterals es

end

/-- A value as a part of running text: a text stands for itself, all else as its literal. -/
def display : Value → String
  | text s => s
  | loose points =>
    String.ofList (points.map fun n => if isSurrogate n then '\uFFFD' else Char.ofNat n)
  | v => v.literal

/-- A text. A half of a surrogate pair without its other counts as the replacement character. -/
def text? : Value → Option String
  | .text s => some s
  | .loose points => some (loose points).display
  | _ => none

/-- The name of the kind of a value. -/
def kindName : Value → String
  | null => "NoneType"
  | bool _ => "bool"
  | int _ => "int"
  | float _ => "float"
  | text _ => "str"
  | loose _ => "str"
  | bytes _ => "bytes"
  | date _ => "date"
  | moment _ => "datetime"
  | list _ => "list"
  | tuple _ => "tuple"
  | set _ => "set"
  | map _ => "dict"
  | cycle => "list"

/-- Entries with `key` set to `value`: in place if the key is present, at the end otherwise. -/
def insert (key value : Value) : List (Value × Value) → List (Value × Value)
  | [] => [(key, value)]
  | (k, v) :: rest => if same k key then (k, value) :: rest else (k, v) :: insert key value rest

/-- The value under a text key. -/
def lookup? (name : String) : List (Value × Value) → Option Value
  | [] => none
  | (.text s, v) :: rest => if s == name then some v else lookup? name rest
  | _ :: rest => lookup? name rest

/-- The entries of a mapping. -/
def entries? : Value → Option (List (Value × Value))
  | map entries => some entries
  | _ => none

/-- The value under a text key of a mapping. -/
def get? (v : Value) (name : String) : Option Value := v.entries?.bind (lookup? name)

/-- A mapping with text keys. -/
def object (fields : List (String × Value)) : Value :=
  map (fields.map fun (k, v) => (.text k, v))

theorem get?_eq_some_iff {v w : Value} {name : String} :
    v.get? name = some w ↔ ∃ entries, v = map entries ∧ lookup? name entries = some w := by
  cases v <;> simp [get?, entries?]

end Value

end ActionItems
