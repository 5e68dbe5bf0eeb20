import ActionItems.Bytes.Utf8
import ActionItems.Text.Hex

/-!
# Addresses of the server

The server answers at three places (`Endpoint`): the state of its health, the deliveries of events,
and its files, of which there are none. `locate` finds the place that an address leads to, and
`Endpoint.allows` the methods that it answers to. A path is compared after its escapes are resolved;
slashes at its beginning count as one.
-/

namespace ActionItems.Server

/-- A place at which the server answers. -/
inductive Endpoint where
  | health
  | events
  | files
deriving Repr, DecidableEq

/-- Where an address leads. -/
inductive Location where
  | endpoint (e : Endpoint)
  /-- The same path with single slashes leads to an endpoint. -/
  | moved (e : Endpoint)
  | nowhere
deriving Repr, DecidableEq

/-- Bytes with their escapes resolved: a percent sign and two digits of base sixteen are one
byte. -/
def resolveEscapes : List UInt8 → List UInt8
  | [] => []
  | [a] => [a]
  | [a, b] => [a, b]
  | a :: b :: c :: rest =>
    match a == 0x25, Text.hexValue? b.toNat, Text.hexValue? c.toNat with
    | true, some high, some low => UInt8.ofNat (high * 16 + low) :: resolveEscapes rest
    | _, _, _ => a :: resolveEscapes (b :: c :: rest)

/-- Whether a character may stand in the name of a scheme. -/
def isSchemeChar (c : Char) : Bool := c.isAlphanum || c = '+' || c = '-' || c = '.'

/-- An address without its scheme. -/
def dropScheme (address : List Char) : List Char :=
  match address.takeWhile isSchemeChar, address.dropWhile isSchemeChar with
  | first :: _, ':' :: rest => if first.isAlpha then rest else address
  | _, _ => address

/-- Whether a character ends the host in an address. -/
def endsHost (c : Char) : Bool := c = '/' || c = '?' || c = '#'

/-- An address without the host behind two slashes. -/
def dropHost : List Char → List Char
  | '/' :: '/' :: rest => rest.dropWhile fun c => !endsHost c
  | address => address

/-- The path of an address, before its query and its fragment. -/
def pathOf (address : List Char) : List Char :=
  (dropHost (dropScheme address)).takeWhile fun c => c != '?' && c != '#'

/-- A path with one slash for every two that follow one another. -/
def halveSlashes : List Char → List Char
  | '/' :: '/' :: rest => '/' :: halveSlashes rest
  | c :: rest => c :: halveSlashes rest
  | [] => []

/-- The endpoint at a path. -/
def Endpoint.ofPath? (path : List Char) : Option Endpoint :=
  if path = ['/'] then some .events
  else if path = "/health".toList then some .health
  else
    match "/static/".toList.isPrefixOf path, path.drop "/static/".length with
    | true, c :: _ => if c = '/' then none else some .files
    | _, _ => none

/-- A path with its escapes resolved and one slash at its beginning. -/
def plainPath (path : List Char) : List Char :=
  let plain := (Bytes.decodeLossy (resolveEscapes (Bytes.encode (String.ofList path)))).toList
  '/' :: plain.dropWhile (· = '/')

/-- Where an address leads. What follows the host is read as an address once more. -/
def locate (address : String) : Location :=
  match pathOf (pathOf address.toList) with
  | [] => .nowhere
  | path =>
    let plain := plainPath path
    match Endpoint.ofPath? plain, Endpoint.ofPath? (halveSlashes plain) with
    | some e, _ => .endpoint e
    | none, some e => .moved e
    | none, none => .nowhere

/-- Whether an endpoint answers to a method. -/
def Endpoint.allows (e : Endpoint) (method : String) : Bool :=
  match e with
  | .events => ["POST", "OPTIONS"].contains method
  | .health | .files => ["GET", "HEAD", "OPTIONS"].contains method

end ActionItems.Server
