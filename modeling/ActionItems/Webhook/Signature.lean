import ActionItems.Bytes.Utf8
import ActionItems.Digest.Hmac

/-!
# Signatures of deliveries

A delivery is signed with a secret that both sides know: the signature names a hash function and
gives the digest of the body under the secret in base sixteen. `verify` accepts exactly that. A
signature without its two parts or of another function is refused, and so is every signature if
there is no secret. A digest that is not ASCII is a fault of its own.
-/

namespace ActionItems.Webhook

open ActionItems.Digest

/-- A digest with characters that are not ASCII. -/
structure ForeignDigest where
  digest : String
deriving Repr, DecidableEq

/-- The wording of a digest that is not ASCII. -/
def ForeignDigest.message (_ : ForeignDigest) : String :=
  "comparing strings with non-ASCII characters is not supported"

/-- The hash function of a name. -/
def methodNamed? (name : List Char) : Option Method :=
  if name = "sha256".toList then some .sha256
  else if name = "sha1".toList then some .sha1
  else none

/-- The parts of a signature before and after its first equals sign. -/
def signatureParts? (signature : List Char) : Option (List Char × List Char) :=
  match signature.span (· ≠ '=') with
  | (name, _ :: digest) => some (name, digest)
  | (_, []) => none

/-- The digest of a body under a secret, as a signature gives it. -/
def bodyDigest (method : Method) (secret : String) (body : List UInt8) : String :=
  hex (method.keyed (Bytes.encode secret) body)

/-- Whether a signature is that of a body under a secret. -/
def verify (body : List UInt8) (signature secret : String) : Except ForeignDigest Bool :=
  if secret.isEmpty then .ok false
  else
    match signatureParts? signature.toList with
    | none => .ok false
    | some (name, digest) =>
      match methodNamed? name with
      | none => .ok false
      | some method =>
        if digest.all fun c => c.toNat < 128 then
          .ok (bodyDigest method secret body == String.ofList digest)
        else .error ⟨String.ofList digest⟩

end ActionItems.Webhook
